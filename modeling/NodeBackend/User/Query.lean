import NodeBackend.Js.NearestEven
import NodeBackend.User.Models

namespace node_backend.user_query

open js store
open node_backend.exceptions node_backend.user_models node_backend.user_preference_entity

inductive SortBy
  | createdAt
  | updatedAt
  | deletedAt
  deriving DecidableEq, Repr

inductive ListOrder
  | ascending
  | descending
  deriving DecidableEq, Repr

/-- UserBuildParamsInterface: a list query, the fields of a user that may come
with it, and what to select. -/
structure UserBuildParams where
  limit : Option Double := none
  page : Option Double := none
  order : Option ListOrder := none
  sortBy : Option SortBy := none
  searchTerm : Option String := none
  selectSoftDeleted : Bool := false
  id : Option String := none
  fullName : Option String := none
  email : Option String := none
  phone : Option String := none
  fu : Option String := none
  docType : Option String := none
  document : Option String := none
  defaultTheme : Option String := none
  withoutPassword : Bool
  withoutSensitiveData : Bool

inductive TextCondition
  | equal (value : String)
  | like (pattern : String)

/-- And(In(among), Equal(value)). -/
structure ThemeCondition where
  among : List String
  value : String

/-- Conditions on a user, all of which are to hold. -/
structure UserWhere where
  softDeleted : Bool := false
  id : Option String := none
  fullName : Option TextCondition := none
  email : Option String := none
  phone : Option String := none
  fu : Option String := none
  docType : Option String := none
  document : Option String := none
  defaultTheme : Option ThemeCondition := none

structure PaginationOptions where
  take : Option Double := none
  skip : Option Number := none
  order : Option (SortBy × ListOrder) := none

/-- FindManyOptions. One of the filters is to hold, where there are any. -/
structure FindOptions extends PaginationOptions where
  select : UserSelect := {}
  filters : List UserWhere
  relations : Bool := false

def buildSelectParams (params : UserBuildParams) : UserSelect where
  password := !params.withoutPassword
  phone := !params.withoutSensitiveData
  document := !params.withoutSensitiveData

/-- A text that is neither missing nor empty. -/
def given (text : Option String) : Option String :=
  text.filter (· != "")

@[simp] theorem given_none : given none = none := rfl

theorem given_of_ne {text : String} (h : text ≠ "") : given (some text) = some text := by
  simp [given, Option.filter, h]

def buildWhereParams (params : UserBuildParams) : List UserWhere :=
  let partialWhere : UserWhere := { softDeleted := params.selectSoftDeleted }
  match given params.id with
  | some id => [{ partialWhere with id := some id }]
  | none =>
    [{ partialWhere with
        email := given params.email
        document := given params.document
        docType := given params.docType
        fu := given params.fu
        phone := given params.phone
        fullName := match given params.searchTerm with
          | some searchTerm => some (.like ("%" ++ (searchTerm ++ "%")))
          | none => (given params.fullName).map .equal
        defaultTheme := (given params.defaultTheme).map fun theme => ⟨themeValues.map ThemesEnum.text, theme⟩ }]

/-- A number that is neither missing nor zero. -/
def truthyNumber (number : Option Double) : Bool :=
  number.any fun value => value.magnitude != 0

/-- `Number(number) || default`. -/
def numberOr (number : Option Double) (default : Double) : Double :=
  if truthyNumber number then number.getD default else default

def buildPaginationParams (params : UserBuildParams) : PaginationOptions where
  take :=
    if truthyNumber params.limit && truthyNumber params.page then some (numberOr params.limit .ten) else none
  skip :=
    if truthyNumber params.limit && truthyNumber params.page then
      some (Rounding.even.multiply (numberOr params.page .zero) (numberOr params.limit .ten))
    else none
  order :=
    if params.sortBy.isSome || params.order.isSome then
      some (params.sortBy.getD .createdAt, params.order.getD .ascending)
    else none

def buildParams (params : UserBuildParams) : FindOptions where
  toPaginationOptions := buildPaginationParams params
  select := buildSelectParams params
  filters := buildWhereParams params
  relations := true

/-- Whether a text meets the pattern of a LIKE: a percent sign stands for any text,
an underscore for any character, and a backslash before a character for that
character. -/
def like : List Char → List Char → Bool
  | [], text => text.isEmpty
  | '\\' :: escaped :: pattern, text =>
    match text with
    | [] => false
    | c :: rest => c == escaped && like pattern rest
  | '%' :: pattern, text => text.tails.any fun rest => like pattern rest
  | '_' :: pattern, text =>
    match text with
    | [] => false
    | _ :: rest => like pattern rest
  | c :: pattern, text =>
    match text with
    | [] => false
    | d :: rest => c == d && like pattern rest

def TextCondition.holds (text : String) : TextCondition → Bool
  | equal value => text == value
  | like pattern => user_query.like pattern.toList text.toList

/-- Equality of a column with a value, where one is asked for. Null equals none. -/
def equals (wanted column : Option String) : Bool :=
  wanted.all fun value => column == some value

/-- Whether a user meets a condition, whose identifier may come in any spelling. -/
def UserWhere.holds (condition : UserWhere) (ids : UuidSource) (user : UsersModel)
    (preference : Option UserPreferencesModel) : Bool :=
  (!condition.softDeleted || user.deletedAt.isSome) &&
  condition.id.all (fun text => ids.read text == some user.id) &&
  condition.fullName.all (TextCondition.holds user.fullName) &&
  equals condition.email (some user.email) &&
  equals condition.phone user.phone &&
  equals condition.fu user.fu &&
  equals condition.docType user.docType &&
  equals condition.document user.document &&
  condition.defaultTheme.all fun theme =>
    ((preference.bind UserPreferencesModel.defaultTheme).map ThemesEnum.text).any fun text =>
      theme.among.contains text && text == theme.value

/-- What rows are sorted by. Null comes after every date, the last of which is a
millisecond before. -/
def SortBy.key (sortBy : SortBy) (user : UsersModel) : Int :=
  match sortBy with
  | createdAt => user.createdAt.ms
  | updatedAt => user.updatedAt.ms
  | deletedAt => user.deletedAt.elim 8640000000000001 Time.ms

/-- Whether the order puts a user before another one. -/
def precedes : Option (SortBy × ListOrder) → UsersModel → UsersModel → Prop
  | none, _, _ => False
  | some (sortBy, .ascending), a, b => sortBy.key a < sortBy.key b
  | some (sortBy, .descending), a, b => sortBy.key b < sortBy.key a

theorem precedes_asymm {order : Option (SortBy × ListOrder)} {a b : UsersModel} (h : precedes order a b) :
    ¬ precedes order b a := by
  obtain _ | ⟨sortBy, _ | _⟩ := order
  · exact h.elim
  · exact lt_asymm h
  · exact lt_asymm h

theorem not_precedes_trans {order : Option (SortBy × ListOrder)} {a b c : UsersModel} (hab : ¬ precedes order b a)
    (hbc : ¬ precedes order c b) : ¬ precedes order c a := by
  obtain _ | ⟨sortBy, _ | _⟩ := order
  · exact id
  · exact not_lt.mpr ((not_lt.mp hab).trans (not_lt.mp hbc))
  · exact not_lt.mpr ((not_lt.mp hbc).trans (not_lt.mp hab))

instance (order : Option (SortBy × ListOrder)) (a b : UsersModel) : Decidable (precedes order a b) :=
  match order with
  | none => inferInstanceAs (Decidable False)
  | some (sortBy, .ascending) => inferInstanceAs (Decidable (sortBy.key a < sortBy.key b))
  | some (sortBy, .descending) => inferInstanceAs (Decidable (sortBy.key b < sortBy.key a))

/-- The part of a list that a database gives: where it starts, how long it is at most,
and the count of all rows that comes with it. -/
structure Slice where
  skipped : Nat
  taken : Nat
  count : Number

/-- What a database makes of two numbers that ask for a part of so many rows. It may
refuse them. For whole numbers it gives the part that they say, and counts all rows. -/
structure Paging where
  slice : Double → Number → Nat → Except Failure Slice
  slice_whole : ∀ (take skip : Nat) (htake : take < 2 ^ 53) (hskip : skip < 2 ^ 53) (total : Nat),
    slice (.ofNat take htake) (.finite (.ofNat skip hskip)) total = .ok ⟨skip, take, Rounding.even.ofNat total⟩

/-- The rows that the options ask for, and how many there are. -/
def Paging.cut (paging : Paging) (options : PaginationOptions) (rows : List UsersModel) :
    Except Failure (List UsersModel × Number) :=
  match options.take, options.skip with
  | some take, some skip => (paging.slice take skip rows.length).map fun slice =>
      ((rows.drop slice.skipped).take slice.taken, slice.count)
  | _, _ => .ok (rows, Rounding.even.ofNat rows.length)

/-- A database that refuses all numbers but whole ones. -/
def Paging.strict : Paging where
  slice
    | take, .finite skip, total =>
      if !take.negative && take.magnitude.den == 1 && !skip.negative && skip.magnitude.den == 1 then
        .ok ⟨skip.magnitude.num.toNat, take.magnitude.num.toNat, Rounding.even.ofNat total⟩
      else .error (.plain { name := some "QueryFailedError", message := "LIMIT must not be negative" })
    | _, _, _ => .error (.plain { name := some "QueryFailedError", message := "OFFSET must not be negative" })
  slice_whole := by
    intro take skip _ _ total
    simp [Double.ofNat]

/-- How a database arranges rows, of which it gives a part. It chooses where the order
leaves that open. -/
structure Engine extends Paging where
  arrange : Option (SortBy × ListOrder) → List UsersModel → List UsersModel
  perm : ∀ order rows, (arrange order rows).Perm rows
  sorted : ∀ order rows, (arrange order rows).Pairwise fun a b => ¬ precedes order b a

/-- A database that leaves tied rows as they were inserted. -/
def Engine.stable : Engine where
  toPaging := Paging.strict
  arrange := fun order rows => rows.insertionSort fun a b => ¬ precedes order b a
  perm := fun _ rows => List.perm_insertionSort _ rows
  sorted := by
    intro order rows
    have htotal : Std.Total fun a b => ¬ precedes order b a := ⟨fun a b => by
      by_cases h : precedes order a b
      · exact Or.inl (precedes_asymm h)
      · exact Or.inr h⟩
    have htrans : IsTrans UsersModel fun a b => ¬ precedes order b a := ⟨fun _ _ _ => not_precedes_trans⟩
    exact List.pairwise_insertionSort _ rows

variable {ids : UuidSource}

/-- The live preference of a user. -/
def joined (preferences : Table ids UserPreferencesModel) (userId : String) : Option UserPreferencesModel :=
  preferences.rows.find? fun row => row.live && row.userId == some userId

/-- The live users that meet one of the filters. -/
def FindOptions.matching (options : FindOptions) (users : Table ids UsersModel)
    (preferences : Table ids UserPreferencesModel) : List UsersModel :=
  users.rows.filter fun user => user.live &&
    (options.filters.isEmpty || options.filters.any fun condition =>
      condition.holds ids user (joined preferences user.id))

/-- A user as a query with these options returns it. -/
def FindOptions.load (options : FindOptions) (preferences : Table ids UserPreferencesModel) (user : UsersModel) :
    user_entity.UserValues :=
  user.load options.select (if options.relations then joined preferences user.id else none)

end node_backend.user_query

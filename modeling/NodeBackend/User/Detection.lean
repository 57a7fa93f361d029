import NodeBackend.User.Services

namespace node_backend.user_strategy

open js

/-- A path of an input that ends in a value which is not undefined and no object. -/
inductive Ends : Value → List String → Value → Prop
  | null : Ends .null [] .null
  | bool (b : Bool) : Ends (.bool b) [] (.bool b)
  | num (n : Decimal) : Ends (.num n) [] (.num n)
  | nonFinite (n : NonFinite) : Ends (.nonFinite n) [] (.nonFinite n)
  | str (s : String) : Ends (.str s) [] (.str s)
  | under {input inner leaf : Value} {key : String} {path : List String} (hentry : (key, inner) ∈ input.entries)
      (hends : Ends inner path leaf) : Ends input (key :: path) leaf

variable {inherited : Inherited}

/-- What a path of the entity reads as. -/
def follow (inherited : Inherited) (entity : Member) (path : List String) : Member :=
  path.foldl (Member.get inherited) entity

/-- No value that the entity has on the way along a path is falsy. -/
def Traversed (inherited : Inherited) (entity : Member) (path : List String) : Prop :=
  ∀ before, before <+: path → before ≠ path → (follow inherited entity before).truthy = true

theorem traversed_nil (inherited : Inherited) (entity : Member) : Traversed inherited entity [] := by
  intro before hbefore hne
  exact absurd (List.prefix_nil.mp hbefore) hne

theorem traversed_cons {entity : Member} {key : String} {path : List String} :
    Traversed inherited entity (key :: path) ↔
      entity.truthy = true ∧ Traversed inherited (entity.get inherited key) path := by
  constructor
  · intro htraversed
    refine ⟨htraversed [] List.nil_prefix (by simp), ?_⟩
    intro before hbefore hne
    exact htraversed (key :: before) (by simpa using hbefore) (by simpa using hne)
  · intro h before hbefore hne
    obtain ⟨htruthy, htraversed⟩ := h
    cases before with
    | nil => exact htruthy
    | cons first before =>
      obtain ⟨rfl, hrest⟩ := List.cons_prefix_cons.mp hbefore
      exact htraversed before hrest (by simpa using hne)

theorem anyUpdated_iff {entity : Member} {attributes : List (String × Value)} :
    anyUpdated inherited entity attributes = true ↔
      ∃ key field, (key, field) ∈ attributes ∧ hasValueChanged inherited (entity.get inherited key) field = true := by
  induction attributes with
  | nil => simp [anyUpdated]
  | cons entry rest ih =>
    obtain ⟨key, field⟩ := entry
    rw [anyUpdated, Bool.or_eq_true, ih]
    constructor
    · intro h
      obtain hfirst | ⟨other, inner, hmem, hchanged⟩ := h
      · exact ⟨key, field, by simp, hfirst⟩
      · exact ⟨other, inner, by simp [hmem], hchanged⟩
    · intro h
      obtain ⟨other, inner, hmem, hchanged⟩ := h
      obtain heq | hmem := List.mem_cons.mp hmem
      · cases heq
        exact Or.inl hchanged
      · exact Or.inr ⟨other, inner, hmem, hchanged⟩

theorem anyItemUpdated_eq (entity : Member) (index : Nat) (items : List Value) :
    anyItemUpdated inherited entity index items = anyUpdated inherited entity (numberedEntries index items) := by
  induction items generalizing index with
  | nil => simp [anyItemUpdated, numberedEntries, anyUpdated]
  | cons item rest ih => rw [anyItemUpdated, numberedEntries, anyUpdated, ih]

theorem snd_mem_of_mem_numberedEntries {key : String} {item : Value} {index : Nat} {items : List Value}
    (h : (key, item) ∈ numberedEntries index items) : item ∈ items := by
  induction items generalizing index with
  | nil => cases h
  | cons first rest ih =>
    rw [numberedEntries, List.mem_cons] at h
    obtain heq | hrest := h
    · cases heq
      exact List.mem_cons_self
    · exact List.mem_cons_of_mem first (ih hrest)

/-- Some path of a field ends in a value that the entity differs from, and that
is reached without meeting a falsy value of the entity. -/
def Differs (inherited : Inherited) (entity : Member) (input : Value) : Prop :=
  ∃ path leaf, Ends input path leaf ∧ strictEquals leaf (follow inherited entity path) = false ∧
    Traversed inherited entity path

theorem differs_of_entry {entity : Member} {input inner : Value} {key : String} (hentry : (key, inner) ∈ input.entries)
    (htruthy : entity.truthy = true) (h : Differs inherited (entity.get inherited key) inner) :
    Differs inherited entity input := by
  obtain ⟨path, leaf, hends, hdiffers, htraversed⟩ := h
  exact ⟨key :: path, leaf, .under hentry hends, hdiffers, traversed_cons.mpr ⟨htruthy, htraversed⟩⟩

/-- Of a container, what differs stands below one of its entries. -/
theorem differs_iff {entity : Member} {input : Value} (hcontainer : ∀ leaf, ¬ Ends input [] leaf) :
    Differs inherited entity input ↔
      entity.truthy = true ∧
        ∃ key inner, (key, inner) ∈ input.entries ∧ Differs inherited (entity.get inherited key) inner := by
  constructor
  · intro h
    obtain ⟨path, leaf, hends, hdiffers, htraversed⟩ := h
    cases hends with
    | under hentry hends =>
      obtain ⟨htruthy, htraversed⟩ := traversed_cons.mp htraversed
      exact ⟨htruthy, _, _, hentry, _, leaf, hends, hdiffers, htraversed⟩
    | null => exact absurd .null (hcontainer _)
    | bool b => exact absurd (.bool b) (hcontainer _)
    | num n => exact absurd (.num n) (hcontainer _)
    | nonFinite n => exact absurd (.nonFinite n) (hcontainer _)
    | str s => exact absurd (.str s) (hcontainer _)
  · intro h
    obtain ⟨htruthy, key, inner, hentry, hdiffers⟩ := h
    exact differs_of_entry hentry htruthy hdiffers

theorem differs_leaf {entity : Member} {input : Value} (hleaf : Ends input [] input) (hentries : input.entries = []) :
    Differs inherited entity input ↔ strictEquals input entity = false := by
  constructor
  · intro h
    obtain ⟨path, leaf, hends, hdiffers, _⟩ := h
    cases hends with
    | under hentry hends =>
      rw [hentries] at hentry
      cases hentry
    | null | bool | num | nonFinite | str => exact hdiffers
  · intro hdiffers
    exact ⟨[], input, hleaf, hdiffers, traversed_nil inherited entity⟩

theorem not_differs (entity : Member) {input : Value} (hcontainer : ∀ leaf, ¬ Ends input [] leaf)
    (hentries : input.entries = []) : ¬ Differs inherited entity input := by
  intro h
  obtain ⟨_, key, inner, hentry, _⟩ := (differs_iff hcontainer).mp h
  rw [hentries] at hentry
  cases hentry

/-- A field has changed where one of its paths differs: by induction on the input. -/
theorem hasValueChanged_iff {entity : Member} {input : Value} :
    hasValueChanged inherited entity input = true ↔ Differs inherited entity input := by
  induction input generalizing entity with
  | undefined => simpa [hasValueChanged] using not_differs entity (by intro leaf h; cases h) rfl
  | null => simpa [hasValueChanged] using (differs_leaf .null rfl).symm
  | bool b => simpa [hasValueChanged] using (differs_leaf (.bool b) rfl).symm
  | num n => simpa [hasValueChanged] using (differs_leaf (.num n) rfl).symm
  | nonFinite n => simpa [hasValueChanged] using (differs_leaf (.nonFinite n) rfl).symm
  | str s => simpa [hasValueChanged] using (differs_leaf (.str s) rfl).symm
  | date time => simpa [hasValueChanged] using not_differs entity (by intro leaf h; cases h) rfl
  | objectId hex => simpa [hasValueChanged] using not_differs entity (by intro leaf h; cases h) rfl
  | arr items ih =>
    rw [differs_iff (by intro leaf h; cases h), hasValueChanged, Bool.and_eq_true, anyItemUpdated_eq, anyUpdated_iff]
    refine and_congr_right fun _ => exists_congr fun key => exists_congr fun item => and_congr_right fun hentry => ?_
    exact ih item (snd_mem_of_mem_numberedEntries hentry)
  | obj fields ih =>
    rw [differs_iff (by intro leaf h; cases h), hasValueChanged, Bool.and_eq_true, anyUpdated_iff]
    refine and_congr_right fun _ => exists_congr fun key => exists_congr fun field => and_congr_right fun hentry => ?_
    exact ih (key, field) hentry

/-- An update is due exactly where a path of the input ends in a value other than what
the path of the entity reads as, nothing included, and the entity has only truthy values
on the way to it. -/
theorem mustUpdate_iff (inherited : Inherited) (entity : Value) (fields : List (String × Value)) :
    mustUpdate inherited entity (.obj fields) = true ↔
      ∃ path leaf, Ends (.obj fields) path leaf ∧ strictEquals leaf (follow inherited (.value entity) path) = false ∧
        ∀ before, before <+: path → before ≠ path → (follow inherited (.value entity) before).truthy = true := by
  have hchanged : mustUpdate inherited entity (.obj fields) =
      hasValueChanged inherited (.value entity) (.obj fields) := by
    rw [mustUpdate, hasValueChanged, Member.truthy]
  rw [hchanged]
  exact hasValueChanged_iff

/-- A nested input of which the entity has nothing is no reason to update. -/
theorem not_mustUpdate_of_absent_object : ¬ ∀ (entity : Value) (fields : List (String × Value)),
    mustUpdate .nothing entity (.obj fields) = true ↔
      ∃ path leaf, Ends (.obj fields) path leaf ∧ strictEquals leaf (follow .nothing (.value entity) path) = false := by
  intro h
  have hends : Ends (.obj [("details", .obj [("theme", .str "DARK")])]) ["details", "theme"] (.str "DARK") :=
    .under List.mem_cons_self (.under List.mem_cons_self (.str "DARK"))
  have hmust := (h (.obj []) [("details", .obj [("theme", .str "DARK")])]).mpr ⟨_, _, hends, rfl⟩
  cases hmust

end node_backend.user_strategy

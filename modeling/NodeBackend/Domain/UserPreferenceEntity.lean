import NodeBackend.Core.Exceptions

namespace node_backend.user_preference_entity

open js
open node_backend.exceptions

inductive ThemesEnum
  | default
  | light
  | dark
  deriving DecidableEq, Repr

def ThemesEnum.text : ThemesEnum → String
  | default => "DEFAULT"
  | light => "LIGHT"
  | dark => "DARK"

/-- getObjValues of the enumeration. -/
def themeValues : List ThemesEnum :=
  [.default, .light, .dark]

/-- A row or an input as the constructor reads it, with what is undefined or null
left out. `user` is the identifier of a user that was loaded with the row. -/
structure PreferenceValues where
  id : Option String := none
  userId : Option String := none
  user : Option String := none
  imagePath : Option String := none
  defaultTheme : Option String := none
  createdAt : Option Time := none
  updatedAt : Option Time := none
  deletedAt : Option Time := none

structure UserPreferenceEntity where
  id : Option String
  userId : Option String
  imagePath : Option String
  defaultTheme : Option ThemesEnum
  createdAt : Time
  updatedAt : Option Time
  deletedAt : Option Time

def invalidTheme (theme : String) : ErrorInterface where
  name := some "Error"
  message := "Invalid theme value: " ++ (theme ++ (". Valid values are: " ++
    String.intercalate ", " (themeValues.map ThemesEnum.text)))

/-- The theme that setDefaultTheme stores, or the error it throws. -/
def setDefaultTheme (theme : String) : Except ErrorInterface ThemesEnum :=
  match themeValues.find? fun value => value.text == theme with
  | some value => .ok value
  | none => .error (invalidTheme theme)

/-- AbstractEntity.getDate of a Date or of nothing. -/
def dateOrNow (now : Time) (date : Option Time) : Time :=
  date.getD now

/-- The constructor, which throws for a text that is no theme. -/
def construct (now : Time) (dataValues : PreferenceValues) : Except ErrorInterface UserPreferenceEntity := do
  let defaultTheme ← dataValues.defaultTheme.mapM setDefaultTheme
  return {
    id := dataValues.id
    userId := dataValues.userId.or dataValues.user
    imagePath := dataValues.imagePath
    defaultTheme := defaultTheme
    createdAt := dateOrNow now dataValues.createdAt
    updatedAt := dataValues.updatedAt
    deletedAt := dataValues.deletedAt }

def UserPreferenceEntity.setUserId (entity : UserPreferenceEntity) (userId : String) : UserPreferenceEntity :=
  if userId.length < 1 then entity else { entity with userId := some userId }

/-- A field that may be undefined. -/
def optionalText (text : Option String) : Value :=
  text.elim .undefined .str

def optionalDate (date : Option Time) : Value :=
  date.elim .undefined fun time => .date (some time)

def UserPreferenceEntity.getAttributes (entity : UserPreferenceEntity) : Value :=
  .obj [
    ("id", optionalText entity.id),
    ("userId", optionalText entity.userId),
    ("imagePath", optionalText entity.imagePath),
    ("defaultTheme", optionalText (entity.defaultTheme.map ThemesEnum.text)),
    ("createdAt", .date (some entity.createdAt)),
    ("updatedAt", optionalDate entity.updatedAt),
    ("deletedAt", optionalDate entity.deletedAt)]

theorem UserPreferenceEntity.setUserId_of_ne (entity : UserPreferenceEntity) {userId : String} (h : userId ≠ "") :
    entity.setUserId userId = { entity with userId := some userId } := by
  unfold UserPreferenceEntity.setUserId
  rw [if_neg]
  intro hlength
  exact h (String.length_eq_zero_iff.mp (by omega))

theorem setDefaultTheme_text (theme : ThemesEnum) : setDefaultTheme theme.text = .ok theme := by
  cases theme <;> rfl

/-- The texts that setDefaultTheme takes. -/
def IsTheme (text : String) : Prop :=
  ∃ theme : ThemesEnum, theme.text = text

/-- Only a text that is no theme keeps an entity from being built. -/
theorem exists_construct (now : Time) (dataValues : PreferenceValues)
    (h : ∀ text ∈ dataValues.defaultTheme, IsTheme text) : ∃ entity, construct now dataValues = .ok entity := by
  unfold construct
  cases htheme : dataValues.defaultTheme with
  | none => exact ⟨_, rfl⟩
  | some text =>
    obtain ⟨theme, rfl⟩ := h text (by simp [htheme])
    rw [Option.mapM_some, setDefaultTheme_text]
    exact ⟨_, rfl⟩

theorem construct_deletedAt {now : Time} {dataValues : PreferenceValues} {entity : UserPreferenceEntity}
    (h : construct now dataValues = .ok entity) : entity.deletedAt = dataValues.deletedAt := by
  unfold construct at h
  cases htheme : dataValues.defaultTheme.mapM setDefaultTheme with
  | error e =>
    rw [htheme] at h
    cases h
  | ok defaultTheme =>
    rw [htheme] at h
    cases h
    rfl

theorem isTheme_of_construct {now : Time} {dataValues : PreferenceValues} {entity : UserPreferenceEntity}
    (h : construct now dataValues = .ok entity) : ∀ text ∈ dataValues.defaultTheme, IsTheme text := by
  intro text htext
  unfold construct at h
  rw [Option.mem_def.mp htext, Option.mapM_some] at h
  unfold setDefaultTheme at h
  cases hfound : themeValues.find? fun value => value.text == text with
  | none =>
    rw [hfound] at h
    cases h
  | some theme => exact ⟨theme, by simpa using List.find?_some hfound⟩

end node_backend.user_preference_entity

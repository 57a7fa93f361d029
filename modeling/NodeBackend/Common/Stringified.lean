import NodeBackend.Common.Stringifier

namespace node_backend.stringifier

open js graph Relation

variable {functions : Functions} {h : Heap} {returnUndefined : Bool} {a : ℕ} {data : Slot} {fallback : String}

theorem mem_range_of_entries (h : Heap) (address : ℕ) (entry : String × Slot)
    (hentry : entry ∈ (h.cell address).entries) :
    address ∈ Finset.range h.length := by
  rw [Finset.mem_range]
  by_contra hge
  rw [Heap.cell_of_le (not_lt.mp hge)] at hentry
  cases hentry

theorem card_range_lt (h : Heap) : (Finset.range h.length).card < h.length + 1 := by
  rw [Finset.card_range]
  omega

/-- String does not throw: one of the methods that it tries gives a primitive value, and
that is no symbol. -/
def Convertible (functions : Functions) (this : Slot) (own : Prototype × Fields) (inherited : String) : Prop :=
  ∃ primitive, (∀ id description, primitive ≠ .symbol id description) ∧
    (tryMethod functions this own "toString" (some (.str inherited)) = .ok (some primitive) ∨
      tryMethod functions this own "toString" (some (.str inherited)) = .ok none ∧
        tryMethod functions this own "valueOf" none = .ok (some primitive))

theorem primitiveText_ok_iff (primitive : Slot) :
    (∃ text, primitiveText primitive = .ok text) ↔ ∀ id description, primitive ≠ .symbol id description := by
  cases primitive <;> simp [primitiveText]

theorem stringOf_ok_iff {this : Slot} {own : Prototype × Fields} {inherited : String} :
    (∃ text, stringOf functions this own inherited = .ok text) ↔ Convertible functions this own inherited := by
  rw [stringOf, Convertible]
  cases tryMethod functions this own "toString" (some (.str inherited)) with
  | error thrown => simp
  | ok first =>
    cases first with
    | some primitive => simp [primitiveText_ok_iff]
    | none =>
      cases tryMethod functions this own "valueOf" none with
      | error thrown => simp
      | ok second =>
        cases second with
        | some primitive => simp [primitiveText_ok_iff]
        | none => simp

/-- An error, down in what JSON.stringify goes through. -/
def Flawed (functions : Functions) (h : Heap) (root : ℕ) : Prop :=
  ∃ address thrown, ReflTransGen (jsonTraversal functions h).Leads root address ∧
    (jsonTraversal functions h).Fails address thrown

/-- Going down always to the first entry that has a flaw or a cycle below, one comes back to
an object passed before, or to a `toJSON` whose error has `circular` in its message. -/
def CycleFirst (functions : Functions) (h : Heap) (root : ℕ) : Prop :=
  ∃ thrown, (jsonTraversal functions h).EndsIn circularStructure root thrown ∧ thrown.circular = .ok true

/-- Going down so one comes to a `toJSON` whose error cannot be asked about its message. -/
def Unreadable (functions : Functions) (h : Heap) (root : ℕ) : Prop :=
  ∃ thrown again, (jsonTraversal functions h).EndsIn circularStructure root thrown ∧ thrown.circular = .error again

/-- A value for which not both passes of JSON.stringify throw, and an error of the first
one can be asked about its message. -/
def Serializable (functions : Functions) (h : Heap) (data : Slot) : Prop :=
  (∀ thrown, classify functions h ("", data) = .error thrown → thrown.circular = .ok false) ∧
    ∀ root, classify functions h ("", data) = .ok (.inr root) →
      ¬ Unreadable functions h root ∧ ¬ (CycleFirst functions h root ∧ Flawed functions h root)

theorem descend_error {root : ℕ} {thrown : Thrown} :
    (jsonTraversal functions h).descend circularStructure .other (assemble h) (h.length + 1) [] root = .error thrown ↔
      (jsonTraversal functions h).EndsIn circularStructure root thrown :=
  Traversal.descend_error_iff (mem_range_of_entries h) (card_range_lt h)

theorem explore_ok {root : ℕ} :
    (∃ result, (jsonTraversal functions h).explore (some (.str "{Circular Reference}")) .other (assemble h)
      (h.length + 1) [] root = .ok result) ↔ ¬ Flawed functions h root := by
  rw [Traversal.explore_ok_iff (mem_range_of_entries h) (card_range_lt h), Flawed]
  push Not
  exact ⟨fun hnone address thrown hreach => hnone address hreach thrown,
    fun hnone address hreach thrown => hnone address thrown hreach⟩

/-- The first pass throws what its first troubles end in. -/
theorem stringify_error_iff {thrown : Thrown} :
    stringify functions h data = .error thrown ↔ classify functions h ("", data) = .error thrown ∨
      ∃ root, classify functions h ("", data) = .ok (.inr root) ∧
        (jsonTraversal functions h).EndsIn circularStructure root thrown := by
  rw [stringify]
  cases classify functions h ("", data) with
  | error first => simp
  | ok found =>
    cases found with
    | inl value => simp
    | inr root => simp [Traversal.map_error_iff, descend_error]

/-- The second pass throws where there is a flaw at all. -/
theorem stringifyOnce_ok_iff :
    (∃ text, stringifyOnce functions h data = .ok text) ↔ (∀ thrown, classify functions h ("", data) ≠ .error thrown) ∧
      ∀ root, classify functions h ("", data) = .ok (.inr root) → ¬ Flawed functions h root := by
  rw [stringifyOnce]
  cases classify functions h ("", data) with
  | error first => simp
  | ok found =>
    cases found with
    | inl value => simp
    | inr root =>
      simp only [Traversal.map_ok_iff, explore_ok]
      simp

theorem parseObjectToString_ok_iff_passes :
    (∃ text, parseObjectToString functions h data fallback = .ok text) ↔
      ∀ thrown, stringify functions h data = .error thrown → thrown.circular = .ok false ∨
        thrown.circular = .ok true ∧ ∃ text, stringifyOnce functions h data = .ok text := by
  rw [parseObjectToString]
  cases stringify functions h data with
  | ok text => simp
  | error thrown =>
    cases hcircular : thrown.circular with
    | error again => simp [Except.bind, hcircular]
    | ok circular => cases circular <;> simp [Except.bind, hcircular]

/-- The two passes together throw exactly where the error of the first one cannot be asked,
or a cycle comes first and a flaw comes at all. -/
theorem parseObjectToString_ok_iff :
    (∃ text, parseObjectToString functions h data fallback = .ok text) ↔ Serializable functions h data := by
  rw [parseObjectToString_ok_iff_passes, stringifyOnce_ok_iff]
  constructor
  · intro hpasses
    constructor
    · intro thrown hclass
      obtain hcircular | ⟨_, hnever, _⟩ := hpasses thrown (stringify_error_iff.mpr (Or.inl hclass))
      · exact hcircular
      · exact absurd hclass (hnever thrown)
    · intro root hclass
      constructor
      · intro hunreadable
        obtain ⟨thrown, again, hends, hcircular⟩ := hunreadable
        have hpass := hpasses thrown (stringify_error_iff.mpr (Or.inr ⟨root, hclass, hends⟩))
        simp [hcircular] at hpass
      · intro hboth
        obtain ⟨⟨thrown, hends, hcircular⟩, hflawed⟩ := hboth
        have hpass := hpasses thrown (stringify_error_iff.mpr (Or.inr ⟨root, hclass, hends⟩))
        obtain hfalse | ⟨_, _, hclear⟩ := hpass
        · simp [hcircular] at hfalse
        · exact hclear root hclass hflawed
  · intro hserializable thrown herror
    obtain ⟨hthrows, hfirst⟩ := hserializable
    obtain hclass | ⟨root, hclass, hends⟩ := stringify_error_iff.mp herror
    · exact Or.inl (hthrows thrown hclass)
    · obtain ⟨hreadable, hpasses⟩ := hfirst root hclass
      cases hcircular : thrown.circular with
      | error again => exact absurd ⟨thrown, again, hends, hcircular⟩ hreadable
      | ok circular =>
        cases circular with
        | false => exact Or.inl rfl
        | true =>
          refine Or.inr ⟨rfl, by simp [hclass], ?_⟩
          intro other hother hflawed
          rw [hclass] at hother
          cases hother
          exact hpasses ⟨⟨thrown, hends, hcircular⟩, hflawed⟩

theorem assemble_isSome (address : ℕ) (members : List ((String × Slot) × Option json.Value)) :
    (assemble h address members).isSome = true := by
  rw [assemble]
  split <;> rfl

/-- A pass that comes through gives a text, unless nothing stands for the data. -/
theorem stringify_isSome {text : Option String} (hclass : classify functions h ("", data) ≠ .ok (.inl none))
    (hrun : stringify functions h data = .ok text) : text.isSome = true := by
  rw [stringify] at hrun
  cases hfound : classify functions h ("", data) with
  | error thrown =>
    rw [hfound] at hrun
    cases hrun
  | ok found =>
    rw [hfound] at hrun
    cases found with
    | inl value =>
      cases hrun
      cases value with
      | none => exact absurd hfound hclass
      | some value => rfl
    | inr root =>
      obtain ⟨value, hdescend, rfl⟩ := Traversal.map_eq_ok_iff.mp hrun
      rw [Traversal.descend, if_neg (by simp)] at hdescend
      obtain ⟨members, _, rfl⟩ := Traversal.map_eq_ok_iff.mp hdescend
      rw [Option.isSome_map]
      exact assemble_isSome root members

theorem stringifyOnce_isSome {text : Option String} (hclass : classify functions h ("", data) ≠ .ok (.inl none))
    (hrun : stringifyOnce functions h data = .ok text) : text.isSome = true := by
  rw [stringifyOnce] at hrun
  cases hfound : classify functions h ("", data) with
  | error thrown =>
    rw [hfound] at hrun
    cases hrun
  | ok found =>
    rw [hfound] at hrun
    cases found with
    | inl value =>
      cases hrun
      cases value with
      | none => exact absurd hfound hclass
      | some value => rfl
    | inr root =>
      obtain ⟨result, hexplore, rfl⟩ := Traversal.map_eq_ok_iff.mp hrun
      rw [Traversal.explore, if_neg (by simp)] at hexplore
      obtain ⟨members, _, rfl⟩ := Traversal.map_eq_ok_iff.mp hexplore
      rw [Option.isSome_map]
      exact assemble_isSome root members.1

/-- Where neither pass throws, the result is a text unless nothing stands for the data. -/
theorem parseObjectToString_text_iff :
    (∃ text, parseObjectToString functions h data fallback = .ok (some text)) ↔
      Serializable functions h data ∧ classify functions h ("", data) ≠ .ok (.inl none) := by
  constructor
  · intro htext
    obtain ⟨text, htext⟩ := htext
    refine ⟨parseObjectToString_ok_iff.mp ⟨_, htext⟩, ?_⟩
    intro hclass
    rw [parseObjectToString, stringify, hclass] at htext
    cases htext
  · intro h
    obtain ⟨hserializable, hclass⟩ := h
    have hruns : ∃ text, parseObjectToString functions h data fallback = .ok text :=
      parseObjectToString_ok_iff.mpr hserializable
    obtain ⟨result, hresult⟩ := hruns
    suffices hsome : result.isSome = true by
      obtain ⟨text, rfl⟩ := Option.isSome_iff_exists.mp hsome
      exact ⟨text, hresult⟩
    rw [parseObjectToString] at hresult
    cases hfirst : stringify functions h data with
    | ok text =>
      rw [hfirst] at hresult
      cases hresult
      exact stringify_isSome hclass hfirst
    | error thrown =>
      rw [hfirst] at hresult
      dsimp only at hresult
      cases hcircular : thrown.circular with
      | error again =>
        rw [hcircular] at hresult
        cases hresult
      | ok circular =>
        rw [hcircular] at hresult
        cases circular with
        | false =>
          cases hresult
          rfl
        | true => exact stringifyOnce_isSome hclass hresult

/-- A value that is no array for which toString does not throw. -/
def Shows (functions : Functions) (h : Heap) : Slot → Prop
  | .ref address =>
    match h.cell address with
    | .error name message _ => (∃ text, name = .ok text) ∧ ∃ text, message = .ok text
    | cell =>
      Convertible functions (.ref address) cell.own "[object Object]" ∧ Serializable functions h (.ref address)
  | .function id source => Convertible functions (.function id source) (functions.own id) source
  | _ => True

/-- An array directly inside another. -/
def Nests (h : Heap) (outer inner : ℕ) : Prop :=
  h.Holds outer inner ∧ (h.cell inner).isArray = true

/-- A value that toString has a text for: all that is shown of it does not throw, and a
plain object that is shown alone has a text in JSON. -/
def Stringifies (functions : Functions) (h : Heap) : Slot → Prop
  | .ref address =>
    match h.cell address with
    | .arr _ => ∀ array, ReflTransGen (Nests h) address array → ∀ element ∈ (h.cell array).slots,
        (∀ inner, element = .ref inner → (h.cell inner).isArray = false) → Shows functions h element
    | .obj _ _ => Shows functions h (.ref address) ∧ classify functions h ("", .ref address) ≠ .ok (.inl none)
    | .error _ _ _ => Shows functions h (.ref address)
  | value => Shows functions h value

theorem bind_parse_ok_iff {converted : Except Thrown String} :
    (∃ text, converted.bind (fun fallback => parseObjectToString functions h data fallback) = .ok text) ↔
      (∃ text, converted = .ok text) ∧ Serializable functions h data := by
  cases converted with
  | error thrown => simp [Except.bind]
  | ok fallback => simp [Except.bind, parseObjectToString_ok_iff]

theorem bind_parse_text_iff {converted : Except Thrown String} :
    (∃ text, converted.bind (fun fallback => parseObjectToString functions h data fallback) = .ok (some text)) ↔
      (∃ text, converted = .ok text) ∧ Serializable functions h data ∧
        classify functions h ("", data) ≠ .ok (.inl none) := by
  cases converted with
  | error thrown => simp [Except.bind]
  | ok fallback => simp [Except.bind, parseObjectToString_text_iff]

theorem elementToString_ok_iff :
    (∃ text, elementToString functions h returnUndefined data = .ok text) ↔ Shows functions h data := by
  cases data with
  | ref address =>
    rw [elementToString, Shows]
    cases h.cell address with
    | error name message fields =>
      cases name with
      | error thrown => simp [Except.bind]
      | ok name => simp [Except.bind, Traversal.map_ok_iff]
    | arr items => exact bind_parse_ok_iff.trans (and_congr_left' stringOf_ok_iff)
    | obj prototype fields => exact bind_parse_ok_iff.trans (and_congr_left' stringOf_ok_iff)
  | function id source =>
    rw [elementToString, Shows, Traversal.map_ok_iff]
    exact stringOf_ok_iff
  | _ => simp [elementToString, Shows]

/-- What is no plain object is shown by a text where it is shown at all. -/
theorem elementToString_isSome {text : Option String}
    (hleaf : ∀ address, data = .ref address → ∃ name message fields, h.cell address = .error name message fields)
    (hshow : elementToString functions h returnUndefined data = .ok text) : text.isSome = true := by
  cases data with
  | ref address =>
    obtain ⟨name, message, fields, hcell⟩ := hleaf address rfl
    rw [elementToString, hcell] at hshow
    cases name with
    | error thrown => cases hshow
    | ok name =>
      obtain ⟨message, _, rfl⟩ := Traversal.map_eq_ok_iff.mp hshow
      rfl
  | function id source =>
    obtain ⟨source, _, rfl⟩ := Traversal.map_eq_ok_iff.mp hshow
    rfl
  | _ =>
    cases hshow
    rfl

theorem exists_some_iff {shown : Except Thrown (Option String)}
    (hsome : ∀ text, shown = .ok text → text.isSome = true) :
    (∃ text, shown = .ok (some text)) ↔ ∃ text, shown = .ok text := by
  constructor
  · intro h
    obtain ⟨text, htext⟩ := h
    exact ⟨some text, htext⟩
  · intro h
    obtain ⟨result, hresult⟩ := h
    obtain ⟨text, rfl⟩ := Option.isSome_iff_exists.mp (hsome result hresult)
    exact ⟨text, hresult⟩

section arrays

variable {print : Slot → Except Thrown (Option String)}

theorem mem_range_of_slots (h : Heap) (array : ℕ) (element : Slot) (helement : element ∈ (h.cell array).slots) :
    array ∈ Finset.range h.length := by
  rw [Finset.mem_range]
  by_contra hge
  rw [Heap.cell_of_le (not_lt.mp hge)] at helement
  cases helement

/-- How the elements of an array are gone through. -/
theorem arrayTraversal_classify (h : Heap) (print : Slot → Except Thrown (Option String)) (element : Slot) :
    (∃ inner, element = .ref inner ∧ (h.cell inner).isArray = true ∧
      (arrayTraversal h print).classify element = .ok (.inr inner)) ∨
    (∀ inner, element = .ref inner → (h.cell inner).isArray = false) ∧
      (arrayTraversal h print).classify element = (print element).map fun text => .inl (.text text) := by
  cases element with
  | ref address =>
    cases harray : (h.cell address).isArray with
    | true => exact Or.inl ⟨address, rfl, harray, by simp [arrayTraversal, harray]⟩
    | false => exact Or.inr ⟨fun inner heq => by cases heq; exact harray, by simp [arrayTraversal, harray]⟩
  | _ => exact Or.inr ⟨by simp, rfl⟩

theorem arrayTraversal_leads_iff {outer inner : ℕ} :
    (arrayTraversal h print).Leads outer inner ↔ Nests h outer inner := by
  constructor
  · intro hleads
    obtain ⟨element, helement, hclass⟩ := hleads
    obtain ⟨found, rfl, harray, hfound⟩ | ⟨_, hvalue⟩ := arrayTraversal_classify h print element
    · rw [hfound] at hclass
      cases hclass
      exact ⟨helement, harray⟩
    · rw [hvalue] at hclass
      cases hprint : print element <;> simp [hprint, Except.map] at hclass
  · intro hnests
    refine ⟨.ref inner, hnests.1, ?_⟩
    simp [arrayTraversal, hnests.2]

theorem arrayTraversal_fails_iff {array : ℕ} {thrown : Thrown} :
    (arrayTraversal h print).Fails array thrown ↔ ∃ element ∈ (h.cell array).slots,
      (∀ inner, element = .ref inner → (h.cell inner).isArray = false) ∧ print element = .error thrown := by
  apply exists_congr
  intro element
  apply and_congr_right
  intro _
  obtain ⟨inner, rfl, harray, hclass⟩ | ⟨helement, hclass⟩ := arrayTraversal_classify h print element
  · simp [hclass, harray]
  · rw [hclass, Traversal.map_error_iff]
    exact ⟨fun hprint => ⟨helement, hprint⟩, fun h => h.2⟩

/-- An array is shown exactly if all elements that it shows are. -/
theorem parseArrayToString_ok_iff :
    (∃ shown, parseArrayToString h print a = .ok shown) ↔
      ∀ array, ReflTransGen (Nests h) a array → ∀ element ∈ (h.cell array).slots,
        (∀ inner, element = .ref inner → (h.cell inner).isArray = false) → ∃ text, print element = .ok text := by
  have hleads : (arrayTraversal h print).Leads = Nests h := by
    funext outer inner
    exact propext arrayTraversal_leads_iff
  rw [parseArrayToString, Traversal.map_ok_iff,
    Traversal.explore_ok_iff (mem_range_of_slots h) (card_range_lt h), hleads]
  constructor
  · intro hnone array hreach element hmem helement
    cases hprint : print element with
    | ok text => exact ⟨text, rfl⟩
    | error thrown =>
      exact absurd (arrayTraversal_fails_iff.mpr ⟨element, hmem, helement, hprint⟩) (hnone array hreach thrown)
  · intro hprints array hreach thrown hfails
    obtain ⟨element, hmem, helement, hprint⟩ := arrayTraversal_fails_iff.mp hfails
    obtain ⟨text, htext⟩ := hprints array hreach element hmem helement
    rw [hprint] at htext
    cases htext

end arrays

/-- An array is shown exactly if all that is shown of it does not throw. -/
theorem shown_iff (functions : Functions) (returnUndefined : Bool) (harray : (h.cell a).isArray = true) :
    (∃ shown, parseArrayToString h (elementToString functions h returnUndefined) a = .ok shown) ↔
      Stringifies functions h (.ref a) := by
  cases hcell : h.cell a with
  | arr items => simp only [parseArrayToString_ok_iff, elementToString_ok_iff, Stringifies, hcell]
  | obj prototype fields => rw [hcell] at harray; cases harray
  | error name message fields => rw [hcell] at harray; cases harray

/-- The text of an array is what is shown of it. -/
theorem toString_array_iff (harray : (h.cell a).isArray = true) (text : String) :
    toString functions h returnUndefined (.ref a) = .ok (some text) ↔
      ∃ shown, parseArrayToString h (elementToString functions h returnUndefined) a = .ok shown ∧
        shown.render = text := by
  rw [toString, if_pos harray, Traversal.map_eq_ok_iff]
  simp

/-- The stringifier gives a text exactly where all that it shows does not throw, and JSON
has something for a plain object. -/
theorem toString_text_iff (functions : Functions) (h : Heap) (returnUndefined : Bool) (data : Slot) :
    (∃ text, toString functions h returnUndefined data = .ok (some text)) ↔ Stringifies functions h data := by
  cases data with
  | ref address =>
    cases hcell : h.cell address with
    | arr items =>
      have harray : (h.cell address).isArray = true := by
        rw [hcell]
        rfl
      rw [← shown_iff functions returnUndefined harray]
      simp only [toString_array_iff harray]
      constructor
      · intro htext
        obtain ⟨_, shown, hshown, _⟩ := htext
        exact ⟨shown, hshown⟩
      · intro hshown
        obtain ⟨shown, hshown⟩ := hshown
        exact ⟨shown.render, shown, hshown, rfl⟩
    | obj prototype fields =>
      rw [toString, hcell, if_neg (by simp [Cell.isArray]), elementToString, Stringifies, Shows, hcell]
      dsimp only
      rw [bind_parse_text_iff, stringOf_ok_iff, and_assoc]
    | error name message fields =>
      have hleaf : ∀ inner, Slot.ref address = .ref inner → ∃ name message fields,
          h.cell inner = .error name message fields := by
        intro inner heq
        cases heq
        exact ⟨name, message, fields, hcell⟩
      rw [toString, hcell, if_neg (by simp [Cell.isArray]), exists_some_iff fun _ => elementToString_isSome hleaf,
        elementToString_ok_iff, Stringifies, hcell]
  | _ =>
    rw [toString, exists_some_iff fun _ => elementToString_isSome (by simp), elementToString_ok_iff, Stringifies]
    all_goals simp

/-- Functions that return nothing and have no fields. -/
def inert : Functions where
  call _ _ _ := .ok .undefined
  own _ := (.usual, .empty)

/-- An object inside itself, with a bigint behind. -/
def selfBeforeBigint : Heap :=
  [.obj .usual ⟨[("self", .ref 0), ("n", .bigint 1)], by simp⟩]

/-- The first pass meets the cycle, and the second one the bigint. -/
theorem toString_throws :
    ¬ ∀ (functions : Functions) (h : Heap) (returnUndefined : Bool) (data : Slot),
      ∃ text, toString functions h returnUndefined data = .ok (some text) := by
  intro hclaim
  obtain ⟨text, htext⟩ := hclaim inert selfBeforeBigint false (.ref 0)
  have hthrows : toString inert selfBeforeBigint false (.ref 0) =
      .error bigintSerialized := rfl
  rw [hthrows] at htext
  cases htext

end node_backend.stringifier

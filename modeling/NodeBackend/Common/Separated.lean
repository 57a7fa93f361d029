import NodeBackend.Common.Separate
import NodeBackend.Graph.Covering
import NodeBackend.Json.RoundTrip

namespace js

/-- No function returns an object that is not there. -/
def Functions.Return (functions : Functions) (h : Heap) : Prop :=
  ∀ id this arguments address, functions.call id this arguments = .ok (.ref address) → address < h.length

end js

namespace node_backend.stringifier

open js graph Relation

variable {functions : Functions} {h t : Heap} {origin : ℕ → ℕ} {returnUndefined : Bool} {a b : ℕ} {data : Slot}

def renameEntry (origin : ℕ → ℕ) (entry : String × Slot) : String × Slot :=
  (entry.1, entry.2.rename origin)

/-- Objects are told by their addresses, and arrays may be copies. -/
def Told (h t : Heap) (slot : Slot) : Prop :=
  ∀ address, slot = .ref address → (t.cell address).isArray = false → address < h.length

theorem field_of_isArray {key : String} (harray : (h.cell a).isArray = true) :
    (Slot.ref a).field functions h key = none := by
  rw [Slot.field]
  cases hcell : h.cell a with
  | arr items => rfl
  | obj prototype fields =>
    rw [hcell] at harray
    cases harray
  | error name message fields =>
    rw [hcell] at harray
    cases harray

/-- How JSON.stringify comes to an array: at a place of an object that it goes into, or by
what a `toJSON` returned, which may be what it starts from. -/
inductive Meets (functions : Functions) (h : Heap) (root array : ℕ) : Option (ℕ × ℕ) → Prop
  | held {holder place : ℕ} (hreach : ReflTransGen (jsonTraversal functions h).Leads root holder)
      (hat : At h holder place array) : Meets functions h root array (some (holder, place))
  | first (hroot : root = array) : Meets functions h root array none
  | returned {holder : ℕ} {entry : String × Slot}
      (hreach : ReflTransGen (jsonTraversal functions h).Leads root holder) (hentry : entry ∈ (h.cell holder).entries)
      (hother : entry.2 ≠ .ref array) (hclass : classify functions h entry = .ok (.inr array)) :
      Meets functions h root array none

/-- JSON.stringify comes to no array in two ways. -/
def MetOnce (functions : Functions) (h : Heap) (root : ℕ) : Prop :=
  ∀ array way way', (h.cell array).isArray = true → Meets functions h root array way →
    Meets functions h root array way' → way = way'

section members

variable {members others : List ((String × Slot) × Option json.Value)}
  {member other : (String × Slot) × Option json.Value}

/-- A member of an object in JSON: what stands for its entry, or what is made of the object
that it is. -/
abbrev Member (functions : Functions) (h : Heap) (member : (String × Slot) × Option json.Value) : Prop :=
  (jsonTraversal functions h).Fits (fun value => value.isSome = true) member

theorem Member.compare (hmember : Member functions h member) (hother : Member functions h other)
    (hentry : member.1 = other.1) : member = other ∨ member.2.isSome = true ∧ other.2.isSome = true := by
  obtain hvalue | ⟨⟨inner, hclass⟩, hmade⟩ := hmember
  · obtain hvalue' | ⟨⟨inner, hclass⟩, _⟩ := hother
    · rw [hentry, hvalue'] at hvalue
      exact Or.inl (Prod.ext hentry (Sum.inl.inj (Except.ok.inj hvalue)).symm)
    · rw [hentry, hclass] at hvalue
      cases hvalue
  · obtain hvalue' | ⟨_, hmade'⟩ := hother
    · rw [hentry, hvalue'] at hclass
      cases hclass
    · exact Or.inr ⟨hmade, hmade'⟩

theorem eq_of_items (hmembers : ∀ member ∈ members, Member functions h member)
    (hothers : ∀ other ∈ others, Member functions h other) (hentries : members.map Prod.fst = others.map Prod.fst)
    (heq : (members.map fun member => member.2.getD .null) = others.map fun other => other.2.getD .null) :
    members = others := by
  induction members generalizing others with
  | nil => exact (List.map_eq_nil_iff.mp hentries.symm).symm
  | cons member rest ih =>
    cases others with
    | nil => cases hentries
    | cons other more =>
      rw [List.forall_mem_cons] at hmembers hothers
      obtain ⟨hentry, hentries⟩ := List.cons.inj hentries
      obtain ⟨hfirst, hrest⟩ := List.cons.inj heq
      rw [ih hmembers.2 hothers.2 hentries hrest]
      obtain rfl | ⟨hsome, hsome'⟩ := hmembers.1.compare hothers.1 hentry
      · rfl
      · obtain ⟨value, hvalue⟩ := Option.isSome_iff_exists.mp hsome
        obtain ⟨value', hvalue'⟩ := Option.isSome_iff_exists.mp hsome'
        change member.2.getD .null = other.2.getD .null at hfirst
        rw [hvalue, hvalue', Option.getD_some, Option.getD_some] at hfirst
        rw [show member = other from Prod.ext hentry (by rw [hvalue, hvalue', hfirst])]

theorem eq_of_fields (hmembers : ∀ member ∈ members, Member functions h member)
    (hothers : ∀ other ∈ others, Member functions h other) (hentries : members.map Prod.fst = others.map Prod.fst)
    (heq : (members.filterMap fun member => member.2.map fun value => (member.1.1, value)) =
      others.filterMap fun other => other.2.map fun value => (other.1.1, value)) : members = others := by
  induction members generalizing others with
  | nil => exact (List.map_eq_nil_iff.mp hentries.symm).symm
  | cons member rest ih =>
    cases others with
    | nil => cases hentries
    | cons other more =>
      rw [List.forall_mem_cons] at hmembers hothers
      obtain ⟨hentry, hrests⟩ := List.cons.inj hentries
      obtain rfl | ⟨hsome, hsome'⟩ := hmembers.1.compare hothers.1 hentry
      · congr 1
        apply ih hmembers.2 hothers.2 hrests
        cases hvalue : member.2 with
        | none => simpa [List.filterMap_cons, hvalue] using heq
        | some value => simpa [List.filterMap_cons, hvalue] using heq
      · obtain ⟨value, hvalue⟩ := Option.isSome_iff_exists.mp hsome
        obtain ⟨value', hvalue'⟩ := Option.isSome_iff_exists.mp hsome'
        rw [List.filterMap_cons_some (by rw [hvalue]; rfl), List.filterMap_cons_some (by rw [hvalue']; rfl)] at heq
        obtain ⟨hfirst, hrest⟩ := List.cons.inj heq
        rw [ih hmembers.2 hothers.2 hrests hrest]
        rw [show member = other from Prod.ext hentry (by rw [hvalue, hvalue', (Prod.mk.inj hfirst).2])]

/-- From what is assembled of an object its members can be told. -/
theorem legible_json (functions : Functions) (h : Heap) :
    (jsonTraversal functions h).Legible (assemble h) (some (.str "{Circular Reference}"))
      fun value => value.isSome = true where
  madeAgain := rfl
  made := assemble_isSome
  ne node members heq := by
    rw [assemble] at heq
    split at heq <;> cases heq
  inj node members others hentries hmembers hothers heq := by
    rw [assemble, assemble] at heq
    cases hcell : h.cell node with
    | arr items =>
      rw [hcell] at heq
      exact eq_of_items hmembers hothers hentries (json.Value.arr.inj (Option.some.inj heq))
    | obj prototype fields =>
      rw [hcell] at heq
      exact eq_of_fields hmembers hothers hentries (json.Value.obj.inj (Option.some.inj heq))
    | error name message fields =>
      rw [hcell] at heq
      exact eq_of_fields hmembers hothers hentries (json.Value.obj.inj (Option.some.inj heq))

end members

/-- A value that JSON can be parsed to, where there is one. -/
def Parses (value : Option json.Value) : Prop :=
  ∀ parsed, value = some parsed → parsed.KeysOnce

theorem parses_json (value : Slot) : Parses value.json := by
  intro parsed heq
  cases value <;> cases heq <;> constructor

theorem sublist_keys (members : List ((String × Slot) × Option json.Value)) :
    ((members.filterMap fun member => member.2.map fun value => (member.1.1, value)).map Prod.fst).Sublist
      ((members.map Prod.fst).map Prod.fst) := by
  induction members with
  | nil => exact .slnil
  | cons member rest ih =>
    cases hvalue : member.2 with
    | none =>
      rw [List.filterMap_cons_none (by rw [hvalue]; rfl)]
      exact ih.cons _
    | some value =>
      rw [List.filterMap_cons_some (by rw [hvalue]; rfl)]
      exact ih.cons_cons _

theorem parses_assemble (node : ℕ) (members : List ((String × Slot) × Option json.Value))
    (hentries : members.map Prod.fst = (h.cell node).entries) (hvalues : ∀ member ∈ members, Parses member.2) :
    Parses (assemble h node members) := by
  have hobject : ((members.map Prod.fst).map Prod.fst).Nodup → (json.Value.obj (members.filterMap fun member =>
      member.2.map fun value => (member.1.1, value))).KeysOnce := by
    intro hkeys
    rw [json.Value.keysOnce_obj_iff]
    constructor
    · exact hkeys.sublist (sublist_keys members)
    · intro field hfield
      obtain ⟨member, hmember, hmade⟩ := List.mem_filterMap.mp hfield
      obtain ⟨value, hvalue, rfl⟩ := Option.map_eq_some_iff.mp hmade
      exact hvalues member hmember value hvalue
  intro parsed heq
  rw [assemble] at heq
  cases hcell : h.cell node with
  | arr items =>
    rw [hcell] at heq
    cases heq
    rw [json.Value.keysOnce_arr_iff]
    intro item hitem
    obtain ⟨member, hmember, rfl⟩ := List.mem_map.mp hitem
    cases hvalue : member.2 with
    | none => constructor
    | some value => exact hvalues member hmember value hvalue
  | obj prototype fields =>
    rw [hcell] at heq
    cases heq
    apply hobject
    rw [hentries, hcell]
    exact fields.distinct
  | error name message fields =>
    rw [hcell] at heq
    cases heq
    apply hobject
    rw [hentries, hcell]
    exact fields.distinct

theorem parses_of_explore {fuel root : ℕ} {value : Option json.Value} {seen : List ℕ}
    (hrun : (jsonTraversal functions h).explore (some (.str "{Circular Reference}")) .other (assemble h) fuel [] root =
      .ok (value, seen)) : Parses value := by
  apply Traversal.holds_of_explore (Q := Parses) _ _ parses_assemble hrun
  · intro parsed heq
    cases heq
    exact .str _
  · intro node entry _ value hclass
    change classify functions h entry = _ at hclass
    rw [classify] at hclass
    split at hclass <;> cases hclass
    exact parses_json _

theorem stringify_option_inj {value' value : Option json.Value} (hvalue' : Parses value') (hvalue : Parses value)
    (heq : value'.map json.Value.stringify = value.map json.Value.stringify) : value' = value := by
  cases value' with
  | none =>
    cases value with
    | none => rfl
    | some value => cases heq
  | some value' =>
    cases value with
    | none => cases heq
    | some value =>
      rw [json.stringify_inj (hvalue' value' rfl) (hvalue value rfl) (Option.some.inj heq)]

/-- The second pass writes a value that JSON can be parsed to. -/
theorem parses_of_stringifyOnce {root : ℕ} {text : Option String}
    (hclass : classify functions h ("", data) = .ok (.inr root)) (hrun : stringifyOnce functions h data = .ok text) :
    ∃ value : json.Value, value.KeysOnce ∧ text = some value.stringify := by
  have hsome := stringifyOnce_isSome (by simp [hclass]) hrun
  rw [stringifyOnce, hclass] at hrun
  obtain ⟨⟨value, seen⟩, hexplore, rfl⟩ := Traversal.map_eq_ok_iff.mp hrun
  rw [Option.isSome_map] at hsome
  obtain ⟨parsed, hparsed⟩ := Option.isSome_iff_exists.mp hsome
  exact ⟨parsed, parses_of_explore hexplore parsed hparsed, by rw [show value = some parsed from hparsed]; rfl⟩

section separated

variable (hsep : Separates h t origin)

include hsep

namespace Separates

theorem isArray (address : ℕ) : (t.cell address).isArray = (h.cell (origin address)).isArray := by
  rw [← hsep.cell, Cell.isArray_map]

theorem isArray_congr {x y : ℕ} (heq : origin x = origin y) : (t.cell x).isArray = (t.cell y).isArray := by
  rw [hsep.isArray, hsep.isArray, heq]

theorem slots (address : ℕ) : (h.cell (origin address)).slots = (t.cell address).slots.map (Slot.rename origin) := by
  rw [← hsep.cell, Cell.slots_map]

theorem told_of_mem {entry : String × Slot} (hentry : entry ∈ (t.cell a).entries) : Told h t entry.2 :=
  fun address heq hobject => hsep.object a address (Heap.holds_of_mem_entries hentry heq) hobject

theorem rename_of_lt {slot : Slot} (hslot : ∀ address, slot = .ref address → address < h.length) :
    slot.rename origin = slot := by
  cases slot with
  | ref address => rw [Slot.rename, hsep.same address (hslot address rfl)]
  | _ => rfl

theorem field_rename {key : String} :
    (Slot.ref (origin a)).field functions h key = ((Slot.ref a).field functions t key).map (Slot.rename origin) := by
  rw [Slot.field, Slot.field, ← hsep.cell, Cell.own_map, Fields.get_map]

variable (hreturned : functions.Return h)

include hreturned

theorem call_rename (id : ℕ) (this : Slot) (arguments : List Slot) :
    (functions.call id this arguments).map (Slot.rename origin) = functions.call id this arguments := by
  cases hcall : functions.call id this arguments with
  | error thrown => rfl
  | ok result =>
    have hresult : result.rename origin = result := by
      apply hsep.rename_of_lt
      intro address heq
      subst heq
      exact hreturned id this arguments address hcall
    rw [Except.map, hresult]

theorem resolve_rename {entry : String × Slot} (htold : Told h t entry.2) :
    resolve functions h (renameEntry origin entry) = (resolve functions t entry).map (Slot.rename origin) := by
  obtain ⟨key, value⟩ := entry
  rw [resolve, resolve]
  cases value with
  | ref x =>
    cases harray : (t.cell x).isArray with
    | true =>
      have hnone : (Slot.ref (origin x)).field functions h "toJSON" = none := by
        rw [hsep.field_rename, field_of_isArray harray]
        rfl
      simp only [renameEntry, Slot.rename, hnone, field_of_isArray harray]
      rfl
    | false =>
      have hx : origin x = x := hsep.same x (htold x rfl harray)
      have hfield : (Slot.ref x).field functions h "toJSON" =
          ((Slot.ref x).field functions t "toJSON").map (Slot.rename origin) := by
        rw [← hsep.field_rename, hx]
      simp only [renameEntry, Slot.rename, hx, hfield]
      cases (Slot.ref x).field functions t "toJSON" with
      | none => simp [Except.map, Slot.rename, hx]
      | some method =>
        cases method with
        | function id source => exact (hsep.call_rename hreturned id _ _).symm
        | _ => simp [Except.map, Slot.rename, hx]
  | function id source =>
    simp only [renameEntry, Slot.rename, Slot.field]
    cases (functions.own id).2.get "toJSON" with
    | none => rfl
    | some method =>
      cases method with
      | function other source => exact (hsep.call_rename hreturned other _ _).symm
      | _ => rfl
  | _ => rfl

theorem classify_rename {entry : String × Slot} (htold : Told h t entry.2) :
    classify functions h (renameEntry origin entry) = (classify functions t entry).map (Sum.map id origin) := by
  rw [classify, classify, hsep.resolve_rename hreturned htold]
  cases resolve functions t entry with
  | error thrown => rfl
  | ok value => cases value <;> rfl

/-- JSON.stringify does with the copies what it does with what they come from. -/
theorem covers : (jsonTraversal functions t).Covers (jsonTraversal functions h) origin (renameEntry origin) where
  items node := by
    change (h.cell (origin node)).entries = (t.cell node).entries.map (renameEntry origin)
    rw [← hsep.cell, Cell.entries_map]
    rfl
  classify _ _ hentry := hsep.classify_rename hreturned (hsep.told_of_mem hentry)

omit hreturned in
theorem assemble_rename (node : ℕ) (members : List ((String × Slot) × Option json.Value)) :
    assemble h (origin node) (members.map (Prod.map (renameEntry origin) id)) = assemble t node members := by
  rw [assemble, assemble, ← hsep.cell]
  cases t.cell node with
  | arr items =>
    simp [Cell.map]
  | obj prototype fields => simp [Cell.map, List.filterMap_map, Function.comp_def, renameEntry]
  | error name message fields => simp [Cell.map, List.filterMap_map, Function.comp_def, renameEntry]

section passes

variable (hdata : ∀ address, data = .ref address → address < h.length)

include hdata

theorem classify_eq : classify functions h ("", data) = (classify functions t ("", data)).map (Sum.map id origin) := by
  have htold : Told h t (("", data) : String × Slot).2 := fun address heq _ => hdata address heq
  have hclass := hsep.classify_rename hreturned htold
  rwa [renameEntry, hsep.rename_of_lt hdata] at hclass

/-- The first pass gives the same. -/
theorem stringify_eq : stringify functions t data = stringify functions h data := by
  rw [stringify, stringify, hsep.classify_eq hreturned hdata]
  cases classify functions t ("", data) with
  | error thrown => rfl
  | ok found =>
    cases found with
    | inl value => rfl
    | inr root =>
      dsimp only [Except.map, Sum.map_inr]
      rw [(hsep.covers hreturned).descend hsep.assemble_rename (mem_range_of_entries t) (mem_range_of_entries h)
        (card_range_lt t) (card_range_lt h)]

/-- The second pass comes through if it did. -/
theorem stringifyOnce_ok_iff_copied :
    (∃ text, stringifyOnce functions t data = .ok text) ↔ ∃ text, stringifyOnce functions h data = .ok text := by
  have hclass := hsep.classify_eq hreturned hdata
  rw [stringifyOnce, stringifyOnce, hclass]
  cases classify functions t ("", data) with
  | error thrown => simp [Except.map]
  | ok found =>
    cases found with
    | inl value => simp [Except.map]
    | inr root =>
      refine Traversal.map_ok_iff.trans (Iff.trans ?_ Traversal.map_ok_iff.symm)
      exact ((hsep.covers hreturned).explore_ok_iff (mem_range_of_entries t) (mem_range_of_entries h) (card_range_lt t)
        (card_range_lt h)).symm

/-- It gives the same text exactly if it meets no two copies of one array. -/
theorem stringifyOnce_eq_iff {root : ℕ} {text' text : Option String}
    (hclass : classify functions t ("", data) = .ok (.inr root))
    (hrun' : stringifyOnce functions t data = .ok text') (hrun : stringifyOnce functions h data = .ok text) :
    text' = text ↔ Set.InjOn origin {b | ReflTransGen (jsonTraversal functions t).Leads root b} := by
  have hclass' : classify functions h ("", data) = .ok (.inr (origin root)) := by
    rw [hsep.classify_eq hreturned hdata, hclass]
    rfl
  rw [stringifyOnce, hclass] at hrun'
  rw [stringifyOnce, hclass'] at hrun
  obtain ⟨⟨value', seen'⟩, hexplore', rfl⟩ := Traversal.map_eq_ok_iff.mp hrun'
  obtain ⟨⟨value, seen⟩, hexplore, rfl⟩ := Traversal.map_eq_ok_iff.mp hrun
  rw [← (hsep.covers hreturned).explore_value_iff hsep.assemble_rename (mem_range_of_entries t)
    (mem_range_of_entries h) (card_range_lt t) (card_range_lt h) (legible_json functions h) hexplore' hexplore]
  constructor
  · intro heq
    exact stringify_option_inj (parses_of_explore hexplore') (parses_of_explore hexplore) heq
  · intro heq
    rw [heq]

end passes

section meets

variable {root x : ℕ} (hroot : root < h.length)

omit hreturned in
theorem at_origin {p i : ℕ} (hat : At t p i x) : At h (origin p) i (origin x) := by
  refine ⟨?_, by rw [← hsep.isArray, hat.2]⟩
  rw [hsep.slots, List.getElem?_map, hat.1]
  rfl

omit hsep in
theorem classify_inr {entry : String × Slot} (hclass : classify functions t entry = .ok (.inr x)) :
    entry.2 = .ref x ∨ x < h.length := by
  have hresolved : resolve functions t entry = .ok (.ref x) := by
    rw [classify] at hclass
    split at hclass <;> simp_all
  rw [resolve] at hresolved
  split at hresolved
  case h_1 => exact Or.inr (hreturned _ _ _ _ hresolved)
  case h_2 => exact Or.inl (Except.ok.inj hresolved)

omit hsep hreturned in
theorem classify_array {key : String} (harray : (h.cell a).isArray = true) :
    classify functions h (key, .ref a) = .ok (.inr a) := by
  rw [classify, resolve, field_of_isArray harray]

include hroot

theorem lt_of_reach (hreach : ReflTransGen (jsonTraversal functions t).Leads root x)
    (hobject : (t.cell x).isArray = false) : x < h.length := by
  obtain rfl | ⟨p, _, entry, hentry, hclass⟩ := ReflTransGen.cases_tail hreach
  · exact hroot
  · obtain heq | hlt := classify_inr hreturned hclass
    · exact hsep.told_of_mem hentry x heq hobject
    · exact hlt

theorem reach_origin (hreach : ReflTransGen (jsonTraversal functions t).Leads root x) :
    ReflTransGen (jsonTraversal functions h).Leads root (origin x) := by
  have horigin := (hsep.covers hreturned).reach hreach
  rwa [hsep.same root hroot] at horigin

/-- How a step leads to an array. -/
theorem meets_of_leads {p : ℕ} (hreach : ReflTransGen (jsonTraversal functions t).Leads root p)
    (hleads : (jsonTraversal functions t).Leads p x) (harray : (t.cell x).isArray = true) :
    x < h.length ∧ Meets functions h root (origin x) none ∨ h.length ≤ x ∧ ∃ i, At t p i x := by
  obtain ⟨entry, hentry, hclass⟩ := hleads
  change classify functions t entry = .ok (.inr x) at hclass
  by_cases heq : entry.2 = .ref x
  · right
    have hholds := Heap.holds_of_mem_entries hentry heq
    obtain ⟨i, hi⟩ := List.mem_iff_getElem?.mp hholds
    exact ⟨hsep.array p x ⟨hholds, harray⟩, i, hi, harray⟩
  · left
    have hlt : x < h.length := (classify_inr hreturned hclass).resolve_left heq
    have htold := hsep.told_of_mem hentry
    refine ⟨hlt, .returned (hsep.reach_origin hreturned hroot hreach) ((hsep.covers hreturned).mem_items hentry) ?_ ?_⟩
    · intro horigin
      rw [hsep.same x hlt] at horigin
      obtain ⟨key, value⟩ := entry
      cases value with
      | ref y =>
        have hy : origin y = x := Slot.ref.inj horigin
        -- An array would be gone into itself, and any other object is its own origin.
        cases hkind : (t.cell y).isArray with
        | true =>
          rw [classify_array hkind] at hclass
          cases hclass
          exact heq rfl
        | false =>
          rw [hsep.same y (htold y rfl hkind)] at hy
          rw [hy] at heq
          exact heq rfl
      | _ => cases horigin
    · rw [hsep.classify_rename hreturned htold, hclass]
      rfl

theorem meets_of_reach (hreach : ReflTransGen (jsonTraversal functions t).Leads root x)
    (harray : (t.cell x).isArray = true) :
    x < h.length ∧ Meets functions h root (origin x) none ∨
      ∃ p i, ReflTransGen (jsonTraversal functions t).Leads root p ∧ At t p i x := by
  obtain rfl | ⟨p, hbefore, hleads⟩ := ReflTransGen.cases_tail hreach
  · exact Or.inl ⟨hroot, .first (hsep.same x hroot).symm⟩
  · obtain hfirst | ⟨_, i, hat⟩ := hsep.meets_of_leads hreturned hroot hbefore hleads harray
    · exact Or.inl hfirst
    · exact Or.inr ⟨p, i, hbefore, hat⟩

theorem meets_of_at {p i : ℕ} (hreach : ReflTransGen (jsonTraversal functions t).Leads root p) (hat : At t p i x) :
    Meets functions h root (origin x) (some (origin p, i)) :=
  .held (hsep.reach_origin hreturned hroot hreach) (hsep.at_origin hat)

/-- The copy that is met where the array was. -/
theorem exists_copy {array : ℕ} {way : Option (ℕ × ℕ)} (harray : (h.cell array).isArray = true)
    (hmeets : Meets functions h root array way) :
    ∃ x, ReflTransGen (jsonTraversal functions t).Leads root x ∧ origin x = array ∧
      (way = none ∧ x < h.length ∨ ∃ p i, way = some (origin p, i) ∧ At t p i x) := by
  have hcovers := hsep.covers hreturned
  have hlift : ∀ holder, ReflTransGen (jsonTraversal functions h).Leads root holder →
      ∃ p, ReflTransGen (jsonTraversal functions t).Leads root p ∧ origin p = holder := by
    intro holder hreach
    rw [← hsep.same root hroot] at hreach
    exact hcovers.exists_reach hreach
  cases hmeets with
  | @held holder place hreach hat =>
    obtain ⟨p, hp, rfl⟩ := hlift holder hreach
    obtain ⟨hslot, _⟩ := hat
    rw [hsep.slots, List.getElem?_map, Option.map_eq_some_iff] at hslot
    obtain ⟨slot, hslot, heq⟩ := hslot
    cases slot with
    | ref x =>
      cases heq
      have hx : (t.cell x).isArray = true := by rw [hsep.isArray, harray]
      refine ⟨x, hp.tail ?_, rfl, Or.inr ⟨p, place, rfl, hslot, hx⟩⟩
      have hmem := List.mem_of_getElem? hslot
      rw [← Cell.entries_map_snd] at hmem
      obtain ⟨⟨key, value⟩, hentry, rfl⟩ := List.mem_map.mp hmem
      exact ⟨(key, .ref x), hentry, classify_array hx⟩
    | _ => cases heq
  | first heq =>
    subst heq
    exact ⟨root, .refl, hsep.same root hroot, Or.inl ⟨rfl, hroot⟩⟩
  | @returned holder entry hreach hentry hother hclass =>
    obtain ⟨p, hp, rfl⟩ := hlift holder hreach
    have hitems : entry ∈ (jsonTraversal functions h).items (origin p) := hentry
    rw [hcovers.items] at hitems
    obtain ⟨copied, hcopied, rfl⟩ := List.mem_map.mp hitems
    obtain ⟨x, hx, rfl⟩ := (hcovers.classify_inr_iff hcopied).mp hclass
    refine ⟨x, hp.tail ⟨copied, hcopied, hx⟩, rfl, Or.inl ⟨rfl, ?_⟩⟩
    apply (classify_inr hreturned hx).resolve_left
    intro heq
    apply hother
    rw [renameEntry, heq, Slot.rename]

section copies

variable {y : ℕ} (hx : ReflTransGen (jsonTraversal functions t).Leads root x)
  (hy : ReflTransGen (jsonTraversal functions t).Leads root y) (heq : origin x = origin y)

include hy heq

include hx in
theorem eq_of_object (hobject : (t.cell x).isArray = false) : x = y := by
  have hkind := hsep.isArray_congr heq
  have hxlt := hsep.lt_of_reach hreturned hroot hx hobject
  have hylt := hsep.lt_of_reach hreturned hroot hy (hkind.symm.trans hobject)
  rwa [hsep.same x hxlt, hsep.same y hylt] at heq

variable (honce : MetOnce functions h root) (harray : (t.cell x).isArray = true)

include honce harray

/-- An array that a `toJSON` returned is at no place. -/
theorem eq_of_returned (hlt : x < h.length) (hmeets : Meets functions h root (origin x) none) : x = y := by
  have hkind := hsep.isArray_congr heq
  obtain ⟨hylt, _⟩ | ⟨q, j, hq, hat⟩ := hsep.meets_of_reach hreturned hroot hy (hkind.symm.trans harray)
  · rwa [hsep.same x hlt, hsep.same y hylt] at heq
  · have hplace := hsep.meets_of_at hreturned hroot hq hat
    rw [← heq] at hplace
    cases honce (origin x) _ _ (by rw [← hsep.isArray, harray]) hmeets hplace

end copies

/-- Two objects of one origin are one, by induction on the way to the first. -/
theorem eq_of_metOnce {y : ℕ} (honce : MetOnce functions h root)
    (hx : ReflTransGen (jsonTraversal functions t).Leads root x)
    (hy : ReflTransGen (jsonTraversal functions t).Leads root y) (heq : origin x = origin y) : x = y := by
  induction hx generalizing y with
  | refl =>
    cases harray : (t.cell root).isArray with
    | false => exact hsep.eq_of_object hreturned hroot .refl hy heq harray
    | true =>
      exact hsep.eq_of_returned hreturned hroot hy heq honce harray hroot (.first (hsep.same root hroot).symm)
  | @tail p x hbefore hleads ih =>
    cases harray : (t.cell x).isArray with
    | false => exact hsep.eq_of_object hreturned hroot (hbefore.tail hleads) hy heq harray
    | true =>
      have harray' : (t.cell y).isArray = true := by rw [← hsep.isArray_congr heq, harray]
      obtain ⟨hlt, hmeets⟩ | ⟨_, i, hat⟩ := hsep.meets_of_leads hreturned hroot hbefore hleads harray
      · exact hsep.eq_of_returned hreturned hroot hy heq honce harray hlt hmeets
      · obtain ⟨hlt, hmeets⟩ | ⟨q, j, hq, hat'⟩ := hsep.meets_of_reach hreturned hroot hy harray'
        · exact (hsep.eq_of_returned hreturned hroot (hbefore.tail hleads) heq.symm honce harray' hlt hmeets).symm
        · have hplace := hsep.meets_of_at hreturned hroot hbefore hat
          have hplace' := hsep.meets_of_at hreturned hroot hq hat'
          rw [← heq] at hplace'
          have hways := honce (origin x) _ _ (by rw [← hsep.isArray, harray]) hplace hplace'
          obtain ⟨hholder, rfl⟩ := Prod.mk.inj (Option.some.inj hways)
          obtain rfl := ih hq hholder
          exact hat.unique hat'

/-- Two copies of one array are met exactly if the array is met in two ways. -/
theorem injOn_iff_metOnce :
    Set.InjOn origin {b | ReflTransGen (jsonTraversal functions t).Leads root b} ↔ MetOnce functions h root := by
  constructor
  · intro hinj array way way' harray hmeets hmeets'
    obtain ⟨x, hx, horigin, hway⟩ := hsep.exists_copy hreturned hroot harray hmeets
    obtain ⟨y, hy, horigin', hway'⟩ := hsep.exists_copy hreturned hroot harray hmeets'
    obtain rfl := hinj hx hy (horigin.trans horigin'.symm)
    obtain ⟨rfl, hlt⟩ | ⟨p, i, rfl, hat⟩ := hway
    · obtain ⟨rfl, _⟩ | ⟨q, j, rfl, hat⟩ := hway'
      · rfl
      · have hle := hsep.array q x hat.nests
        omega
    · obtain ⟨rfl, hlt⟩ | ⟨q, j, rfl, hat'⟩ := hway'
      · have hle := hsep.array p x hat.nests
        omega
      · obtain ⟨rfl, rfl⟩ := hsep.once p i q j x hat hat'
        rfl
  · intro honce x hx y hy heq
    exact hsep.eq_of_metOnce hreturned hroot honce hx hy heq

end meets

end Separates

end separated

end node_backend.stringifier

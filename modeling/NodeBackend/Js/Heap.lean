import Mathlib.Data.List.GetD
import NodeBackend.Graph.Cycles
import NodeBackend.Graph.Loops
import NodeBackend.Js.Value

namespace js

open Relation graph

/-- What a call throws: an Error with its message, an Error whose message is no text, or
anything else. Of a message that is no text it is known what it answers if it is asked
whether it includes `circular`, none where asking throws. -/
inductive Thrown
  | error (message : String)
  | strange (included : Option Bool)
  | other
deriving DecidableEq

/-- What a variable, an item or a field holds. An object is held by its address. Two
symbols, or two functions, are the same only if they have the same number. -/
inductive Slot
  | undefined
  | null
  | bool (b : Bool)
  | num (n : Decimal)
  | nan
  | infinity (negative : Bool)
  | bigint (n : ℤ)
  | str (s : String)
  | symbol (id : ℕ) (description : String)
  | function (id : ℕ) (source : String)
  | ref (address : ℕ)
deriving DecidableEq

/-- Where an object looks for what is not its own: Object.prototype, or what it was
given instead. -/
inductive Prototype
  | usual
  | given (value : Slot)

/-- Own enumerable fields in the order of Object.keys. -/
structure Fields where
  entries : List (String × Slot)
  distinct : (entries.map Prod.fst).Nodup

namespace Fields

def empty : Fields := ⟨[], List.nodup_nil⟩

def get (fields : Fields) (key : String) : Option Slot :=
  fields.entries.lookup key

def set (fields : Fields) (key : String) (value : Slot) : Fields :=
  ⟨json.setField fields.entries key value, json.setField_nodup key value fields.distinct⟩

def map (f : Slot → Slot) (fields : Fields) : Fields where
  entries := fields.entries.map fun entry => (entry.1, f entry.2)
  distinct := by
    rw [List.map_map]
    exact fields.distinct

def values (fields : Fields) : List Slot :=
  fields.entries.map Prod.snd

@[simp] theorem values_empty : empty.values = [] := rfl

theorem values_map (f : Slot → Slot) (fields : Fields) : (fields.map f).values = fields.values.map f := by
  simp [values, map]

theorem mem_values_set {fields : Fields} {key : String} {value slot : Slot}
    (h : slot ∈ (fields.set key value).values) : slot ∈ fields.values ∨ slot = value := by
  obtain ⟨entry, hentry, rfl⟩ := List.mem_map.mp h
  obtain hold | rfl := json.mem_setField hentry
  · exact Or.inl (List.mem_map_of_mem hold)
  · exact Or.inr rfl

end Fields

/-- An object: an array of items, an object of fields, or an Error with what comes of
making texts of its name and its message. -/
inductive Cell
  | arr (items : List Slot)
  | obj (prototype : Prototype) (fields : Fields)
  | error (name message : Except Thrown String) (fields : Fields)

def Cell.isArray : Cell → Bool
  | .arr _ => true
  | _ => false

/-- Items or field values, in the order of Object.keys. -/
def Cell.slots : Cell → List Slot
  | .arr items => items
  | .obj _ fields => fields.values
  | .error _ _ fields => fields.values

/-- Object.entries. -/
def Cell.entries : Cell → List (String × Slot)
  | .arr items => items.zipIdx.map fun entry => (toString entry.2, entry.1)
  | .obj _ fields => fields.entries
  | .error _ _ fields => fields.entries

theorem Cell.entries_map_snd (cell : Cell) : cell.entries.map Prod.snd = cell.slots := by
  cases cell with
  | arr items => simp [entries, slots, Function.comp_def]
  | obj prototype fields => rfl
  | error name message fields => rfl

/-- The objects there are. The address of one is its place. -/
abbrev Heap := List Cell

namespace Heap

/-- The object at an address, an empty one where there is none. -/
def cell (h : Heap) (address : ℕ) : Cell :=
  h.getD address (.obj .usual .empty)

/-- One object is an item or a field value of another. -/
def Holds (h : Heap) (outer inner : ℕ) : Prop :=
  .ref inner ∈ (h.cell outer).slots

/-- All that is held is there. -/
def Closed (h : Heap) : Prop :=
  ∀ outer inner, h.Holds outer inner → inner < h.length

variable {h t : Heap} {a b : ℕ}

theorem cell_of_le (hle : h.length ≤ a) : h.cell a = .obj .usual .empty :=
  List.getD_eq_default h _ hle

theorem cell_append (hlt : a < h.length) : (h ++ t).cell a = h.cell a :=
  List.getD_append h t _ a hlt

theorem cell_append_length (h t : Heap) (a : ℕ) : (h ++ t).cell (a + h.length) = t.cell a := by
  rw [cell, List.getD_append_right h t _ _ (Nat.le_add_left _ _), Nat.add_sub_cancel, cell]

@[simp] theorem cell_singleton (cell : Cell) : Heap.cell [cell] 0 = cell := rfl

theorem cell_concat (h : Heap) (cell : Cell) : Heap.cell (h ++ [cell]) h.length = cell := by
  simpa using cell_append_length h [cell] 0

theorem lt_of_holds (hholds : h.Holds a b) : a < h.length := by
  by_contra hge
  rw [Holds, cell_of_le (not_lt.mp hge)] at hholds
  simp [Cell.slots] at hholds

theorem holds_of_mem_entries {entry : String × Slot} (hentry : entry ∈ (h.cell a).entries)
    (heq : entry.2 = .ref b) : h.Holds a b := by
  rw [Holds, ← heq, ← Cell.entries_map_snd]
  exact List.mem_map_of_mem hentry

theorem cell_mem (ha : a < h.length) : h.cell a ∈ h := by
  rw [cell, List.getD_eq_getElem h _ ha]
  exact List.getElem_mem ha

theorem closed_of_mem (hmem : ∀ cell ∈ h, ∀ inner, .ref inner ∈ cell.slots → inner < h.length) : h.Closed := by
  intro outer inner hholds
  exact hmem _ (cell_mem (lt_of_holds hholds)) inner hholds

/-- Only objects that are there hold any. -/
theorem finite_reach (h : Heap) (a : ℕ) : {b | ReflTransGen h.Holds a b}.Finite := by
  apply ((List.finite_toSet ((List.range h.length).flatMap fun outer => (h.cell outer).slots)).preimage
    (f := Slot.ref) (fun _ _ _ _ heq => Slot.ref.inj heq) |>.insert a).subset
  intro b hreach
  obtain rfl | ⟨outer, _, hholds⟩ := ReflTransGen.cases_tail hreach
  · exact Set.mem_insert _ _
  · apply Set.mem_insert_of_mem
    exact List.mem_flatMap.mpr ⟨outer, List.mem_range.mpr (lt_of_holds hholds), hholds⟩

theorem lt_of_reach (hclosed : h.Closed) (ha : a < h.length) (hreach : ReflTransGen h.Holds a b) : b < h.length := by
  obtain rfl | ⟨outer, _, hholds⟩ := ReflTransGen.cases_tail hreach
  · exact ha
  · exact hclosed _ _ hholds

theorem holds_append (ha : a < h.length) : (h ++ t).Holds a b ↔ h.Holds a b := by
  rw [Holds, Holds, cell_append ha]

/-- Objects that are there reach the same objects when more are added. -/
theorem reach_append (hclosed : h.Closed) (ha : a < h.length) :
    ReflTransGen (h ++ t).Holds a b ↔ ReflTransGen h.Holds a b := by
  constructor
  · intro hreach
    induction hreach with
    | refl => exact .refl
    | tail _ hstep ih => exact ih.tail ((holds_append (lt_of_reach hclosed ha ih)).mp hstep)
  · intro hreach
    induction hreach with
    | refl => exact .refl
    | tail hbefore hstep ih => exact ih.tail ((holds_append (lt_of_reach hclosed ha hbefore)).mpr hstep)

theorem grounded_append (hclosed : h.Closed) (ha : a < h.length) (hground : Grounded h.Holds a) :
    Grounded (h ++ t).Holds a := by
  induction hground with
  | intro a _ ih =>
    apply Grounded.intro
    intro b hb
    rw [holds_append ha] at hb
    exact ih b hb (hclosed _ _ hb)

/-- A value whose objects are all there, with only ways that end. -/
def Sound (h : Heap) (slot : Slot) : Prop :=
  ∀ a, slot = .ref a → a < h.length ∧ Grounded h.Holds a

theorem Sound.append {slot : Slot} (hsound : h.Sound slot) (hclosed : h.Closed) (t : Heap) : (h ++ t).Sound slot := by
  intro a heq
  obtain ⟨ha, hground⟩ := hsound a heq
  refine ⟨?_, grounded_append hclosed ha hground⟩
  rw [List.length_append]
  omega

/-- One more object that holds sound values only. -/
theorem closed_concat {cell : Cell} (hclosed : h.Closed) (hslots : ∀ slot ∈ cell.slots, h.Sound slot) :
    Heap.Closed (h ++ [cell]) := by
  intro outer inner hholds
  rw [List.length_append]
  obtain hlt | hge := lt_or_ge outer h.length
  · have hinner := hclosed _ _ ((holds_append hlt).mp hholds)
    omega
  · obtain ⟨place, rfl⟩ := Nat.exists_eq_add_of_le' hge
    rw [Holds, cell_append_length] at hholds
    cases place with
    | zero =>
      have hinner := (hslots _ hholds inner rfl).1
      omega
    | succ place =>
      rw [cell_of_le (by simp)] at hholds
      cases hholds

theorem sound_concat {cell : Cell} (hclosed : h.Closed) (hslots : ∀ slot ∈ cell.slots, h.Sound slot) :
    Heap.Sound (h ++ [cell]) (.ref h.length) := by
  intro a heq
  cases heq
  refine ⟨by simp, ?_⟩
  apply Grounded.intro
  intro b hb
  rw [Holds, cell_concat] at hb
  obtain ⟨hlt, hground⟩ := hslots _ hb b rfl
  exact grounded_append hclosed hlt hground

end Heap

/-- Run a loop over what an object holds. The keys are those it has at the start, and
each is read when its turn comes. No key is ever removed or moved, so that one is known
by its place. -/
def forEachSlot (step : Heap → Slot → Option Heap) (h : Heap) (obj : ℕ) : Option Heap :=
  (List.range (h.cell obj).slots.length).foldlM (fun h place => step h ((h.cell obj).slots.getD place .undefined)) h

section loops

variable {step : Heap → Slot → Option Heap} {h h' : Heap} {obj : ℕ} {Inv : Heap → Prop}

theorem forEachSlot_ends (hinv : Inv h)
    (hstep : ∀ h place, Inv h →
      ∃ h', step h ((h.cell obj).slots.getD place .undefined) = some h' ∧ Inv h') :
    ∃ h', forEachSlot step h obj = some h' ∧ Inv h' :=
  foldlM_ends hinv fun h place _ => hstep h place

theorem forEachSlot_run (hrun : forEachSlot step h obj = some h') (hinv : Inv h)
    (hkeep : ∀ h place h', Inv h → step h ((h.cell obj).slots.getD place .undefined) = some h' → Inv h') :
    Inv h' ∧ ∀ place < (h.cell obj).slots.length, ∃ before after, Inv before ∧
      step before ((before.cell obj).slots.getD place .undefined) = some after := by
  obtain ⟨hend, hsteps⟩ := foldlM_run hrun hinv fun h h' place _ => hkeep h place h'
  exact ⟨hend, fun place hplace => hsteps place (List.mem_range.mpr hplace)⟩

end loops

/-- A value and all objects that it may reach. -/
structure ObjectGraph where
  heap : Heap
  data : Slot
  closed : heap.Closed
  allocated : ∀ address, data = .ref address → address < heap.length

/-- The objects that a value reaches. -/
def Heap.Reaches (h : Heap) (data : Slot) (address : ℕ) : Prop :=
  ∃ root, data = .ref root ∧ ReflTransGen h.Holds root address

@[simp] theorem Heap.reaches_ref {h : Heap} {root address : ℕ} :
    h.Reaches (.ref root) address ↔ ReflTransGen h.Holds root address := by
  simp [Reaches]

end js

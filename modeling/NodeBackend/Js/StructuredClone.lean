import NodeBackend.Js.Heap

namespace js

open Relation graph

/-- What the structured clone algorithm goes into. Of an error it copies the name and the
message only. -/
def Cell.content : Cell → List Slot
  | .error _ _ _ => []
  | cell => cell.slots

def Slot.content (h : Heap) : Slot → List Slot
  | .ref address => (h.cell address).content
  | _ => []

/-- A function or a symbol, which cannot be cloned. -/
def Slot.rejected : Slot → Bool
  | .function _ _ => true
  | .symbol _ _ => true
  | _ => false

/-- The name and the message of an error become texts. -/
def Cell.rejected : Cell → Bool
  | .error (.ok _) (.ok _) _ => false
  | .error _ _ _ => true
  | _ => false

def Slot.uncloneable (h : Heap) : Slot → Bool
  | .ref address => (h.cell address).rejected
  | slot => slot.rejected

theorem Slot.uncloneable_of_rejected (h : Heap) {slot : Slot} (hrejected : slot.rejected = true) :
    slot.uncloneable h = true := by
  cases slot with
  | ref address => cases hrejected
  | _ => exact hrejected

/-- Whether cloning meets a function, a symbol or an error without texts. -/
def Heap.rejects (h : Heap) (data : Slot) : Bool :=
  found (Slot.content h) (Slot.uncloneable h) h.length data

def Slot.shift (offset : ℕ) : Slot → Slot
  | .ref address => .ref (address + offset)
  | slot => slot

def errorNames : List String :=
  ["Error", "EvalError", "RangeError", "ReferenceError", "SyntaxError", "TypeError", "URIError"]

def Cell.copy (offset : ℕ) : Cell → Cell
  | .arr items => .arr (items.map (Slot.shift offset))
  | .obj _ fields => .obj .usual (fields.map (Slot.shift offset))
  | .error name message _ => .error (name.map fun name => if name ∈ errorNames then name else "Error") message .empty

/-- structuredClone, none where it throws. Each object has one copy, which follows the
objects there were. Copies of what the value does not reach are left to nobody. -/
def structuredClone (h : Heap) (data : Slot) : Option (Heap × Slot) :=
  if h.rejects data then none else some (h ++ h.map (Cell.copy h.length), data.shift h.length)

namespace Heap

variable {h : Heap} {a b : ℕ} {data : Slot} {result : Heap × Slot}

theorem rejects_iff (h : Heap) (data : Slot) :
    h.rejects data = true ↔
      ∃ slot, ReflTransGen (fun a b => b ∈ a.content h) data slot ∧ slot.uncloneable h = true := by
  apply found_iff _ ((Finset.range h.length).image Slot.ref)
  · intro slot inner hinner
    cases slot with
    | ref address =>
      apply Finset.mem_image_of_mem
      rw [Finset.mem_range]
      by_contra hge
      rw [Slot.content, cell_of_le (not_lt.mp hge)] at hinner
      simp [Cell.content, Cell.slots] at hinner
    | _ => cases hinner
  · exact Finset.card_image_le.trans_eq (Finset.card_range _)

theorem mem_content {slot : Slot} {cell : Cell} (hmem : slot ∈ cell.content) : slot ∈ cell.slots := by
  cases cell with
  | error name message fields => cases hmem
  | _ => exact hmem

theorem slots_copy (offset : ℕ) (cell : Cell) : (cell.copy offset).slots = cell.content.map (Slot.shift offset) := by
  cases cell with
  | arr items => rfl
  | obj prototype fields => exact Fields.values_map _ fields
  | error name message fields => rfl

theorem cell_copied (h : Heap) (a : ℕ) :
    Heap.cell (h ++ h.map (Cell.copy h.length)) (a + h.length) = (h.cell a).copy h.length := by
  rw [cell_append_length, cell, cell, List.getD_eq_getElem?_getD, List.getD_eq_getElem?_getD, List.getElem?_map]
  cases h[a]? <;> rfl

theorem shift_eq_ref {slot : Slot} {offset : ℕ} (heq : slot.shift offset = .ref a) :
    ∃ b, slot = .ref b ∧ a = b + offset := by
  cases slot with
  | ref b => exact ⟨b, rfl, (Slot.ref.inj heq).symm⟩
  | _ => cases heq

theorem holds_copied (hholds : Heap.Holds (h ++ h.map (Cell.copy h.length)) (a + h.length) b) :
    ∃ inner, b = inner + h.length ∧ h.Holds a inner := by
  rw [Holds, cell_copied, slots_copy] at hholds
  obtain ⟨slot, hslot, heq⟩ := List.mem_map.mp hholds
  obtain ⟨inner, rfl, hb⟩ := shift_eq_ref heq
  exact ⟨inner, hb, mem_content hslot⟩

theorem closed_copied (hclosed : h.Closed) : Heap.Closed (h ++ h.map (Cell.copy h.length)) := by
  intro outer inner hholds
  rw [List.length_append, List.length_map]
  obtain hlt | hge := lt_or_ge outer h.length
  · have hinner := hclosed _ _ ((holds_append hlt).mp hholds)
    omega
  · obtain ⟨a, rfl⟩ := Nat.exists_eq_add_of_le' hge
    obtain ⟨b, rfl, hb⟩ := holds_copied hholds
    have hinner := hclosed _ _ hb
    omega

theorem grounded_copied (hground : Grounded h.Holds a) :
    Grounded (Heap.Holds (h ++ h.map (Cell.copy h.length))) (a + h.length) := by
  induction hground with
  | intro a _ ih =>
    apply Grounded.intro
    intro b hb
    obtain ⟨inner, rfl, hinner⟩ := holds_copied hb
    exact ih inner hinner

/-- What structuredClone gives where it does not throw. -/
theorem structuredClone_eq (hrun : structuredClone h data = some result) :
    h.rejects data = false ∧ result = (h ++ h.map (Cell.copy h.length), data.shift h.length) := by
  rw [structuredClone] at hrun
  split at hrun
  case isTrue => cases hrun
  case isFalse haccepted => exact ⟨Bool.eq_false_iff.mpr haccepted, (Option.some.inj hrun).symm⟩

theorem sound_structuredClone (hclosed : h.Closed) (hsound : h.Sound data)
    (hrun : structuredClone h data = some result) :
    (∃ t, result.1 = h ++ t) ∧ result.1.Closed ∧ result.1.Sound result.2 := by
  obtain ⟨_, rfl⟩ := structuredClone_eq hrun
  refine ⟨⟨_, rfl⟩, closed_copied hclosed, ?_⟩
  intro a heq
  obtain ⟨b, rfl, rfl⟩ := shift_eq_ref heq
  obtain ⟨hb, hground⟩ := hsound b rfl
  refine ⟨?_, grounded_copied hground⟩
  rw [List.length_append, List.length_map]
  omega

end Heap

end js

import NodeBackend.Js.StructuredClone

namespace js

open Relation graph

/-- What a value looks like from outside, down to some depth. -/
inductive View
  | slot (value : Slot)
  | deeper
  | arr (items : List View)
  | obj (fields : List (String × View))
  | error (name message : Except Thrown String)

/-- As the values of two objects are compared: what they inherit makes no difference. -/
def Heap.view (h : Heap) : ℕ → Slot → View
  | 0, _ => .deeper
  | depth + 1, .ref address =>
    match h.cell address with
    | .arr items => .arr (items.map (h.view depth))
    | .obj _ fields => .obj (fields.entries.map fun entry => (entry.1, h.view depth entry.2))
    | .error name message _ => .error name message
  | _ + 1, value => .slot value

/-- Two values that no depth tells apart. -/
def Alike (h : Heap) (data : Slot) (h' : Heap) (data' : Slot) : Prop :=
  ∀ depth, h.view depth data = h'.view depth data'

/-- Two values that share no array and no object. -/
def Apart (h : Heap) (data : Slot) (h' : Heap) (data' : Slot) : Prop :=
  ∀ address, h.Reaches data address → ¬ h'.Reaches data' address

namespace Heap

variable {h t : Heap} {a b : ℕ} {data : Slot}

theorem view_arr {depth : ℕ} {items : List Slot} (hcell : h.cell a = .arr items) :
    h.view (depth + 1) (.ref a) = .arr (items.map (h.view depth)) := by
  rw [view, hcell]

theorem view_obj {depth : ℕ} {prototype : Prototype} {fields : Fields} (hcell : h.cell a = .obj prototype fields) :
    h.view (depth + 1) (.ref a) = .obj (fields.entries.map fun entry => (entry.1, h.view depth entry.2)) := by
  rw [view, hcell]

theorem view_append (hclosed : h.Closed) {depth : ℕ} (hdata : ∀ a, data = .ref a → a < h.length) :
    Heap.view (h ++ t) depth data = h.view depth data := by
  induction depth generalizing data with
  | zero => rfl
  | succ depth ih =>
    cases data with
    | ref a =>
      have ha := hdata a rfl
      have hheld : ∀ slot ∈ (h.cell a).slots, Heap.view (h ++ t) depth slot = h.view depth slot := by
        intro slot hslot
        apply ih
        intro b heq
        subst heq
        exact hclosed a b hslot
      cases hcell : h.cell a with
      | arr items =>
        rw [view_arr hcell, view_arr ((cell_append ha).trans hcell)]
        congr 1
        apply List.map_congr_left
        intro item hitem
        exact hheld item (by rwa [hcell])
      | obj prototype fields =>
        rw [view_obj hcell, view_obj ((cell_append ha).trans hcell)]
        congr 1
        apply List.map_congr_left
        intro entry hentry
        rw [hheld entry.2 (by rw [hcell]; exact List.mem_map_of_mem hentry)]
      | error name message fields => rw [view, view, cell_append ha, hcell]
    | _ => rfl

/-- No error is reached. -/
def Errorless (h : Heap) (data : Slot) : Prop :=
  ∀ address, h.Reaches data address → ∀ name message fields, h.cell address ≠ .error name message fields

theorem Reaches.step (hreach : h.Reaches (.ref b) a) {root : ℕ} (hholds : h.Holds root b) :
    h.Reaches (.ref root) a := by
  rw [reaches_ref] at hreach ⊢
  exact hreach.head hholds

theorem Errorless.reach (hplain : h.Errorless (.ref a)) (hreach : ReflTransGen h.Holds a b) :
    h.Errorless (.ref b) := by
  intro address hfound
  rw [reaches_ref] at hfound
  exact hplain address (reaches_ref.mpr (hreach.trans hfound))

theorem Errorless.step (hplain : h.Errorless (.ref a)) {slot : Slot} (hslot : slot ∈ (h.cell a).slots) :
    h.Errorless slot := by
  intro address hreach
  obtain ⟨b, rfl, hreach⟩ := hreach
  exact hplain address (reaches_ref.mpr (hreach.head hslot))

/-- Without errors only functions and symbols cannot be cloned. -/
theorem Errorless.uncloneable_eq {slot : Slot} (hplain : h.Errorless slot) : slot.uncloneable h = slot.rejected := by
  cases slot with
  | ref a =>
    rw [Slot.uncloneable]
    cases hcell : h.cell a with
    | error name message fields => exact absurd hcell (hplain a (reaches_ref.mpr .refl) name message fields)
    | _ => rfl
  | _ => rfl

/-- A copy looks like its original. -/
theorem view_copied (hplain : h.Errorless data) (depth : ℕ) :
    Heap.view (h ++ h.map (Cell.copy h.length)) depth (data.shift h.length) = h.view depth data := by
  induction depth generalizing data with
  | zero => rfl
  | succ depth ih =>
    cases data with
    | ref a =>
      have hcopy := cell_copied h a
      cases hcell : h.cell a with
      | arr items =>
        rw [hcell] at hcopy
        rw [view_arr hcell, Slot.shift, view_arr hcopy, List.map_map]
        congr 1
        apply List.map_congr_left
        intro item hitem
        exact ih (hplain.step (by rwa [hcell]))
      | obj prototype fields =>
        rw [hcell] at hcopy
        rw [view_obj hcell, Slot.shift, view_obj hcopy, Fields.map, List.map_map]
        congr 1
        apply List.map_congr_left
        intro entry hentry
        have hvalue : h.Errorless entry.2 := hplain.step (by rw [hcell]; exact List.mem_map_of_mem hentry)
        rw [Function.comp_apply, ih hvalue]
      | error name message fields => exact absurd hcell (hplain a (reaches_ref.mpr .refl) name message fields)
    | _ => rfl

/-- A copy reaches copies only. -/
theorem reach_copied (hreach : Heap.Reaches (h ++ h.map (Cell.copy h.length)) (data.shift h.length) a) :
    h.length ≤ a := by
  obtain ⟨root, heq, hreach⟩ := hreach
  obtain ⟨original, _, rfl⟩ := shift_eq_ref heq
  suffices hcopy : ∃ inner, a = inner + h.length by
    obtain ⟨inner, rfl⟩ := hcopy
    omega
  induction hreach with
  | refl => exact ⟨original, rfl⟩
  | tail _ hstep ih =>
    obtain ⟨outer, rfl⟩ := ih
    obtain ⟨inner, hinner, _⟩ := holds_copied hstep
    exact ⟨inner, hinner⟩

/-- A function or a symbol is found in what a value reaches. -/
def ReachesRejected (h : Heap) (data : Slot) : Prop :=
  ∃ address slot, h.Reaches data address ∧ slot ∈ (h.cell address).slots ∧ slot.rejected = true

theorem content_eq_slots (hplain : h.Errorless (.ref a)) : (h.cell a).content = (h.cell a).slots := by
  cases hcell : h.cell a with
  | error name message fields => exact absurd hcell (hplain a (reaches_ref.mpr .refl) name message fields)
  | _ => rfl

theorem rejects_iff_reachesRejected (hplain : h.Errorless (.ref a)) :
    h.rejects (.ref a) = true ↔ h.ReachesRejected (.ref a) := by
  rw [rejects_iff]
  constructor
  · intro hrejects
    obtain ⟨slot, hreach, hslot⟩ := hrejects
    suffices hfound : (∃ b, slot = .ref b ∧ h.Reaches (.ref a) b) ∨
        ∃ b, h.Reaches (.ref a) b ∧ slot ∈ (h.cell b).slots by
      obtain ⟨b, rfl, hb⟩ | ⟨b, hb, hmem⟩ := hfound
      · rw [reaches_ref] at hb
        rw [(hplain.reach hb).uncloneable_eq] at hslot
        cases hslot
      · have hb' := hb
        rw [reaches_ref] at hb'
        rw [((hplain.reach hb').step hmem).uncloneable_eq] at hslot
        exact ⟨b, slot, hb, hmem, hslot⟩
    clear hslot
    induction hreach with
    | refl => exact Or.inl ⟨a, rfl, reaches_ref.mpr .refl⟩
    | @tail outer inner _ hstep ih =>
      have houter : ∃ b, outer = .ref b ∧ h.Reaches (.ref a) b := by
        obtain hobject | ⟨b, hb, hmem⟩ := ih
        · exact hobject
        · cases outer with
          | ref c =>
            rw [reaches_ref] at hb
            exact ⟨c, rfl, reaches_ref.mpr (hb.tail hmem)⟩
          | _ => cases hstep
      obtain ⟨b, rfl, hb⟩ := houter
      exact Or.inr ⟨b, hb, mem_content hstep⟩
  · intro hreaches
    obtain ⟨b, slot, hb, hmem, hslot⟩ := hreaches
    rw [reaches_ref] at hb
    have hway : ∀ b, ReflTransGen h.Holds a b →
        ReflTransGen (fun a b => b ∈ Slot.content h a) (.ref a) (.ref b) := by
      intro b hb
      induction hb with
      | refl => exact .refl
      | tail hbefore hstep ih =>
        rw [Holds, ← content_eq_slots (hplain.reach hbefore)] at hstep
        exact ih.tail hstep
    rw [← ((hplain.reach hb).step hmem).uncloneable_eq] at hslot
    rw [← content_eq_slots (hplain.reach hb)] at hmem
    exact ⟨slot, (hway b hb).tail hmem, hslot⟩

theorem ReachesRejected.reach (hrejected : h.ReachesRejected (.ref b)) (hreach : h.Reaches (.ref a) b) :
    h.ReachesRejected (.ref a) := by
  obtain ⟨c, slot, hc, hslot⟩ := hrejected
  rw [reaches_ref] at hreach hc
  exact ⟨c, slot, reaches_ref.mpr (hreach.trans hc), hslot⟩

theorem Errorless.append (hplain : h.Errorless (.ref a)) (hclosed : h.Closed) (ha : a < h.length) (t : Heap) :
    Errorless (h ++ t) (.ref a) := by
  intro address hreach
  rw [reaches_ref, reach_append hclosed ha] at hreach
  rw [cell_append (lt_of_reach hclosed ha hreach)]
  exact hplain address (reaches_ref.mpr hreach)

theorem reachesRejected_append (hclosed : h.Closed) (ha : a < h.length) :
    ReachesRejected (h ++ t) (.ref a) ↔ h.ReachesRejected (.ref a) := by
  apply exists_congr
  intro address
  apply exists_congr
  intro slot
  rw [reaches_ref, reaches_ref, reach_append hclosed ha]
  apply and_congr_right
  intro hreach
  rw [cell_append (lt_of_reach hclosed ha hreach)]

/-- Data is rejected alike when more objects are there. -/
theorem rejects_append (hplain : h.Errorless (.ref a)) (hclosed : h.Closed) (ha : a < h.length) (t : Heap) :
    rejects (h ++ t) (.ref a) = true ↔ h.ReachesRejected (.ref a) := by
  rw [rejects_iff_reachesRejected (hplain.append hclosed ha t), reachesRejected_append hclosed ha]

theorem view_of_ne_ref (h h' : Heap) (depth : ℕ) (hleaf : ∀ a, data ≠ .ref a) :
    h.view depth data = h'.view depth data := by
  cases depth with
  | zero => rfl
  | succ depth =>
    cases data with
    | ref a => exact absurd rfl (hleaf a)
    | _ => rfl

end Heap

/-- A structured clone looks like its original and reaches new objects only. -/
theorem alike_structuredClone {h : Heap} {data : Slot} {result : Heap × Slot} (hplain : h.Errorless data)
    (hrun : structuredClone h data = some result) :
    Alike h data result.1 result.2 ∧ ∀ address, result.1.Reaches result.2 address → h.length ≤ address := by
  obtain ⟨_, rfl⟩ := Heap.structuredClone_eq hrun
  exact ⟨fun depth => (Heap.view_copied hplain depth).symm, fun _ => Heap.reach_copied⟩

end js

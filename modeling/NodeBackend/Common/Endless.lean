import NodeBackend.Common.ObjectRecursion

namespace node_backend.object_recursion

open js graph Relation

variable {fieldsToApply : List FieldName} {valueToReplace : Slot} {h h' : Heap} {a b : ℕ}

/-- The same objects, of the same kind, that hold no more objects than before. -/
def Shrinks (h h' : Heap) : Prop :=
  h'.length = h.length ∧ ∀ a, (h'.cell a).isArray = (h.cell a).isArray ∧ ∀ b, h'.Holds a b → h.Holds a b

theorem Shrinks.refl (h : Heap) : Shrinks h h :=
  ⟨rfl, fun _ => ⟨rfl, fun _ => id⟩⟩

theorem Shrinks.trans {h₁ h₂ h₃ : Heap} (h₁₂ : Shrinks h₁ h₂) (h₂₃ : Shrinks h₂ h₃) : Shrinks h₁ h₃ := by
  refine ⟨h₂₃.1.trans h₁₂.1, fun a => ⟨(h₂₃.2 a).1.trans (h₁₂.2 a).1, ?_⟩⟩
  intro b hb
  exact (h₁₂.2 a).2 b ((h₂₃.2 a).2 b hb)

theorem cell_set (h : Heap) (a b : ℕ) (cell : Cell) :
    Heap.cell (h.set a cell) b = if b = a ∧ a < h.length then cell else h.cell b := by
  rw [Heap.cell, Heap.cell, List.getD_eq_getElem?_getD, List.getD_eq_getElem?_getD, List.getElem?_set]
  by_cases heq : a = b
  · subst heq
    by_cases hlt : a < h.length
    · simp [hlt]
    · simp [hlt]
  · simp [heq, Ne.symm heq]

theorem setOwn_isArray (key : FieldName) (value : Slot) (cell : Cell) :
    (setOwn key value cell).isArray = cell.isArray := by
  cases cell <;> rfl

theorem mem_slots_setOwn {key : FieldName} {value slot : Slot} {cell : Cell}
    (hmem : slot ∈ (setOwn key value cell).slots) : slot ∈ cell.slots ∨ slot = value := by
  cases cell with
  | arr items => exact Or.inl hmem
  | obj prototype fields => exact Fields.mem_values_set hmem
  | error name message fields => exact Fields.mem_values_set hmem

/-- A step of applyFieldReplacement changes one object, and puts no object into it. -/
theorem shrinks_setOwn (hleaf : ∀ address, valueToReplace ≠ .ref address) (key : FieldName) (h : Heap) (a : ℕ) :
    Shrinks h (h.set a (setOwn key valueToReplace (h.cell a))) := by
  refine ⟨List.length_set, ?_⟩
  intro b
  unfold Heap.Holds
  rw [cell_set]
  split
  case isTrue heq =>
    obtain ⟨rfl, _⟩ := heq
    refine ⟨setOwn_isArray key _ _, ?_⟩
    intro inner hinner
    obtain hold | hnew := mem_slots_setOwn hinner
    · exact hold
    · exact absurd hnew.symm (hleaf inner)
  case isFalse => exact ⟨rfl, fun _ => id⟩

/-- applyFieldReplacement shrinks the heap and leaves all other objects alone. -/
theorem applyFieldReplacement_spec (fieldsToApply : List FieldName)
    (hleaf : ∀ address, valueToReplace ≠ .ref address) (h : Heap) (a : ℕ) :
    Shrinks h (applyFieldReplacement h a fieldsToApply valueToReplace) ∧
      ∀ b, b ≠ a → (applyFieldReplacement h a fieldsToApply valueToReplace).cell b = h.cell b := by
  rw [applyFieldReplacement]
  induction fieldsToApply generalizing h with
  | nil => exact ⟨Shrinks.refl h, fun _ _ => rfl⟩
  | cons key rest ih =>
    rw [List.foldl_cons]
    split
    case isTrue =>
      obtain ⟨hshrinks, hothers⟩ := ih (h.set a (setOwn key valueToReplace (h.cell a)))
      refine ⟨(shrinks_setOwn hleaf key h a).trans hshrinks, ?_⟩
      intro b hb
      rw [hothers b hb, cell_set, if_neg (fun hand => hb hand.1)]
    case isFalse => exact ih h

section replacing

variable {recurse : Heap → Slot → Option (Heap × Slot)}

theorem holds_of_getD {place : ℕ} (hslot : (h.cell a).slots.getD place .undefined = .ref b) : h.Holds a b := by
  by_cases hplace : place < (h.cell a).slots.length
  · rw [List.getD_eq_getElem _ _ hplace] at hslot
    rw [Heap.Holds, ← hslot]
    exact List.getElem_mem hplace
  · rw [List.getD_eq_default _ _ (not_lt.mp hplace)] at hslot
    cases hslot

theorem getD_of_holds (hholds : h.Holds a b) :
    ∃ place < (h.cell a).slots.length, (h.cell a).slots.getD place .undefined = .ref b := by
  obtain ⟨place, hplace, hslot⟩ := List.getElem_of_mem hholds
  exact ⟨place, hplace, by rw [List.getD_eq_getElem _ _ hplace, hslot]⟩

/-- A recursion that comes back from an object whatever was replaced before. -/
def ComesBack (recurse : Heap → Slot → Option (Heap × Slot)) (h : Heap) (a : ℕ) : Prop :=
  ∀ h', Shrinks h h' → ∃ result, recurse h' (.ref a) = some result ∧ Shrinks h' result.1

theorem ComesBack.after (hback : ComesBack recurse h a) (hshrinks : Shrinks h h') : ComesBack recurse h' a :=
  fun later hlater => hback later (hshrinks.trans hlater)

theorem replaceItem_ends (hrecurse : ∀ b, h.Holds a b → ComesBack recurse h b) {place : ℕ} (hshrinks : Shrinks h h') :
    ∃ after, replaceItem recurse h' ((h'.cell a).slots.getD place .undefined) = some after ∧ Shrinks h after := by
  cases hslot : (h'.cell a).slots.getD place .undefined with
  | ref b =>
    obtain ⟨result, hresult, hmore⟩ := hrecurse b ((hshrinks.2 a).2 b (holds_of_getD hslot)) h' hshrinks
    exact ⟨result.1, by rw [replaceItem, hresult, Option.map_some], hshrinks.trans hmore⟩
  | _ => exact ⟨h', rfl, hshrinks⟩

theorem replaceInValue_ends (hrecurse : ∀ b, h.Holds a b → ComesBack recurse h b)
    (hinside : ∀ b c, h.Holds a b → h.Holds b c → ComesBack recurse h c) {place : ℕ} (hshrinks : Shrinks h h') :
    ∃ after, replaceInValue recurse h' ((h'.cell a).slots.getD place .undefined) = some after ∧ Shrinks h after := by
  cases hslot : (h'.cell a).slots.getD place .undefined with
  | ref b =>
    have hholds := (hshrinks.2 a).2 b (holds_of_getD hslot)
    rw [replaceInValue]
    split
    case isTrue =>
      exact forEachSlot_ends hshrinks fun h₁ _ h₁₂ => replaceItem_ends (fun c hc => hinside b c hholds hc) h₁₂
    case isFalse =>
      obtain ⟨result, hresult, hmore⟩ := hrecurse b hholds h' hshrinks
      exact ⟨result.1, by rw [hresult, Option.map_some], hshrinks.trans hmore⟩
  | _ => exact ⟨h', rfl, hshrinks⟩

end replacing

/-- Enough for each object that one holds is enough for all of them. -/
theorem enough_held {P : ℕ → ℕ → Prop} (h : Heap) (a : ℕ)
    (hheld : ∀ b, h.Holds a b → ∃ least, ∀ n, least ≤ n → P b n) :
    ∃ least, ∀ n, least ≤ n → ∀ b, h.Holds a b → P b n := by
  obtain ⟨least, henough⟩ := exists_enough (P := fun slot n => ∀ b, slot = .ref b → P b n) (h.cell a).slots (by
      intro slot hslot
      cases slot with
      | ref b =>
        obtain ⟨least, hb⟩ := hheld b hslot
        exact ⟨least, fun n hn c heq => Slot.ref.inj heq ▸ hb n hn⟩
      | _ => exact ⟨0, fun _ _ _ heq => by cases heq⟩)
  exact ⟨least, fun n hn b hb => henough n hn _ hb b rfl⟩

theorem enough_inside {P : ℕ → ℕ → Prop} (h : Heap) (a : ℕ)
    (hheld : ∀ b c, h.Holds a b → h.Holds b c → ∃ least, ∀ n, least ≤ n → P c n) :
    ∃ least, ∀ n, least ≤ n → ∀ b c, h.Holds a b → h.Holds b c → P c n := by
  obtain ⟨least, henough⟩ := enough_held h a fun b hb => enough_held h b fun c hc => hheld b c hb hc
  exact ⟨least, fun n hn b c hb hc => henough n hn b hb c hc⟩

/-- Replacing comes back from every object whose ways all end. -/
theorem replaceFields_comesBack (hleaf : ∀ address, valueToReplace ≠ .ref address) (hground : Grounded h.Holds a) :
    ∃ least, ∀ fuel, least ≤ fuel → ComesBack (replaceFields fieldsToApply valueToReplace fuel) h a := by
  apply Grounded.induction hground
  intro a hchildren hinside
  obtain ⟨least, hheld⟩ := enough_held h a hchildren
  obtain ⟨most, hdeep⟩ := enough_inside h a hinside
  refine ⟨max least most + 1, ?_⟩
  intro fuel hfuel h' hshrinks
  obtain ⟨fuel, rfl⟩ : ∃ fewer, fuel = fewer + 1 := ⟨fuel - 1, by omega⟩
  have hvalues : ∀ b, h'.Holds a b → ComesBack (replaceFields fieldsToApply valueToReplace fuel) h' b :=
    fun b hb => (hheld fuel (by omega) b ((hshrinks.2 a).2 b hb)).after hshrinks
  have hitems : ∀ b c, h'.Holds a b → h'.Holds b c →
      ComesBack (replaceFields fieldsToApply valueToReplace fuel) h' c :=
    fun b c hb hc => (hdeep fuel (by omega) b c ((hshrinks.2 a).2 b hb) ((hshrinks.2 b).2 c hc)).after hshrinks
  obtain ⟨after, hafter, hmore⟩ := forEachSlot_ends (Shrinks.refl h') fun later _ =>
    replaceInValue_ends (a := a) hvalues hitems
  obtain ⟨happlied, _⟩ := applyFieldReplacement_spec fieldsToApply hleaf after a
  refine ⟨(applyFieldReplacement after a fieldsToApply valueToReplace, .ref a), ?_, hmore.trans happlied⟩
  rw [replaceFields, hafter]
  rfl

section checking

theorem checkFieldsExistence_ends (fieldsToApply : List FieldName) (hground : Grounded h.Holds a) :
    ∃ least, ∀ fuel, least ≤ fuel → ∃ b, checkFieldsExistence h fieldsToApply fuel (.ref a) = some b := by
  apply Grounded.induction hground
  intro a hchildren hinside
  obtain ⟨least, hheld⟩ := enough_held h a hchildren
  obtain ⟨most, hdeep⟩ := enough_inside h a hinside
  refine ⟨max least most + 2, ?_⟩
  intro fuel hfuel
  obtain ⟨fuel, rfl⟩ : ∃ fewer, fuel = fewer + 2 := ⟨fuel - 2, by omega⟩
  rw [checkFieldsExistence]
  split
  case isTrue => exact ⟨true, rfl⟩
  case isFalse =>
    apply anyM_ends
    intro value hvalue
    cases value with
    | ref b =>
      change ∃ found, (if (h.cell b).isArray then _ else _) = some found
      split
      case isTrue =>
        apply anyM_ends
        intro item hitem
        cases item with
        | ref c => exact hdeep (fuel + 1) (by omega) b c hvalue hitem
        | _ => exact ⟨false, rfl⟩
      case isFalse => exact hheld (fuel + 1) (by omega) b hvalue
    | _ => exact ⟨false, rfl⟩

end checking

section cutting

/-- An object that is no longer as it was had only ways that end. -/
def Cut (h h' : Heap) : Prop :=
  ∀ a, Grounded h.Holds a ∨ h'.cell a = h.cell a

theorem Cut.refl (h : Heap) : Cut h h :=
  fun _ => Or.inr rfl

theorem Cut.grounded (hcut : Cut h h') (hground : Grounded h'.Holds a) : Grounded h.Holds a := by
  induction hground with
  | intro a _ ih =>
    obtain hdone | hsame := hcut a
    · exact hdone
    · apply Grounded.intro
      intro b hb
      apply ih b
      rwa [Heap.Holds, hsame]

theorem Cut.trans {h₁ h₂ h₃ : Heap} (h₁₂ : Cut h₁ h₂) (h₂₃ : Cut h₂ h₃) : Cut h₁ h₃ := by
  intro a
  obtain hground | hsame := h₂₃ a
  · exact Or.inl (h₁₂.grounded hground)
  · rw [hsame]
    exact h₁₂ a

/-- A step that comes back only from objects whose ways all end, and changes no others. -/
def Grounding (step : Heap → Slot → Option Heap) : Prop :=
  ∀ h slot h', step h slot = some h' → Cut h h' ∧ ∀ b, slot = .ref b → Grounded h.Holds b

/-- A loop over what an object holds that came to its end. -/
theorem grounded_of_loop {step : Heap → Slot → Option Heap} (hstep : Grounding step)
    (hrun : forEachSlot step h a = some h') : Grounded h.Holds a ∧ Cut h h' := by
  obtain ⟨hcut, hsteps⟩ := forEachSlot_run hrun (Cut.refl h)
    fun before _ after hbefore hafter => hbefore.trans (hstep before _ after hafter).1
  refine ⟨?_, hcut⟩
  by_contra hendless
  apply hendless
  apply Grounded.intro
  intro b hb
  obtain ⟨place, hplace, hslot⟩ := getD_of_holds hb
  obtain ⟨before, after, hbefore, hafter⟩ := hsteps place hplace
  obtain hground | hsame := hbefore a
  · exact absurd hground hendless
  · rw [hsame, hslot] at hafter
    exact hbefore.grounded ((hstep _ _ _ hafter).2 b rfl)

variable {recurse : Heap → Slot → Option (Heap × Slot)}

theorem grounding_replaceItem
    (hrecurse : ∀ h a result, recurse h (.ref a) = some result → Grounded h.Holds a ∧ Cut h result.1) :
    Grounding (replaceItem recurse) := by
  intro h slot h' hrun
  cases slot with
  | ref b =>
    obtain ⟨result, hresult, rfl⟩ := Option.map_eq_some_iff.mp hrun
    obtain ⟨hground, hcut⟩ := hrecurse h b result hresult
    exact ⟨hcut, fun c heq => Slot.ref.inj heq ▸ hground⟩
  | _ =>
    cases hrun
    exact ⟨Cut.refl h, fun _ heq => by cases heq⟩

theorem grounding_replaceInValue
    (hrecurse : ∀ h a result, recurse h (.ref a) = some result → Grounded h.Holds a ∧ Cut h result.1) :
    Grounding (replaceInValue recurse) := by
  intro h slot h' hrun
  cases slot with
  | ref b =>
    rw [replaceInValue] at hrun
    split at hrun
    case isTrue =>
      obtain ⟨hground, hcut⟩ := grounded_of_loop (grounding_replaceItem hrecurse) hrun
      exact ⟨hcut, fun c heq => Slot.ref.inj heq ▸ hground⟩
    case isFalse => exact grounding_replaceItem hrecurse h (.ref b) h' hrun
  | _ =>
    cases hrun
    exact ⟨Cut.refl h, fun _ heq => by cases heq⟩

/-- Replacing that came back had only ways that end before it. -/
theorem grounded_of_replaceFields (hleaf : ∀ address, valueToReplace ≠ .ref address) {fuel : ℕ}
    {result : Heap × Slot} (hrun : replaceFields fieldsToApply valueToReplace fuel h (.ref a) = some result) :
    Grounded h.Holds a ∧ Cut h result.1 := by
  induction fuel generalizing h a result with
  | zero => cases hrun
  | succ fuel ih =>
    rw [replaceFields, Option.bind_eq_bind, Option.bind_eq_some_iff] at hrun
    obtain ⟨after, hafter, heq⟩ := hrun
    cases heq
    obtain ⟨hground, hcut⟩ := grounded_of_loop (grounding_replaceInValue fun _ _ _ => ih) hafter
    refine ⟨hground, ?_⟩
    intro b
    by_cases heq : b = a
    · exact Or.inl (heq ▸ hground)
    · rw [(applyFieldReplacement_spec fieldsToApply hleaf after a).2 b heq]
      exact hcut b

end cutting

section cloning

/-- Objects with more of them behind, where every value that a new object was given so far
is sound. -/
def Building (h : Heap) (state : Heap × Prototype × Fields) : Prop :=
  (∃ t, state.1 = h ++ t) ∧ state.1.Closed ∧ ∀ slot ∈ state.2.2.values, state.1.Sound slot

theorem mem_values_assign {newObj : Prototype × Fields} {key : String} {value slot : Slot}
    (hmem : slot ∈ (assign newObj key value).2.values) : slot ∈ newObj.2.values ∨ slot = value := by
  unfold assign at hmem
  split at hmem
  case isTrue =>
    left
    split at hmem <;> exact hmem
  case isFalse => exact Fields.mem_values_set hmem

theorem Building.assign {state : Heap × Prototype × Fields} (hbuilding : Building h state) (key : String)
    {value : Slot} (hvalue : state.1.Sound value) : Building h (state.1, assign state.2 key value) := by
  obtain ⟨hextends, hclosed, hvalues⟩ := hbuilding
  refine ⟨hextends, hclosed, ?_⟩
  intro slot hslot
  obtain hold | rfl := mem_values_assign hslot
  · exact hvalues slot hold
  · exact hvalue

/-- A value that a clone was made of, and what came of it. -/
def Cloned (h : Heap) (result : Heap × Slot) : Prop :=
  (∃ t, result.1 = h ++ t) ∧ result.1.Closed ∧ result.1.Sound result.2

theorem Building.grow {state : Heap × Prototype × Fields} {result : Heap × Slot} (hbuilding : Building h state)
    (hcloned : Cloned state.1 result) : Building h (result.1, state.2) := by
  obtain ⟨⟨t, hextends⟩, hclosed, hvalues⟩ := hbuilding
  obtain ⟨⟨more, hmore⟩, hresult, _⟩ := hcloned
  refine ⟨⟨t ++ more, by rw [hmore, hextends, List.append_assoc]⟩, hresult, ?_⟩
  intro slot hslot
  change result.1.Sound slot
  rw [hmore]
  exact (hvalues slot hslot).append hclosed more

theorem sound_not_ref {value : Slot} (h : Heap) (hleaf : ∀ address, value ≠ .ref address) : h.Sound value :=
  fun a heq => absurd heq (hleaf a)

/-- One entry, where the recursion ends on every object that may be met. -/
theorem cloneEntry_ends {recurse : Heap → Slot → Option (Heap × Slot)} {state : Heap × Prototype × Fields}
    {entry : String × Slot} (hentry : h.Sound entry.2) (hclosed : h.Closed)
    (hrecurse : ∀ b t, entry.2 = .ref b → Heap.Closed (h ++ t) →
      ∃ result, recurse (h ++ t) (.ref b) = some result ∧ Cloned (h ++ t) result)
    (hbuilding : Building h state) :
    ∃ after, cloneEntry recurse state entry = some after ∧ Building h after := by
  obtain ⟨key, value⟩ := entry
  obtain ⟨⟨t, hextends⟩, hstate, _⟩ := id hbuilding
  rw [cloneEntry]
  cases value with
  | ref inner =>
    dsimp only
    split
    case isTrue =>
      refine ⟨_, rfl, hbuilding.assign key ?_⟩
      rw [hextends]
      exact hentry.append hclosed t
    case isFalse =>
      obtain ⟨result, hresult, hcloned⟩ := hrecurse inner t rfl (hextends ▸ hstate)
      rw [← hextends] at hresult hcloned
      rw [hresult]
      exact ⟨_, rfl, (hbuilding.grow hcloned).assign key hcloned.2.2⟩
  | _ => exact ⟨_, rfl, hbuilding.assign key (sound_not_ref _ (by simp))⟩

theorem cloned_of_structuredClone {data : Slot} {result : Heap × Slot} (hclosed : h.Closed) (hsound : h.Sound data)
    (hrun : structuredClone h data = some result) : Cloned h result :=
  Heap.sound_structuredClone hclosed hsound hrun

theorem sound_of_mem_entries {entry : String × Slot} (hclosed : h.Closed) (hground : Grounded h.Holds a)
    (hentry : entry ∈ (h.cell a).entries) : h.Sound entry.2 := by
  intro b heq
  have hholds := Heap.holds_of_mem_entries hentry heq
  exact ⟨hclosed _ _ hholds, hground.step hholds⟩

/-- Cloning ends on every object whose ways all end. -/
theorem cloneObject_ends (hclosed : h.Closed) (ha : a < h.length) (hground : Grounded h.Holds a) :
    ∃ least, ∀ fuel, least ≤ fuel → ∀ t, Heap.Closed (h ++ t) →
      ∃ result, cloneObject fuel (h ++ t) (.ref a) = some result ∧ Cloned (h ++ t) result := by
  induction hground with
  | intro a hbelow ih =>
    have hground : Grounded h.Holds a := Acc.intro a hbelow
    obtain ⟨least, hheld⟩ := enough_held h a fun b hb => ih b hb (hclosed _ _ hb)
    refine ⟨least + 1, ?_⟩
    intro fuel hfuel t ht
    obtain ⟨fuel, rfl⟩ : ∃ fewer, fuel = fewer + 1 := ⟨fuel - 1, by omega⟩
    have hdata : Heap.Sound (h ++ t) (.ref a) :=
      Heap.Sound.append (h := h) (fun b heq => Slot.ref.inj heq ▸ ⟨ha, hground⟩) hclosed t
    rw [cloneObject]
    cases hclone : structuredClone (h ++ t) (.ref a) with
    | some result => exact ⟨result, rfl, cloned_of_structuredClone ht hdata hclone⟩
    | none =>
      have hstart : Building (h ++ t) (h ++ t, (.usual, .empty)) :=
        ⟨⟨[], (List.append_nil _).symm⟩, ht, by simp⟩
      have hloop : ∃ state, (ownEntries (h ++ t) (.ref a)).foldlM (cloneEntry (cloneObject fuel))
          (h ++ t, (.usual, .empty)) = some state ∧ Building (h ++ t) state := by
        apply foldlM_ends hstart
        intro state entry hentry hbuilding
        rw [ownEntries, Heap.cell_append ha] at hentry
        have hsound := sound_of_mem_entries hclosed hground hentry
        refine cloneEntry_ends (hsound.append hclosed t) ht ?_ hbuilding
        intro b more heq hmore
        rw [List.append_assoc] at hmore ⊢
        exact hheld fuel (by omega) b (Heap.holds_of_mem_entries hentry heq) (t ++ more) hmore
      obtain ⟨state, hstate, hextends, hclosedState, hvalues⟩ := hloop
      rw [Option.bind_eq_bind, hstate]
      refine ⟨_, rfl, ?_, ?_, ?_⟩
      · obtain ⟨more, hmore⟩ := hextends
        exact ⟨more ++ _, by rw [hmore, List.append_assoc]⟩
      · exact Heap.closed_concat hclosedState hvalues
      · exact Heap.sound_concat hclosedState hvalues

theorem cloneEntry_mono {recurse more : Heap → Slot → Option (Heap × Slot)}
    (hmore : ∀ h slot result, recurse h slot = some result → more h slot = some result)
    (state : Heap × Prototype × Fields) (entry : String × Slot) (after : Heap × Prototype × Fields)
    (hrun : cloneEntry recurse state entry = some after) : cloneEntry more state entry = some after := by
  obtain ⟨key, value⟩ := entry
  cases value with
  | ref inner =>
    rw [cloneEntry] at hrun ⊢
    dsimp only at hrun ⊢
    split
    case isTrue harray => rwa [if_pos harray] at hrun
    case isFalse harray =>
      rw [if_neg harray, Option.bind_eq_bind, Option.bind_eq_some_iff] at hrun
      obtain ⟨result, hresult, heq⟩ := hrun
      rw [hmore _ _ _ hresult]
      exact heq
  | _ => exact hrun

/-- More fuel changes nothing of a clone that is done. -/
theorem cloneObject_mono {fuel more : ℕ} (hle : fuel ≤ more) {data : Slot} {result : Heap × Slot}
    (hrun : cloneObject fuel h data = some result) : cloneObject more h data = some result := by
  induction fuel generalizing more h data result with
  | zero => cases hrun
  | succ fuel ih =>
    obtain ⟨more, rfl⟩ : ∃ fewer, more = fewer + 1 := ⟨more - 1, by omega⟩
    rw [cloneObject] at hrun ⊢
    cases hclone : structuredClone h data with
    | some cloned => rwa [hclone] at hrun
    | none =>
      rw [hclone] at hrun
      dsimp only at hrun ⊢
      rw [Option.bind_eq_bind, Option.bind_eq_some_iff] at hrun
      obtain ⟨state, hstate, heq⟩ := hrun
      have hsteps : (ownEntries h data).foldlM (cloneEntry (cloneObject more)) (h, (.usual, .empty)) = some state :=
        foldlM_mono (cloneEntry_mono fun _ _ _ hrun => ih (by omega) hrun) hstate
      rw [hsteps]
      exact heq

end cloning

/-- A function with fuel that comes to an end with some of it. -/
def Ends {Result : Type} (run : ℕ → Option Result) : Prop :=
  ∃ fuel, (run fuel).isSome = true

/-- Masking ends on all data that does not reach a cycle. -/
theorem maskObjectSensitiveData_ends {data : Slot} (hclosed : h.Closed) (hsound : h.Sound data) :
    Ends fun fuel => maskObjectSensitiveData fuel h data := by
  cases data with
  | ref a =>
    obtain ⟨ha, hground⟩ := hsound a rfl
    obtain ⟨checks, hchecks⟩ := checkFieldsExistence_ends SENSITIVE_DATA_FIELDS hground
    obtain ⟨clones, hclones⟩ := cloneObject_ends hclosed ha hground
    obtain ⟨⟨newHeap, newData⟩, hclone, _, hclosedNew, hsoundNew⟩ := hclones clones le_rfl [] (by simpa using hclosed)
    rw [List.append_nil] at hclone
    have hreplace : ∃ least, ∀ fuel, least ≤ fuel →
        ∃ result, replaceFields SENSITIVE_DATA_FIELDS STRING_TO_REPLACE fuel newHeap newData = some result := by
      cases newData with
      | ref b =>
        have hback : ∃ least, ∀ fuel, least ≤ fuel →
            ComesBack (replaceFields SENSITIVE_DATA_FIELDS STRING_TO_REPLACE fuel) newHeap b :=
          replaceFields_comesBack (by simp [STRING_TO_REPLACE]) (hsoundNew b rfl).2
        obtain ⟨least, hback⟩ := hback
        refine ⟨least, fun fuel hfuel => ?_⟩
        obtain ⟨result, hresult, _⟩ := hback fuel hfuel newHeap (Shrinks.refl newHeap)
        exact ⟨result, hresult⟩
      | _ => exact ⟨1, fun fuel hfuel => by
          obtain ⟨fuel, rfl⟩ : ∃ fewer, fuel = fewer + 1 := ⟨fuel - 1, by omega⟩
          exact ⟨_, rfl⟩⟩
    obtain ⟨replaces, hreplaces⟩ := hreplace
    let fuel := max checks (max clones replaces)
    obtain ⟨sensitive, hcheck⟩ := hchecks fuel (by omega)
    obtain ⟨result, hresult⟩ := hreplaces fuel (by omega)
    refine ⟨fuel, ?_⟩
    change ((checkFieldsExistence h SENSITIVE_DATA_FIELDS fuel (.ref a)).bind _).isSome = true
    rw [hcheck]
    cases sensitive with
    | true =>
      change ((cloneObject fuel h (.ref a)).bind _).isSome = true
      rw [cloneObject_mono (by omega) hclone]
      change (replaceFields _ _ fuel newHeap newData).isSome = true
      rw [hresult]
      rfl
    | false => rfl
  | _ => exact ⟨0, rfl⟩

/-- The graph of data that reaches no cycle comes to an end everywhere. -/
theorem sound_iff_acyclic {data : Slot} (hallocated : ∀ address, data = .ref address → address < h.length) :
    h.Sound data ↔ ∀ address, h.Reaches data address → ¬ TransGen h.Holds address address := by
  constructor
  · intro hsound address hreaches
    obtain ⟨root, rfl, hreach⟩ := hreaches
    exact (hsound root rfl).2.acyclic address hreach
  · intro hacyclic address heq
    subst heq
    refine ⟨hallocated address rfl, ?_⟩
    rw [grounded_iff_acyclic (h.finite_reach address)]
    intro b hreach
    exact hacyclic b (Heap.reaches_ref.mpr hreach)

/-- Checking, replacing and masking all end exactly on data that reaches no cycle. -/
theorem masking_ends_iff (objects : ObjectGraph) (fieldsToApply : List FieldName) (valueToReplace : String) :
    ((Ends fun fuel => checkFieldsExistence objects.heap fieldsToApply fuel objects.data) ∧
      (Ends fun fuel => replaceFields fieldsToApply (.str valueToReplace) fuel objects.heap objects.data) ∧
      Ends fun fuel => maskObjectSensitiveData fuel objects.heap objects.data) ↔
    ∀ address, objects.heap.Reaches objects.data address → ¬ TransGen objects.heap.Holds address address := by
  rw [← sound_iff_acyclic objects.allocated]
  have hleaf : ∀ address, Slot.str valueToReplace ≠ .ref address := by simp
  constructor
  · intro hends
    obtain ⟨_, ⟨fuel, hreplaced⟩, _⟩ := hends
    intro a ha
    rw [ha] at hreplaced
    obtain ⟨result, hresult⟩ := Option.isSome_iff_exists.mp hreplaced
    exact ⟨objects.allocated a ha, (grounded_of_replaceFields hleaf hresult).1⟩
  · intro hsound
    refine ⟨?_, ?_, maskObjectSensitiveData_ends objects.closed hsound⟩
    · cases hdata : objects.data with
      | ref a =>
        obtain ⟨least, hchecks⟩ := checkFieldsExistence_ends fieldsToApply (hsound a hdata).2
        obtain ⟨sensitive, hcheck⟩ := hchecks least le_rfl
        exact ⟨least, Option.isSome_iff_exists.mpr ⟨sensitive, hcheck⟩⟩
      | _ => exact ⟨1, rfl⟩
    · cases hdata : objects.data with
      | ref a =>
        have hback : ∃ least, ∀ fuel, least ≤ fuel →
            ComesBack (replaceFields fieldsToApply (.str valueToReplace) fuel) objects.heap a :=
          replaceFields_comesBack hleaf (hsound a hdata).2
        obtain ⟨least, hback⟩ := hback
        obtain ⟨result, hresult, _⟩ := hback least le_rfl objects.heap (Shrinks.refl _)
        exact ⟨least, Option.isSome_iff_exists.mpr ⟨result, hresult⟩⟩
      | _ => exact ⟨1, rfl⟩

/-- An object whose only field is itself. -/
def selfHeld : ObjectGraph where
  heap := [.obj .usual ⟨[("self", .ref 0)], by simp⟩]
  data := .ref 0
  closed := by
    apply Heap.closed_of_mem
    simp [Cell.slots, Fields.values]
  allocated := by simp

/-- None of the three ends on an object that holds itself. -/
theorem masking_endless :
    ¬ ∀ (objects : ObjectGraph) (fieldsToApply : List FieldName) (valueToReplace : String),
      (Ends fun fuel => checkFieldsExistence objects.heap fieldsToApply fuel objects.data) ∧
      (Ends fun fuel => replaceFields fieldsToApply (.str valueToReplace) fuel objects.heap objects.data) ∧
      Ends fun fuel => maskObjectSensitiveData fuel objects.heap objects.data := by
  intro hclaim
  obtain ⟨_, _, fuel, hmasked⟩ := hclaim selfHeld SENSITIVE_DATA_FIELDS "***"
  have hcheck : ∀ fuel, checkFieldsExistence selfHeld.heap SENSITIVE_DATA_FIELDS fuel (.ref 0) = none := by
    intro fuel
    induction fuel with
    | zero => rfl
    | succ fuel ih =>
      have hplain : hasFieldsAtCurrentObjectLevel selfHeld.heap 0 SENSITIVE_DATA_FIELDS = false := by decide
      rw [checkFieldsExistence, hplain]
      change (checkFieldsExistence selfHeld.heap SENSITIVE_DATA_FIELDS fuel (.ref 0)).bind _ = none
      rw [ih]
      rfl
  have hnone : maskObjectSensitiveData fuel selfHeld.heap selfHeld.data = none := by
    change (checkFieldsExistence selfHeld.heap SENSITIVE_DATA_FIELDS fuel (.ref 0)).bind _ = none
    rw [hcheck]
    rfl
  change (maskObjectSensitiveData fuel selfHeld.heap selfHeld.data).isSome = true at hmasked
  rw [hnone] at hmasked
  cases hmasked

end node_backend.object_recursion

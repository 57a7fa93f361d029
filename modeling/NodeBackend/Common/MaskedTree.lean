import NodeBackend.Common.Endless
import NodeBackend.Common.Masks
import NodeBackend.Js.Tree

namespace node_backend.object_recursion

open js graph

variable {fieldsToApply : List FieldName} {h h' : Heap} {value : json.Value} {slot : Slot} {places : List ℕ}
  {address : ℕ} {named : List (String × Branch)} {cell : Cell}

section gate

variable (hnamed : masks.Named (fieldsToApply.map FieldName.name))

theorem hasFields_shape (hshape : Shape (h.cell address) named value) :
    hasFieldsAtCurrentObjectLevel h address fieldsToApply =
      masks.hasFieldsAtCurrentObjectLevel value (fieldsToApply.map FieldName.name) := by
  have hkeys : masks.getObjKeys value = (h.cell address).entries.map Prod.fst := by
    rw [hshape.entries]
    generalize h.cell address = cell at hshape
    cases hshape with
    | arr branches =>
      have hindices : branches.zipIdx.map Prod.snd = List.range branches.length := by simp [List.range_eq_range']
      rw [masks.getObjKeys, masks.indexKeys, List.length_map, ← hindices, numbered]
      simp only [List.map_map]
      rfl
    | obj hentries => simp [masks.getObjKeys, Function.comp_def]
  rw [hasFieldsAtCurrentObjectLevel, masks.hasFieldsAtCurrentObjectLevel, hkeys, List.any_map]
  congr 1
  funext entry
  rw [Function.comp_apply, Bool.eq_iff_iff]
  simp

include hnamed

/-- The gate looks at the names of an object, and at all that it holds. -/
theorem check_shape (hshape : Shape cell named value) :
    masks.checkFieldsExistence (fieldsToApply.map FieldName.name) value =
      (masks.hasFieldsAtCurrentObjectLevel value (fieldsToApply.map FieldName.name) ||
        named.any fun branch => masks.checkFieldsExistence (fieldsToApply.map FieldName.name) branch.2.value) := by
  cases hshape with
  | arr branches =>
    have hinner : (numbered branches).any (fun branch => masks.checkFieldsExistence
        (fieldsToApply.map FieldName.name) branch.2.value) = (branches.map Branch.value).any
          (masks.checkFieldsExistence (fieldsToApply.map FieldName.name)) := by
      rw [← map_snd_numbered branches, List.map_map, List.any_map, map_snd_numbered]
      rfl
    rw [hnamed.check_arr, masks.hasFieldsAtCurrentObjectLevel, masks.getObjKeys, hnamed.not_index, Bool.false_or,
      hinner]
  | obj hentries => rw [masks.checkFieldsExistence, hnamed.checkProperties_eq_any, List.any_map]; rfl

theorem check_leaf (hleaf : Leaf value slot) :
    masks.checkFieldsExistence (fieldsToApply.map FieldName.name) value = false := by
  obtain ⟨hbool, hnum, hstr⟩ := hnamed.check_primitive
  cases hleaf with
  | null => rw [masks.checkFieldsExistence]
  | bool b => exact hbool b
  | num n => exact hnum n.number
  | str s => exact hstr s

/-- Array.some over the items of an array. -/
theorem anyM_items_represents (hvalue : Represents h value (.ref address) places)
    (harray : (h.cell address).isArray = true) {test : Slot → Option Bool}
    (htest : ∀ branch : Branch, Represents h branch.value branch.slot branch.places →
      branch.places.length < places.length →
        test branch.slot = some (masks.checkFieldsExistence (fieldsToApply.map FieldName.name) branch.value)) :
    (h.cell address).slots.anyM test = some (masks.checkFieldsExistence (fieldsToApply.map FieldName.name) value) := by
  cases hvalue with
  | leaf hleaf => exact absurd rfl (hleaf.ne_ref address)
  | object hlt hshape hbranches hapart hfresh =>
    generalize hcell : h.cell address = cell at hshape harray
    have hslots := hshape.slots
    have hcheck := check_shape hnamed hshape
    cases hshape with
    | obj hentries => cases harray
    | arr branches =>
      rw [hcheck, hslots, masks.hasFieldsAtCurrentObjectLevel, masks.getObjKeys, hnamed.not_index, Bool.false_or]
      apply anyM_map_eq_any
      intro branch hbranch
      have hlength := Represents.length_places_le hbranch
      exact htest branch.2 (hbranches branch hbranch) (by rw [List.length_cons]; omega)

/-- The gate opens for a tree where it opens for the value. -/
theorem checkFieldsExistence_represents (hvalue : Represents h value slot places) {fuel : ℕ}
    (hfuel : places.length < fuel) : checkFieldsExistence h fieldsToApply fuel slot =
      some (masks.checkFieldsExistence (fieldsToApply.map FieldName.name) value) := by
  induction fuel generalizing value slot places with
  | zero => omega
  | succ fuel ih =>
    cases hvalue with
    | leaf hleaf =>
      rw [check_leaf hnamed hleaf]
      cases hleaf <;> rfl
    | @object value address named hlt hshape hbranches hapart hfresh =>
      have hwhole := Represents.object hlt hshape hbranches hapart hfresh
      rw [List.length_cons] at hfuel
      rw [checkFieldsExistence, hasFields_shape hshape, check_shape hnamed hshape, hshape.slots]
      cases masks.hasFieldsAtCurrentObjectLevel value (fieldsToApply.map FieldName.name) with
      | true => rfl
      | false =>
        rw [if_neg Bool.false_ne_true, Bool.false_or]
        apply anyM_map_eq_any
        intro branch hbranch
        have hlength := Represents.length_places_le hbranch
        have hinner := hbranches branch hbranch
        have hchecked := ih hinner (by omega)
        split
        · next inner heq =>
          split
          · next harray =>
            rw [heq] at hinner
            exact anyM_items_represents hnamed hinner harray fun item hitem hless => ih hitem (by omega)
          · exact heq ▸ hchecked
        · next hprimitive =>
          generalize branch.2.value = value, branch.2.slot = slot, branch.2.places = places at *
          cases hinner with
          | leaf hleaf => rw [check_leaf hnamed hleaf]
          | object => exact absurd rfl (hprimitive _)

end gate

/-- The objects there are stay, and only some of them change. -/
def Confined (h h' : Heap) (places : List ℕ) : Prop :=
  h'.length = h.length ∧ ∀ address, address ∉ places → h'.cell address = h.cell address

theorem Confined.refl (h : Heap) (places : List ℕ) : Confined h h places :=
  ⟨rfl, fun _ _ => rfl⟩

theorem Confined.trans {h₁ h₂ h₃ : Heap} (h₁₂ : Confined h₁ h₂ places) (h₂₃ : Confined h₂ h₃ places) :
    Confined h₁ h₃ places :=
  ⟨h₂₃.1.trans h₁₂.1, fun address haddress => (h₂₃.2 address haddress).trans (h₁₂.2 address haddress)⟩

theorem Confined.mono {more : List ℕ} (hconfined : Confined h h' places) (hsub : places ⊆ more) :
    Confined h h' more :=
  ⟨hconfined.1, fun address haddress => hconfined.2 address fun hmem => haddress (hsub hmem)⟩

variable (fieldsToApply) (replacement : json.Value)

/-- A tree in the place of a branch has the fields of the branch replaced. -/
def Replaced (h : Heap) (branch : Branch) : Prop :=
  ∃ places, Represents h (masks.maskFields (fieldsToApply.map FieldName.name) replacement branch.value) branch.slot
    places ∧ places ⊆ branch.places

/-- A step that replaces the fields of a branch in place. -/
def Replaces (step : Heap → Slot → Option Heap) (branch : Branch) : Prop :=
  ∀ h, Represents h branch.value branch.slot branch.places →
    ∃ h', step h branch.slot = some h' ∧ Confined h h' branch.places ∧ Replaced fieldsToApply replacement h' branch

/-- A branch with its fields replaced, and what addresses are left of it. -/
def maskedBranch (left : Branch → List ℕ) (branch : Branch) : Branch where
  value := masks.maskFields (fieldsToApply.map FieldName.name) replacement branch.value
  slot := branch.slot
  places := left branch

/-- What an object has under a name when its fields are replaced. -/
def maskedField (valueToReplace : Slot) (left : Branch → List ℕ) (field : String × Branch) : Branch :=
  if field.1 ∈ fieldsToApply.map FieldName.name then ⟨replacement, valueToReplace, []⟩
  else maskedBranch fieldsToApply replacement left field.2

variable {fieldsToApply replacement} {valueToReplace : Slot} {step : Heap → Slot → Option Heap}

theorem Replaced.frame {branch : Branch} (hreplaced : Replaced fieldsToApply replacement h branch)
    (hconfined : Confined h h' places) (hapart : branch.places.Disjoint places) :
    Replaced fieldsToApply replacement h' branch := by
  obtain ⟨within, hvalue, hsub⟩ := hreplaced
  exact ⟨within, hvalue.frame hconfined.1.ge fun address haddress =>
    hconfined.2 address fun hmem => hapart (hsub haddress) hmem, hsub⟩

theorem maskFields_leaf (hleaf : Leaf value slot) :
    masks.maskFields (fieldsToApply.map FieldName.name) replacement value = value := by
  cases hleaf <;> rfl

theorem replaced_leaf (hleaf : Leaf value slot) (h : Heap) (places : List ℕ) :
    Replaced fieldsToApply replacement h ⟨value, slot, places⟩ :=
  ⟨[], (maskFields_leaf hleaf).symm ▸ .leaf hleaf, List.nil_subset places⟩

/-- The loop replaces the fields of one branch after another. -/
theorem foldlM_replaces {slots : List Slot} {start : ℕ} (hslots : (h.cell address).slots = slots)
    (hdrop : slots.drop start = named.map fun branch => branch.2.slot)
    (hbranches : ∀ branch ∈ named, Represents h branch.2.value branch.2.slot branch.2.places)
    (hapart : named.Pairwise fun branch other => branch.2.places.Disjoint other.2.places)
    (hfresh : ∀ branch ∈ named, address ∉ branch.2.places)
    (hstep : ∀ branch ∈ named, Replaces fieldsToApply replacement step branch.2) :
    ∃ h', (List.range' start named.length).foldlM
        (fun h place => step h ((h.cell address).slots.getD place .undefined)) h = some h' ∧
      Confined h h' (named.flatMap fun branch => branch.2.places) ∧
      ∀ branch ∈ named, Replaced fieldsToApply replacement h' branch.2 := by
  induction named generalizing h start with
  | nil => exact ⟨h, rfl, Confined.refl h _, by simp⟩
  | cons branch rest ih =>
    rw [List.pairwise_cons] at hapart
    rw [List.forall_mem_cons] at hbranches hfresh hstep
    obtain ⟨h₁, hrun, hconfined, hreplaced⟩ := hstep.1 h hbranches.1
    have hslot : slots.getD start .undefined = branch.2.slot := by
      rw [List.getD_eq_getElem?_getD, ← List.head?_drop, hdrop]
      rfl
    have hcell : h₁.cell address = h.cell address := hconfined.2 address hfresh.1
    have hrest : slots.drop (start + 1) = rest.map fun branch => branch.2.slot := by
      rw [← List.tail_drop, hdrop]
      rfl
    obtain ⟨h₂, hloop, hmore, hdone⟩ := ih (hcell ▸ hslots) hrest
      (fun other hother => (hbranches.2 other hother).frame hconfined.1.ge fun inner hinner =>
        hconfined.2 inner fun hmem => hapart.1 other hother hmem hinner) hapart.2 hfresh.2 hstep.2
    refine ⟨h₂, ?_, (hconfined.mono ?_).trans (hmore.mono ?_), ?_⟩
    · rw [List.length_cons, List.range'_succ, List.foldlM_cons, hslots, hslot, hrun]
      exact hloop
    · simp
    · simp
    · rw [List.forall_mem_cons]
      refine ⟨hreplaced.frame hmore ?_, hdone⟩
      intro inner hinner hmem
      obtain ⟨other, hother, hagain⟩ := List.mem_flatMap.mp hmem
      exact hapart.1 other hother hinner hagain

/-- The loop over what an object holds leaves the object itself alone. -/
theorem forEachSlot_replaces (hshape : Shape (h.cell address) named value)
    (hbranches : ∀ branch ∈ named, Represents h branch.2.value branch.2.slot branch.2.places)
    (hapart : named.Pairwise fun branch other => branch.2.places.Disjoint other.2.places)
    (hfresh : ∀ branch ∈ named, address ∉ branch.2.places)
    (hstep : ∀ branch ∈ named, Replaces fieldsToApply replacement step branch.2) :
    ∃ h', forEachSlot step h address = some h' ∧ h'.cell address = h.cell address ∧
      Confined h h' (address :: named.flatMap fun branch => branch.2.places) ∧
      ∀ branch ∈ named, Replaced fieldsToApply replacement h' branch.2 := by
  have hdrop : (h.cell address).slots.drop 0 = named.map fun branch => branch.2.slot := hshape.slots
  obtain ⟨h', hrun, hconfined, hdone⟩ := foldlM_replaces rfl hdrop hbranches hapart hfresh hstep
  refine ⟨h', ?_, hconfined.2 address ?_, hconfined.mono (List.subset_cons_self address _), hdone⟩
  · rw [forEachSlot, List.range_eq_range', hshape.slots, List.length_map]
    exact hrun
  · intro hmem
    obtain ⟨branch, hbranch, hinner⟩ := List.mem_flatMap.mp hmem
    exact hfresh branch hbranch hinner

/-- An array whose items had their fields replaced. -/
theorem replaced_array {branches : List Branch} (hlt : address < h.length)
    (hcell : h.cell address = .arr (branches.map Branch.slot))
    (hreplaced : ∀ branch ∈ numbered branches, Replaced fieldsToApply replacement h branch.2)
    (hapart : (numbered branches).Pairwise fun branch other => branch.2.places.Disjoint other.2.places)
    (hfresh : ∀ branch ∈ numbered branches, address ∉ branch.2.places) :
    Replaced fieldsToApply replacement h ⟨.arr (branches.map Branch.value), .ref address,
      address :: (numbered branches).flatMap fun branch => branch.2.places⟩ := by
  have hwithin : ∀ branch ∈ branches, Replaced fieldsToApply replacement h branch := by
    intro branch hbranch
    rw [← map_snd_numbered branches] at hbranch
    obtain ⟨entry, hentry, rfl⟩ := List.mem_map.mp hbranch
    exact hreplaced entry hentry
  have hmem : ∀ entry ∈ numbered branches, entry.2 ∈ branches := by
    intro entry hentry
    rw [← map_snd_numbered branches]
    exact List.mem_map_of_mem hentry
  choose! left hvalue hsub using hwithin
  have hshape := Shape.arr (branches.map (maskedBranch fieldsToApply replacement left))
  rw [numbered_map, List.map_map] at hshape
  obtain ⟨places, hwhole, hplaces⟩ := Represents.rebuilt hlt (hcell ▸ hshape)
    (fun entry hentry => hvalue _ (hmem entry hentry)) (fun entry hentry => hsub _ (hmem entry hentry)) hapart hfresh
  refine ⟨places, ?_, hplaces⟩
  rw [List.map_map] at hwhole
  rw [masks.maskFields, masks.maskItemList_eq_map, List.map_map]
  exact hwhole

section assignment

variable {fields : Fields}

theorem get_usual (hcell : h.cell address = .obj .usual fields) (key : FieldName) (fuel : ℕ) :
    get h key (fuel + 1) address = (fields.get key.name).getD .undefined := by
  rw [get, hcell]
  dsimp only
  cases fields.get key.name <;> rfl

/-- applyFieldReplacement writes those fields that a plain object has, one after another. -/
theorem applyFieldReplacement_foldl (keys : List FieldName) (hvalue : valueToReplace ≠ .undefined)
    (hlt : address < h.length) (hcell : h.cell address = .obj .usual fields) (hdefined : .undefined ∉ fields.values) :
    ∃ fields', (applyFieldReplacement h address keys valueToReplace).cell address = .obj .usual fields' ∧
      fields'.entries = (keys.map FieldName.name).foldl (fun acc key =>
        if (acc.lookup key).isSome then json.setField acc key valueToReplace else acc) fields.entries := by
  induction keys generalizing h fields with
  | nil => exact ⟨fields, hcell, rfl⟩
  | cons key rest ih =>
    rw [applyFieldReplacement, List.foldl_cons, get_usual hcell, List.map_cons, List.foldl_cons]
    cases hget : fields.get key.name with
    | none =>
      rw [Fields.get] at hget
      rw [Option.getD_none, if_neg (not_not.mpr rfl), hget]
      exact ih hlt hcell hdefined
    | some old =>
      rw [Fields.get] at hget
      have hold : old ≠ .undefined := by
        intro heq
        exact hdefined (heq ▸ List.mem_map_of_mem (json.mem_of_lookup hget))
      have hset : Heap.cell (h.set address (setOwn key valueToReplace (h.cell address))) address =
          .obj .usual (fields.set key.name valueToReplace) := by
        rw [cell_set, if_pos ⟨rfl, hlt⟩, hcell]
        rfl
      rw [Option.getD_some, if_pos hold, hget, Option.isSome_some, if_pos rfl]
      refine ih (by rwa [List.length_set]) hset fun hmem => ?_
      obtain hfield | heq := Fields.mem_values_set hmem
      · exact hdefined hfield
      · exact hvalue heq.symm

theorem applyFieldReplacement_array {items : List Slot} (keys : List FieldName)
    (hcell : h.cell address = .arr items) : applyFieldReplacement h address keys valueToReplace = h := by
  rw [applyFieldReplacement]
  induction keys with
  | nil => rfl
  | cons key rest ih =>
    rw [List.foldl_cons, get, hcell, if_neg (not_not.mpr rfl)]
    exact ih

end assignment

theorem maskFields_named (valueToReplace : Slot) (left : Branch → List ℕ) (named : List (String × Branch)) :
    masks.maskFields (fieldsToApply.map FieldName.name) replacement
      (.obj (named.map fun branch => (branch.1, branch.2.value))) =
        .obj ((named.map fun entry => (entry.1, maskedField fieldsToApply replacement valueToReplace left entry)).map
          fun branch => (branch.1, branch.2.value)) := by
  rw [masks.maskFields, masks.maskFieldList_eq_map, List.map_map, List.map_map]
  refine congrArg _ (List.map_congr_left fun entry _ => ?_)
  dsimp only [Function.comp_apply, maskedField]
  split <;> rfl

/-- The entries of a plain object after its fields were written. -/
theorem written_entries (replacement : json.Value) (left : Branch → List ℕ) (named : List (String × Branch)) :
    ((named.map fun branch => (branch.1, branch.2.slot)).map fun entry =>
      if entry.1 ∈ fieldsToApply.map FieldName.name then (entry.1, valueToReplace) else entry) =
        (named.map fun entry => (entry.1, maskedField fieldsToApply replacement valueToReplace left entry)).map
          fun branch => (branch.1, branch.2.slot) := by
  rw [List.map_map, List.map_map]
  refine List.map_congr_left fun entry _ => ?_
  dsimp only [Function.comp_apply, maskedField]
  split <;> rfl

/-- A plain object whose fields had their own fields replaced, with the fields that it has itself. -/
theorem replaced_object {fields : Fields} (hleaf : Leaf replacement valueToReplace) (hlt : address < h.length)
    (hcell : h.cell address = .obj .usual fields)
    (hentries : fields.entries = named.map fun branch => (branch.1, branch.2.slot))
    (hreplaced : ∀ branch ∈ named, Replaced fieldsToApply replacement h branch.2)
    (hapart : named.Pairwise fun branch other => branch.2.places.Disjoint other.2.places)
    (hfresh : ∀ branch ∈ named, address ∉ branch.2.places) :
    Confined h (applyFieldReplacement h address fieldsToApply valueToReplace) [address] ∧
      Replaced fieldsToApply replacement (applyFieldReplacement h address fieldsToApply valueToReplace)
        ⟨.obj (named.map fun branch => (branch.1, branch.2.value)), .ref address,
          address :: named.flatMap fun branch => branch.2.places⟩ := by
  obtain ⟨hshrinks, hothers⟩ := applyFieldReplacement_spec fieldsToApply hleaf.ne_ref h address
  have hconfined : Confined h (applyFieldReplacement h address fieldsToApply valueToReplace) [address] :=
    ⟨hshrinks.1, fun other hother => hothers other (by simpa using hother)⟩
  have hdefined : .undefined ∉ fields.values := by
    rw [Fields.values, hentries, List.map_map, List.mem_map]
    intro ⟨branch, hbranch, heq⟩
    obtain ⟨_, hvalue, _⟩ := hreplaced branch hbranch
    exact hvalue.ne_undefined heq
  obtain ⟨fields', hcell', hfold⟩ :=
    applyFieldReplacement_foldl fieldsToApply hleaf.ne_undefined hlt hcell hdefined
  rw [masks.foldl_setField_eq_map _ fields.distinct, hentries] at hfold
  have hwithin : ∀ branch ∈ named.map Prod.snd, Replaced fieldsToApply replacement h branch := by
    rw [List.forall_mem_map]
    exact hreplaced
  choose! left hvalue hsub using hwithin
  rw [List.forall_mem_map] at hvalue hsub
  have hlt' : address < (applyFieldReplacement h address fieldsToApply valueToReplace).length := hconfined.1 ▸ hlt
  refine ⟨hconfined, ?_⟩
  have hshape := Shape.obj (hfold.trans (written_entries replacement left named))
  rw [← hcell'] at hshape
  rw [Replaced, maskFields_named valueToReplace left]
  refine Represents.rebuilt hlt' hshape ?_ ?_ hapart hfresh
  · intro entry hentry
    rw [maskedField]
    split
    · exact .leaf hleaf
    · refine (hvalue entry hentry).frame hconfined.1.ge fun inner hinner => hothers inner ?_
      intro heq
      exact hfresh entry hentry (hsub entry hentry (heq ▸ hinner))
  · intro entry hentry
    rw [maskedField]
    split
    · exact List.nil_subset _
    · exact hsub entry hentry

section replacing

variable {recurse : Heap → Slot → Option (Heap × Slot)} {fuel : ℕ}

/-- What a recursion does for all trees that take few enough addresses. -/
def ReplacesSmall (fieldsToApply : List FieldName) (replacement : json.Value)
    (recurse : Heap → Slot → Option (Heap × Slot)) (fuel : ℕ) : Prop :=
  ∀ branch : Branch, branch.places.length < fuel →
    Replaces fieldsToApply replacement (fun h slot => (recurse h slot).map Prod.fst) branch

theorem replaceItem_replaces (hrecurse : ReplacesSmall fieldsToApply replacement recurse fuel) {branch : Branch}
    (hsmall : branch.places.length < fuel) : Replaces fieldsToApply replacement (replaceItem recurse) branch := by
  intro h hvalue
  have hback := hrecurse branch hsmall h hvalue
  obtain ⟨value, slot, places⟩ := branch
  cases hvalue with
  | leaf hleaf =>
    refine ⟨h, ?_, Confined.refl h _, replaced_leaf hleaf h []⟩
    cases hleaf <;> rfl
  | object => exact hback

theorem replaceInValue_replaces (hrecurse : ReplacesSmall fieldsToApply replacement recurse fuel) {branch : Branch}
    (hsmall : branch.places.length < fuel) : Replaces fieldsToApply replacement (replaceInValue recurse) branch := by
  intro h hvalue
  have hback := hrecurse branch hsmall h hvalue
  obtain ⟨value, slot, places⟩ := branch
  cases hvalue with
  | leaf hleaf =>
    refine ⟨h, ?_, Confined.refl h _, replaced_leaf hleaf h []⟩
    cases hleaf <;> rfl
  | @object value address named hlt hshape hbranches hapart hfresh =>
    dsimp only at hback ⊢
    rw [replaceInValue]
    split
    case isFalse => exact hback
    case isTrue harray =>
      obtain ⟨h', hrun, hcell', hconfined, hdone⟩ := forEachSlot_replaces hshape hbranches hapart hfresh
        fun branch hbranch => replaceItem_replaces hrecurse (by
          have hlength := Represents.length_places_le hbranch
          rw [List.length_cons] at hsmall
          omega)
      refine ⟨h', hrun, hconfined, ?_⟩
      generalize hcell : h.cell address = cell at hshape harray hcell'
      cases hshape with
      | obj hentries => cases harray
      | arr branches => exact replaced_array (hconfined.1 ▸ hlt) hcell' hdone hapart hfresh

/-- replaceFields replaces the fields of a tree in place. -/
theorem replaceFields_replaces (hleaf : Leaf replacement valueToReplace) (fuel : ℕ) :
    ReplacesSmall fieldsToApply replacement (replaceFields fieldsToApply valueToReplace fuel) fuel := by
  induction fuel with
  | zero => exact fun branch hsmall => absurd hsmall (Nat.not_lt_zero _)
  | succ fuel ih =>
    intro ⟨value, slot, places⟩ hsmall h hvalue
    cases hvalue with
    | leaf hplain =>
      refine ⟨h, ?_, Confined.refl h _, replaced_leaf hplain h []⟩
      cases hplain <;> rfl
    | @object value address named hlt hshape hbranches hapart hfresh =>
      obtain ⟨h₁, hrun, hcell₁, hconfined, hdone⟩ := forEachSlot_replaces hshape hbranches hapart hfresh
        fun branch hbranch => replaceInValue_replaces ih (by
          have hlength := Represents.length_places_le hbranch
          rw [List.length_cons] at hsmall
          omega)
      have hresult : (replaceFields fieldsToApply valueToReplace (fuel + 1) h (.ref address)).map Prod.fst =
          some (applyFieldReplacement h₁ address fieldsToApply valueToReplace) := by
        rw [replaceFields, hrun]
        rfl
      refine ⟨_, hresult, ?_⟩
      generalize hcell : h.cell address = cell at hshape hcell₁
      cases hshape with
      | arr branches =>
        rw [applyFieldReplacement_array fieldsToApply hcell₁]
        exact ⟨hconfined, replaced_array (hconfined.1 ▸ hlt) hcell₁ hdone hapart hfresh⟩
      | obj hentries =>
        obtain ⟨happlied, hreplaced⟩ :=
          replaced_object hleaf (hconfined.1 ▸ hlt) hcell₁ hentries hdone hapart hfresh
        exact ⟨hconfined.trans (happlied.mono (by simp)), hreplaced⟩

theorem replaceFields_ref {newData : Slot}
    (hrun : replaceFields fieldsToApply valueToReplace (fuel + 1) h (.ref address) = some (h', newData)) :
    newData = .ref address := by
  rw [replaceFields] at hrun
  obtain ⟨h₁, _, hresult⟩ := Option.bind_eq_some_iff.mp hrun
  cases hresult
  rfl

end replacing

/-- What a masking call returns stands for what it returns of the value: the tree itself, or
another tree, of which no object was there before. -/
inductive Returned (h : Heap) (data : Slot) : masks.Masked → Heap × Slot → Prop
  | same (value : json.Value) : Returned h data (.same value) (h, data)
  | copy {h' : Heap} {value : json.Value} {slot : Slot} {places : List ℕ} (hvalue : Represents h' value slot places)
      (hnew : ∀ address ∈ places, h.length ≤ address) (hkept : ∀ address < h.length, h'.cell address = h.cell address) :
      Returned h data (.copy value) (h', slot)
  | null : Returned h data .null (h, .null)

theorem names_SENSITIVE_DATA_FIELDS :
    SENSITIVE_DATA_FIELDS.map FieldName.name = masks.SENSITIVE_DATA_FIELDS := rfl

/-- maskObjectSensitiveData does with a tree what it does with the value. -/
theorem maskObjectSensitiveData_represents (hvalue : Represents h value slot places) {fuel : ℕ}
    (hfuel : h.length < fuel) : ∃ result, maskObjectSensitiveData fuel h slot = some result ∧
      Returned h slot (masks.maskObjectSensitiveData value) result := by
  have hlength := hvalue.length_le
  have hnamed : masks.Named (SENSITIVE_DATA_FIELDS.map FieldName.name) := masks.sensitive_named
  have hcheck := checkFieldsExistence_represents hnamed hvalue (hlength.trans_lt hfuel)
  have hproper := hvalue.proper
  have hclone := hvalue.structuredClone
  cases hvalue with
  | leaf hleaf =>
    refine ⟨(h, .null), ?_, ?_⟩
    · cases hleaf <;> rfl
    · cases hleaf <;> exact .null
  | @object value address named hlt hshape hbranches hapart hfresh =>
    have hobject : masks.IsObject value := by
      generalize h.cell address = cell at hshape
      cases hshape with
      | arr branches => exact Or.inr ⟨_, rfl⟩
      | obj hentries => exact Or.inl ⟨_, rfl⟩
    rw [maskObjectSensitiveData, hcheck, masks.mask_object hproper hobject, names_SENSITIVE_DATA_FIELDS]
    cases masks.checkFieldsExistence masks.SENSITIVE_DATA_FIELDS value with
    | false => exact ⟨(h, .ref address), rfl, .same value⟩
    | true =>
      obtain ⟨t, hcloned, htree⟩ := hclone
      obtain ⟨less, rfl⟩ : ∃ less, fuel = less + 1 := Nat.exists_eq_add_of_le' (by omega)
      have hcopied : cloneObject (less + 1) h (.ref address) = some (h ++ t, .ref (address + h.length)) := by
        rw [cloneObject, hcloned]
        rfl
      have hsmall :
          ((address :: named.flatMap fun branch => branch.2.places).map (· + h.length)).length < less + 1 := by
        rw [List.length_map]
        omega
      obtain ⟨h', hrun, hconfined, left, hmasked, hsub⟩ :=
        replaceFields_replaces (.str "***") (less + 1) ⟨value, _, _⟩ hsmall (h ++ t) htree
      obtain ⟨⟨last, newData⟩, hreplaced, hlast⟩ := Option.map_eq_some_iff.mp hrun
      obtain rfl := replaceFields_ref hreplaced
      have hnew : ∀ inner ∈ (address :: named.flatMap fun branch => branch.2.places).map (· + h.length),
          h.length ≤ inner := by
        rw [List.forall_mem_map]
        exact fun inner _ => Nat.le_add_left h.length inner
      subst hlast
      refine ⟨(last, .ref (address + h.length)), ?_, ?_⟩
      · rw [hcopied]
        exact hreplaced
      · rw [if_pos rfl]
        refine .copy hmasked (fun inner hinner => hnew inner (hsub hinner)) fun inner hinner => ?_
        rw [hconfined.2 inner fun hmem => hinner.not_ge (hnew inner hmem), Heap.cell_append hinner]

end node_backend.object_recursion

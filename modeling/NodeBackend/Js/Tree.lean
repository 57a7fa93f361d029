import NodeBackend.Js.StructuredClone

namespace js

/-- A value inside a tree, what stands for it in a heap, and the addresses that it takes. -/
structure Branch where
  value : json.Value
  slot : Slot
  places : List ℕ

/-- The same branch behind other objects. -/
def Branch.shift (offset : ℕ) (branch : Branch) : Branch where
  value := branch.value
  slot := branch.slot.shift offset
  places := branch.places.map (· + offset)

/-- The branches of an array have their indices for names. -/
def numbered (branches : List Branch) : List (String × Branch) :=
  branches.zipIdx.map fun entry => (toString entry.2, entry.1)

/-- A primitive value. -/
inductive Leaf : json.Value → Slot → Prop
  | null : Leaf .null .null
  | bool (b : Bool) : Leaf (.bool b) (.bool b)
  | num (n : Decimal) : Leaf (.num n.number) (.num n)
  | str (s : String) : Leaf (.str s) (.str s)

/-- An array or a plain object, with the branches that it holds by their names. -/
inductive Shape : Cell → List (String × Branch) → json.Value → Prop
  | arr (branches : List Branch) :
    Shape (.arr (branches.map Branch.slot)) (numbered branches) (.arr (branches.map Branch.value))
  | obj {fields : Fields} {named : List (String × Branch)}
      (hentries : fields.entries = named.map fun branch => (branch.1, branch.2.slot)) :
    Shape (.obj .usual fields) named (.obj (named.map fun branch => (branch.1, branch.2.value)))

/-- A heap holds a tree of JSON data, each object of which has an address of its own. -/
inductive Represents (h : Heap) : json.Value → Slot → List ℕ → Prop
  | leaf {value : json.Value} {slot : Slot} (hleaf : Leaf value slot) : Represents h value slot []
  | object {value : json.Value} {address : ℕ} {named : List (String × Branch)} (hlt : address < h.length)
      (hshape : Shape (h.cell address) named value)
      (hbranches : ∀ branch ∈ named, Represents h branch.2.value branch.2.slot branch.2.places)
      (hapart : named.Pairwise fun branch other => branch.2.places.Disjoint other.2.places)
      (hfresh : ∀ branch ∈ named, address ∉ branch.2.places) :
      Represents h value (.ref address) (address :: named.flatMap fun branch => branch.2.places)

theorem numbered_map (f : Branch → Branch) (branches : List Branch) :
    numbered (branches.map f) = (numbered branches).map (Prod.map id f) := by
  simp [numbered, List.zipIdx_map, Function.comp_def]

@[simp] theorem map_snd_numbered (branches : List Branch) : (numbered branches).map Prod.snd = branches := by
  simp [numbered, Function.comp_def]

namespace Shape

variable {cell : Cell} {named : List (String × Branch)} {value : json.Value}

theorem entries (hshape : Shape cell named value) :
    cell.entries = named.map fun branch => (branch.1, branch.2.slot) := by
  cases hshape with
  | arr branches => simp [Cell.entries, numbered, List.zipIdx_map, Function.comp_def]
  | obj hentries => exact hentries

theorem slots (hshape : Shape cell named value) : cell.slots = named.map fun branch => branch.2.slot := by
  rw [← Cell.entries_map_snd, hshape.entries, List.map_map]
  rfl

theorem content (hshape : Shape cell named value) : cell.content = cell.slots := by
  cases hshape <;> rfl

theorem not_rejected (hshape : Shape cell named value) : cell.rejected = false := by
  cases hshape <;> rfl

/-- What a clone of the object holds. -/
theorem copy (offset : ℕ) (hshape : Shape cell named value) :
    Shape (cell.copy offset) (named.map (Prod.map id (Branch.shift offset))) value := by
  cases hshape with
  | arr branches =>
    have hcopied := Shape.arr (branches.map (Branch.shift offset))
    rw [numbered_map] at hcopied
    simpa [Cell.copy, Branch.shift, Function.comp_def] using hcopied
  | @obj fields named hentries =>
    have hcopied := @Shape.obj (fields.map (Slot.shift offset)) (named.map (Prod.map id (Branch.shift offset)))
      (by simp [Fields.map, hentries, Branch.shift])
    simpa [Cell.copy, Branch.shift, Function.comp_def] using hcopied

theorem proper (hshape : Shape cell named value) (hbranches : ∀ branch ∈ named, branch.2.value.Proper) :
    value.Proper := by
  cases hshape with
  | arr branches =>
    rw [json.Value.proper_arr_iff, List.forall_mem_map]
    intro branch hbranch
    rw [← map_snd_numbered branches] at hbranch
    obtain ⟨entry, hentry, rfl⟩ := List.mem_map.mp hbranch
    exact hbranches entry hentry
  | @obj fields named hentries =>
    rw [json.Value.proper_obj_iff, List.forall_mem_map]
    refine ⟨?_, hbranches⟩
    have hdistinct := fields.distinct
    rw [hentries] at hdistinct
    simpa [Function.comp_def] using hdistinct

end Shape

namespace Leaf

variable {value : json.Value} {slot : Slot}

theorem proper (hleaf : Leaf value slot) : value.Proper := by
  cases hleaf with
  | null => exact .null
  | bool b => exact .bool b
  | num n => exact .num n.isFinite
  | str s => exact .str s

theorem ne_ref (hleaf : Leaf value slot) (address : ℕ) : slot ≠ .ref address := by
  intro heq
  subst heq
  cases hleaf

theorem ne_function (hleaf : Leaf value slot) (id : ℕ) (source : String) : slot ≠ .function id source := by
  intro heq
  subst heq
  cases hleaf

theorem ne_undefined (hleaf : Leaf value slot) : slot ≠ .undefined := by
  intro heq
  subst heq
  cases hleaf

theorem shift (hleaf : Leaf value slot) (offset : ℕ) : slot.shift offset = slot := by
  cases hleaf <;> rfl

end Leaf

namespace Represents

variable {h h' : Heap} {value : json.Value} {slot : Slot} {places : List ℕ}

theorem mem_places {named : List (String × Branch)} {branch : String × Branch} (hbranch : branch ∈ named)
    {inner : ℕ} (hinner : inner ∈ branch.2.places) (address : ℕ) :
    inner ∈ address :: named.flatMap fun branch => branch.2.places :=
  List.mem_cons_of_mem _ (List.mem_flatMap.mpr ⟨branch, hbranch, hinner⟩)

theorem length_places_le {named : List (String × Branch)} {branch : String × Branch} (hbranch : branch ∈ named) :
    branch.2.places.length ≤ (named.flatMap fun branch => branch.2.places).length := by
  have hmem := List.mem_map_of_mem (f := fun branch : String × Branch => branch.2.places) hbranch
  exact (List.sublist_flatten_of_mem hmem).length_le

/-- What is done at other addresses leaves a tree as it is. -/
theorem frame (hvalue : Represents h value slot places) (hlength : h.length ≤ h'.length)
    (hsame : ∀ address ∈ places, h'.cell address = h.cell address) : Represents h' value slot places := by
  induction hvalue with
  | leaf hleaf => exact .leaf hleaf
  | @object value address named hlt hshape _ hapart hfresh ih =>
    rw [← hsame address List.mem_cons_self] at hshape
    refine .object (hlt.trans_le hlength) hshape (fun branch hbranch => ?_) hapart hfresh
    exact ih branch hbranch fun inner hinner => hsame inner (mem_places hbranch hinner address)

theorem lt (hvalue : Represents h value slot places) : ∀ address ∈ places, address < h.length := by
  induction hvalue with
  | leaf _ => simp
  | object hlt _ _ _ _ ih =>
    intro inner hinner
    obtain rfl | hinner := List.mem_cons.mp hinner
    · exact hlt
    · obtain ⟨branch, hbranch, hinner⟩ := List.mem_flatMap.mp hinner
      exact ih branch hbranch inner hinner

theorem append (hvalue : Represents h value slot places) (t : Heap) : Represents (h ++ t) value slot places :=
  hvalue.frame (by simp) fun address haddress => Heap.cell_append (hvalue.lt address haddress)

theorem nodup (hvalue : Represents h value slot places) : places.Nodup := by
  induction hvalue with
  | leaf _ => exact List.nodup_nil
  | object _ _ _ hapart hfresh ih =>
    rw [List.nodup_cons, List.nodup_flatMap]
    refine ⟨fun hmem => ?_, ih, hapart⟩
    obtain ⟨branch, hbranch, hinner⟩ := List.mem_flatMap.mp hmem
    exact hfresh branch hbranch hinner

/-- There are no more objects in the tree than in the heap. -/
theorem length_le (hvalue : Represents h value slot places) : places.length ≤ h.length := by
  have hcard := Finset.card_le_card (s := places.toFinset) (t := Finset.range h.length) fun address haddress =>
    Finset.mem_range.mpr (hvalue.lt address (List.mem_toFinset.mp haddress))
  rwa [Finset.card_range, List.toFinset_card_of_nodup hvalue.nodup] at hcard

theorem proper (hvalue : Represents h value slot places) : value.Proper := by
  induction hvalue with
  | leaf hleaf => exact hleaf.proper
  | object _ hshape _ _ _ ih => exact hshape.proper ih

theorem ne_function (hvalue : Represents h value slot places) (id : ℕ) (source : String) :
    slot ≠ .function id source := by
  cases hvalue with
  | leaf hleaf => exact hleaf.ne_function id source
  | object _ _ _ _ _ => simp

theorem ne_undefined (hvalue : Represents h value slot places) : slot ≠ .undefined := by
  cases hvalue with
  | leaf hleaf => exact hleaf.ne_undefined
  | object _ _ _ _ _ => simp

theorem uncloneable (hvalue : Represents h value slot places) : slot.uncloneable h = false := by
  cases hvalue with
  | leaf hleaf => cases hleaf <;> rfl
  | object _ hshape _ _ _ => exact hshape.not_rejected

/-- What a tree contains is a tree. -/
theorem content (hvalue : Represents h value slot places) {inner : Slot} (hinner : inner ∈ slot.content h) :
    ∃ branch places, Represents h branch inner places := by
  cases hvalue with
  | leaf hleaf => cases hleaf <;> cases hinner
  | object _ hshape hbranches _ _ =>
    rw [Slot.content, hshape.content, hshape.slots] at hinner
    obtain ⟨branch, hbranch, rfl⟩ := List.mem_map.mp hinner
    exact ⟨_, _, hbranches branch hbranch⟩

theorem rejects (hvalue : Represents h value slot places) : h.rejects slot = false := by
  rw [Bool.eq_false_iff]
  intro hrejects
  obtain ⟨inner, hreach, huncloneable⟩ := (h.rejects_iff slot).mp hrejects
  have hinner : ∃ branch places, Represents h branch inner places := by
    clear huncloneable
    induction hreach with
    | refl => exact ⟨value, places, hvalue⟩
    | tail _ hstep ih =>
      obtain ⟨branch, more, hbranch⟩ := ih
      exact hbranch.content hstep
  obtain ⟨branch, more, hbranch⟩ := hinner
  rw [hbranch.uncloneable] at huncloneable
  cases huncloneable

/-- The copies of a tree are one. -/
theorem copied (hvalue : Represents h value slot places) :
    Represents (h ++ h.map (Cell.copy h.length)) value (slot.shift h.length) (places.map (· + h.length)) := by
  induction hvalue with
  | leaf hleaf =>
    rw [hleaf.shift]
    exact .leaf hleaf
  | @object value address named hlt hshape _ hapart hfresh ih =>
    have hcell := Heap.cell_copied h address
    have hcopied := @Represents.object (h ++ h.map (Cell.copy h.length)) value (address + h.length)
      (named.map (Prod.map id (Branch.shift h.length))) (by simpa using hlt) (hcell ▸ hshape.copy h.length) ?_ ?_ ?_
    · simpa [List.map_flatMap, List.flatMap_map, Branch.shift, Slot.shift] using hcopied
    · rw [List.forall_mem_map]
      exact ih
    · rw [List.pairwise_map]
      exact hapart.imp fun hdisjoint => hdisjoint.map (add_left_injective h.length)
    · rw [List.forall_mem_map]
      intro branch hbranch
      simpa [Branch.shift] using hfresh branch hbranch

/-- structuredClone makes a tree anew. -/
theorem structuredClone (hvalue : Represents h value slot places) :
    ∃ t, js.structuredClone h slot = some (h ++ t, slot.shift h.length) ∧
      Represents (h ++ t) value (slot.shift h.length) (places.map (· + h.length)) := by
  refine ⟨_, ?_, hvalue.copied⟩
  rw [js.structuredClone, hvalue.rejects, if_neg Bool.false_ne_true]

/-- An object with its branches replaced by others that take no more addresses. -/
theorem rebuilt {address : ℕ} {named : List (String × Branch)} {g : String × Branch → Branch}
    (hlt : address < h.length) (hshape : Shape (h.cell address) (named.map fun branch => (branch.1, g branch)) value)
    (hbranches : ∀ branch ∈ named, Represents h (g branch).value (g branch).slot (g branch).places)
    (hwithin : ∀ branch ∈ named, (g branch).places ⊆ branch.2.places)
    (hapart : named.Pairwise fun branch other => branch.2.places.Disjoint other.2.places)
    (hfresh : ∀ branch ∈ named, address ∉ branch.2.places) :
    ∃ places, Represents h value (.ref address) places ∧
      places ⊆ address :: named.flatMap fun branch => branch.2.places := by
  refine ⟨_, .object hlt hshape ?_ ?_ ?_, ?_⟩
  · rw [List.forall_mem_map]
    exact hbranches
  · rw [List.pairwise_map]
    refine hapart.imp_of_mem fun hbranch hother hdisjoint inner hinner hagain => ?_
    exact hdisjoint (hwithin _ hbranch hinner) (hwithin _ hother hagain)
  · rw [List.forall_mem_map]
    exact fun branch hbranch hmem => hfresh branch hbranch (hwithin branch hbranch hmem)
  · rw [List.flatMap_map]
    apply List.cons_subset_cons
    intro inner hinner
    obtain ⟨branch, hbranch, hmem⟩ := List.mem_flatMap.mp hinner
    exact List.mem_flatMap.mpr ⟨branch, hbranch, hwithin branch hbranch hmem⟩

end Represents

section existence

variable {h : Heap}

/-- A heap can be extended by the tree of a value. -/
def Extensible (value : json.Value) : Prop :=
  ∀ h : Heap, ∃ t slot places, Represents (h ++ t) value slot places ∧ ∀ address ∈ places, h.length ≤ address

/-- Branches that are in the second part of a heap and have nothing in common. -/
structure SetApart (h t : Heap) (branches : List Branch) : Prop where
  represents : ∀ branch ∈ branches, Represents (h ++ t) branch.value branch.slot branch.places
  behind : ∀ branch ∈ branches, ∀ address ∈ branch.places, h.length ≤ address
  disjoint : branches.Pairwise fun branch other => branch.places.Disjoint other.places

/-- A heap can be extended by several trees, one after another. -/
theorem exists_branches {values : List (String × json.Value)} (hvalues : ∀ value ∈ values, Extensible value.2)
    (h : Heap) : ∃ (t : Heap) (named : List (String × Branch)),
      named.map (fun branch => (branch.1, branch.2.value)) = values ∧ SetApart h t (named.map Prod.snd) := by
  induction values generalizing h with
  | nil => exact ⟨[], [], rfl, ⟨by simp, by simp, .nil⟩⟩
  | cons value rest ih =>
    obtain ⟨t, slot, places, hvalue, hnew⟩ := hvalues value List.mem_cons_self h
    obtain ⟨more, named, hnamed, hrest⟩ :=
      ih (fun other hother => hvalues other (List.mem_cons_of_mem _ hother)) (h ++ t)
    have hbehind : ∀ branch ∈ named.map Prod.snd, ∀ address ∈ branch.places, h.length + t.length ≤ address := by
      intro branch hbranch address haddress
      rw [← List.length_append]
      exact hrest.behind branch hbranch address haddress
    refine ⟨t ++ more, (value.1, ⟨value.2, slot, places⟩) :: named, by rw [List.map_cons, hnamed], ?_, ?_, ?_⟩
    · rw [List.map_cons, List.forall_mem_cons, ← List.append_assoc]
      exact ⟨hvalue.append more, hrest.represents⟩
    · rw [List.map_cons, List.forall_mem_cons]
      refine ⟨hnew, fun branch hbranch address haddress => ?_⟩
      have hlater := hbehind branch hbranch address haddress
      omega
    · refine .cons (fun branch hbranch address hfirst hother => ?_) hrest.disjoint
      have hlt := hvalue.lt address hfirst
      have hlater := hbehind branch hbranch address hother
      rw [List.length_append] at hlt
      omega

/-- After branches that are there an object can come that holds them. -/
theorem SetApart.concat {cell : Cell} {value : json.Value} {named : List (String × Branch)} {t : Heap}
    (hbranches : SetApart h t (named.map Prod.snd)) (hshape : Shape cell named value) :
    ∃ t slot places, Represents (h ++ t) value slot places ∧ ∀ address ∈ places, h.length ≤ address := by
  obtain ⟨hrepresents, hbehind, hdisjoint⟩ := hbranches
  rw [List.forall_mem_map] at hrepresents hbehind
  rw [List.pairwise_map] at hdisjoint
  refine ⟨t ++ [cell], .ref (h ++ t).length, (h ++ t).length :: named.flatMap fun branch => branch.2.places, ?_, ?_⟩
  · rw [← List.append_assoc]
    refine .object (by simp) ((Heap.cell_concat (h ++ t) cell).symm ▸ hshape)
      (fun branch hbranch => (hrepresents branch hbranch).append _) hdisjoint ?_
    intro branch hbranch hmem
    exact ((hrepresents branch hbranch).lt _ hmem).false
  · rw [List.forall_mem_cons]
    refine ⟨by simp, fun address haddress => ?_⟩
    obtain ⟨branch, hbranch, hmem⟩ := List.mem_flatMap.mp haddress
    exact hbehind branch hbranch address hmem

/-- There is a heap for every value whose numbers are finite. -/
theorem exists_represents {value : json.Value} (hproper : value.Proper) : Extensible value := by
  induction value with
  | null => exact fun h => ⟨[], .null, [], .leaf .null, by simp⟩
  | bool b => exact fun h => ⟨[], .bool b, [], .leaf (.bool b), by simp⟩
  | num n => exact fun h => ⟨[], .num ⟨n, json.Value.proper_num_iff.mp hproper⟩, [], .leaf (.num ⟨n, _⟩), by simp⟩
  | str s => exact fun h => ⟨[], .str s, [], .leaf (.str s), by simp⟩
  | arr items ih =>
    intro h
    rw [json.Value.proper_arr_iff] at hproper
    have hitems : ∀ entry ∈ items.map fun item => ("", item), Extensible entry.2 := by
      rw [List.forall_mem_map]
      exact fun item hitem => ih item hitem (hproper item hitem)
    obtain ⟨t, named, hnamed, hbranches⟩ := exists_branches hitems h
    have hvalues : (named.map Prod.snd).map Branch.value = items := by
      simpa [Function.comp_def] using congrArg (List.map Prod.snd) hnamed
    rw [← hvalues]
    rw [← map_snd_numbered (named.map Prod.snd)] at hbranches
    exact hbranches.concat (.arr _)
  | obj fields ih =>
    intro h
    rw [json.Value.proper_obj_iff] at hproper
    obtain ⟨t, named, rfl, hbranches⟩ :=
      exists_branches (fun field hfield => ih field hfield (hproper.2 field hfield)) h
    have hdistinct : ((named.map fun branch => (branch.1, branch.2.slot)).map Prod.fst).Nodup := by
      simpa [Function.comp_def] using hproper.1
    exact hbranches.concat (@Shape.obj ⟨_, hdistinct⟩ named rfl)

end existence

end js

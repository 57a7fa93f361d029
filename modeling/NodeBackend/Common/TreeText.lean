import NodeBackend.Common.DataParser
import NodeBackend.Common.Stringifier
import NodeBackend.Js.Tree

namespace node_backend.stringifier

open js graph

variable (functions : Functions) {h : Heap} {value : json.Value} {slot : Slot} {places : List ℕ} {address : ℕ}
  {named : List (String × Branch)} {cell : Cell}

section own

variable (hbranches : ∀ branch ∈ named, Represents h branch.2.value branch.2.slot branch.2.places)

include hbranches

/-- What an object of a tree has of its own under a name is no function. -/
theorem get_ne_function (hshape : Shape cell named value) (key : String) (id : ℕ) (source : String) :
    cell.own.2.get key ≠ some (.function id source) := by
  cases hshape with
  | arr branches => simp [Cell.own, Fields.get, Fields.empty]
  | obj hentries =>
    intro hget
    rw [Cell.own, Fields.get, hentries, json.lookup_map] at hget
    obtain ⟨branch, hlookup, hslot⟩ := Option.map_eq_some_iff.mp hget
    exact (hbranches _ (json.mem_of_lookup hlookup)).ne_function id source hslot

theorem tryMethod_represents {fields : Fields} (hshape : Shape (.obj .usual fields) named value) (this : Slot)
    (name : String) (inherited : Option Slot) :
    tryMethod functions this (.usual, fields) name inherited =
      .ok (if (fields.get name).isSome then none else inherited) := by
  have hnot := get_ne_function hbranches hshape name
  dsimp only [Cell.own] at hnot
  rw [tryMethod]
  dsimp only
  cases hget : fields.get name with
  | none => rfl
  | some own =>
    rw [hget] at hnot
    split
    · next heq => exact absurd heq (hnot _ _)
    · rfl
    · contradiction
    · contradiction

/-- String throws for a plain object that has a `toString` of its own. -/
theorem stringOf_represents {fields : Fields} (hshape : Shape (.obj .usual fields) named value) (this : Slot)
    (inherited : String) : stringOf functions this (.usual, fields) inherited =
      if (fields.get "toString").isSome then .error (.error cannotConvertToPrimitive.message) else .ok inherited := by
  rw [stringOf, tryMethod_represents functions hbranches hshape, tryMethod_represents functions hbranches hshape]
  cases (fields.get "toString").isSome with
  | false => rfl
  | true => simp

end own

/-- A part of a tree has no `toJSON` to call. -/
theorem resolve_represents (hvalue : Represents h value slot places) (key : String) :
    resolve functions h (key, slot) = .ok slot := by
  cases hvalue with
  | leaf hleaf => cases hleaf <;> rfl
  | object _ hshape hbranches _ _ =>
    have hnot := get_ne_function hbranches hshape "toJSON"
    rw [resolve, Slot.field]
    split
    · next heq => exact absurd heq (hnot _ _)
    · rfl

theorem classify_leaf (hleaf : Leaf value slot) (key : String) :
    classify functions h (key, slot) = .ok (.inl (some value)) := by
  rw [classify, resolve_represents functions (.leaf hleaf)]
  cases hleaf <;> rfl

theorem classify_ref (hvalue : Represents h value (.ref address) places) (key : String) :
    classify functions h (key, .ref address) = .ok (.inr address) := by
  rw [classify, resolve_represents functions hvalue]

/-- The branches of an object make its value. -/
theorem assemble_represents (hshape : Shape (h.cell address) named value) :
    assemble h address (named.map fun branch => ((branch.1, branch.2.slot), some branch.2.value)) = some value := by
  rw [assemble]
  generalize h.cell address = cell at hshape
  cases hshape with
  | arr branches =>
    have hvalues : (numbered branches).map (fun branch => branch.2.value) = branches.map Branch.value := by
      rw [← map_snd_numbered branches, List.map_map, map_snd_numbered]
      rfl
    simpa [Function.comp_def] using hvalues
  | obj hentries => simp [List.filterMap_map]

/-- JSON.stringify goes through a tree and writes what it is. -/
theorem settle_represents (hvalue : Represents h value slot places) (fuel : ℕ) (path : List ℕ)
    (hfuel : places.length ≤ fuel) (hpath : ∀ address ∈ places, address ∉ path) (key : String) :
    (jsonTraversal functions h).settle
      ((jsonTraversal functions h).descend circularStructure .other (assemble h) fuel path) (key, slot) =
        .ok ((key, slot), some value) := by
  induction hvalue generalizing fuel path key with
  | leaf hleaf =>
    have hclass : (jsonTraversal functions h).classify (key, _) = _ := classify_leaf functions hleaf key
    rw [Traversal.settle, hclass]
  | @object value address named hlt hshape hbranches hapart hfresh ih =>
    rw [List.length_cons] at hfuel
    obtain ⟨less, rfl⟩ : ∃ less, fuel = less + 1 := Nat.exists_eq_add_of_le' (by omega)
    have hclass : (jsonTraversal functions h).classify (key, .ref address) = .ok (.inr address) :=
      classify_ref functions (.object hlt hshape hbranches hapart hfresh) key
    have hmembers : List.Forall₂ (fun item member => (jsonTraversal functions h).settle
        ((jsonTraversal functions h).descend circularStructure .other (assemble h) less (address :: path)) item =
          .ok member) ((jsonTraversal functions h).items address)
        (named.map fun branch => ((branch.1, branch.2.slot), some branch.2.value)) := by
      change List.Forall₂ _ (h.cell address).entries _
      rw [hshape.entries, List.forall₂_map_left_iff, List.forall₂_map_right_iff, List.forall₂_same]
      intro branch hbranch
      have hlength := Represents.length_places_le hbranch
      refine ih branch hbranch less (address :: path) (by omega) (fun inner hinner hmem => ?_) branch.1
      obtain rfl | hpassed := List.mem_cons.mp hmem
      · exact hfresh branch hbranch hinner
      · exact hpath inner (Represents.mem_places hbranch hinner address) hpassed
    rw [Traversal.settle, hclass]
    dsimp only
    rw [Traversal.descend_of_forall₂ (hpath address List.mem_cons_self) hmembers, assemble_represents hshape]
    rfl

theorem stringify_represents (hvalue : Represents h value slot places) :
    stringify functions h slot = .ok (some value.stringify) := by
  have hlength := hvalue.length_le
  have hsettle := settle_represents functions hvalue (h.length + 1) [] (by omega) (by simp) ""
  rw [stringify]
  cases hvalue with
  | leaf hleaf =>
    rw [classify_leaf functions hleaf]
    rfl
  | object hlt hshape hbranches hapart hfresh =>
    have hclass := classify_ref functions (.object hlt hshape hbranches hapart hfresh) ""
    rw [hclass]
    change (jsonTraversal functions h).classify _ = _ at hclass
    rw [Traversal.settle, hclass] at hsettle
    dsimp only at hsettle ⊢
    obtain ⟨written, hdescend, hpair⟩ := Traversal.map_eq_ok_iff.mp hsettle
    cases hpair
    rw [hdescend]
    rfl

variable (returnUndefined : Bool)

/-- What String throws for a plain object with a `toString` of its own. -/
def unprinted : Thrown := .error cannotConvertToPrimitive.message

/-- What is no array is shown as the tree is. -/
theorem elementToString_represents (hvalue : Represents h value slot places) (harray : ∀ items, value ≠ .arr items) :
    elementToString functions h returnUndefined slot =
      if (ofJson value).unprintable then .error unprinted
      else .ok (some (data_parser_helper.text returnUndefined (ofJson value))) := by
  have hproper := hvalue.proper
  have hstringify := stringify_represents functions hvalue
  cases hvalue with
  | leaf hleaf =>
    cases hleaf with
    | num n => rw [ofJson, Value.ofNumber_of_finite n.isFinite]; rfl
    | null => rfl
    | bool b => rfl
    | str s => rfl
  | @object value address named hlt hshape hbranches hapart hfresh =>
    generalize hcell : h.cell address = cell at hshape
    cases hshape with
    | arr branches => exact absurd rfl (harray _)
    | @obj fields named hentries =>
      have hown : (fields.get "toString").isSome =
          (ofJson (.obj (named.map fun branch => (branch.1, branch.2.value)))).unprintable := by
        rw [unprintable_ofJson_obj, json.lookup_map, Fields.get, hentries, json.lookup_map, Option.isSome_map,
          Option.isSome_map]
      have htext := data_parser_helper.parseObjectToString_ofJson hproper
      simp only [elementToString, hcell, Cell.own]
      rw [stringOf_represents functions hbranches (.obj hentries), hown]
      cases (ofJson (.obj (named.map fun branch => (branch.1, branch.2.value)))).unprintable with
      | true => rfl
      | false =>
        rw [if_neg Bool.false_ne_true, if_neg Bool.false_ne_true]
        change parseObjectToString functions h (.ref address) "[object Object]" = _
        rw [parseObjectToString, hstringify, ← htext]
        rfl

theorem renderItems_eq {values : List json.Value} {shown : List Shown}
    (hshown : List.Forall₂ (fun value shown => Shown.render shown =
      data_parser_helper.text returnUndefined (ofJson value)) values shown) :
    renderItems shown = data_parser_helper.parseArrayToString returnUndefined (values.map ofJson) := by
  induction hshown with
  | nil => rfl
  | cons hfirst hrest ih =>
    cases hrest with
    | nil => exact hfirst
    | cons hnext hmore =>
      rw [List.map_cons, List.map_cons, data_parser_helper.parseArrayToString_cons_cons, ← List.map_cons, ← ih,
        ← hfirst, renderItems_cons_cons]

/-- What comes of a part of an array while some arrays were seen. -/
def Settled (branch : Branch) (seen : List ℕ) (outcome : Except Thrown ((Slot × Shown) × List ℕ)) : Prop :=
  (ofJson branch.value).unprintable = true ∧ outcome = .error unprinted ∨
    (ofJson branch.value).unprintable = false ∧ ∃ shown seen', outcome = .ok ((branch.slot, shown), seen') ∧
      shown.render = data_parser_helper.text returnUndefined (ofJson branch.value) ∧
      ∀ address ∈ seen', address ∈ seen ∨ address ∈ branch.places

/-- The parts of an array are shown in their order, up to one that String throws for. -/
theorem loop_represents {step : List ℕ → Slot → Except Thrown ((Slot × Shown) × List ℕ)} {branches : List Branch}
    {seen : List ℕ}
    (hstep : ∀ branch ∈ branches, ∀ seen, (∀ address ∈ branch.places, address ∉ seen) →
      Settled returnUndefined branch seen (step seen branch.slot))
    (hapart : branches.Pairwise fun branch other => branch.places.Disjoint other.places)
    (hseen : ∀ branch ∈ branches, ∀ address ∈ branch.places, address ∉ seen) :
    anyUnprintable (branches.map fun branch => ofJson branch.value) = true ∧
        mapWithState step seen (branches.map Branch.slot) = .error unprinted ∨
      anyUnprintable (branches.map fun branch => ofJson branch.value) = false ∧ ∃ members seen',
        mapWithState step seen (branches.map Branch.slot) = .ok (members, seen') ∧
        List.Forall₂ (fun branch member => Shown.render member.2 =
          data_parser_helper.text returnUndefined (ofJson branch.value)) branches members ∧
        ∀ address ∈ seen', address ∈ seen ∨ ∃ branch ∈ branches, address ∈ branch.places := by
  induction branches generalizing seen with
  | nil => exact Or.inr ⟨rfl, [], seen, rfl, .nil, by simp⟩
  | cons branch rest ih =>
    rw [List.pairwise_cons] at hapart
    obtain ⟨hfirst, hrun⟩ | ⟨hfirst, shown, seen', hrun, hshown, hnew⟩ :=
      hstep branch List.mem_cons_self seen (hseen branch List.mem_cons_self)
    · left
      rw [List.map_cons, List.map_cons, anyUnprintable, hfirst, mapWithState_cons_of_error hrun]
      exact ⟨rfl, rfl⟩
    · have hseen' : ∀ other ∈ rest, ∀ address ∈ other.places, address ∉ seen' := by
        intro other hother address haddress hmem
        obtain hold | hplace := hnew address hmem
        · exact hseen other (List.mem_cons_of_mem _ hother) address haddress hold
        · exact hapart.1 other hother hplace haddress
      rw [List.map_cons, List.map_cons, anyUnprintable, hfirst, Bool.false_or, mapWithState_cons_of_ok hrun]
      obtain ⟨hrest, hloop⟩ | ⟨hrest, members, last, hloop, hmembers, hadded⟩ :=
        ih (fun other hother => hstep other (List.mem_cons_of_mem _ hother)) hapart.2 hseen'
      · left
        rw [hloop]
        exact ⟨hrest, rfl⟩
      · right
        rw [hloop]
        refine ⟨hrest, (branch.slot, shown) :: members, last, rfl, .cons hshown hmembers, ?_⟩
        intro address haddress
        obtain hold | ⟨other, hother, hplace⟩ := hadded address haddress
        · obtain holder | hplace := hnew address hold
          · exact Or.inl holder
          · exact Or.inr ⟨branch, List.mem_cons_self, hplace⟩
        · exact Or.inr ⟨other, List.mem_cons_of_mem _ hother, hplace⟩

/-- A part that is no array is shown as an element. -/
theorem settled_element (hvalue : Represents h value slot places) (harray : ∀ items, value ≠ .arr items)
    (hcell : ∀ address, slot = .ref address → (h.cell address).isArray = false) (seen : List ℕ)
    (recurse : List ℕ → ℕ → Except Thrown (Shown × List ℕ)) : Settled returnUndefined ⟨value, slot, places⟩ seen
      ((arrayTraversal h (elementToString functions h returnUndefined)).settleOnce recurse seen slot) := by
  have hclass : (arrayTraversal h (elementToString functions h returnUndefined)).classify slot =
      (elementToString functions h returnUndefined slot).map fun text => .inl (.text text) := by
    rw [arrayTraversal]
    dsimp only
    split
    · rw [hcell _ rfl, if_neg Bool.false_ne_true]
    · rfl
  rw [Traversal.settleOnce, hclass, elementToString_represents functions returnUndefined hvalue harray]
  unfold Settled
  cases hprint : (ofJson value).unprintable with
  | true => exact Or.inl ⟨rfl, rfl⟩
  | false => exact Or.inr ⟨rfl, _, seen, rfl, rfl, fun address haddress => Or.inl haddress⟩

theorem classify_array {items : List Slot} (hcell : h.cell address = .arr items) :
    (arrayTraversal h (elementToString functions h returnUndefined)).classify (.ref address) = .ok (.inr address) := by
  rw [arrayTraversal]
  dsimp only
  rw [hcell]
  rfl

/-- An array that was not seen is shown with what its parts are shown as. -/
theorem settled_array {branches : List Branch} {seen : List ℕ} {fuel : ℕ} {within : List ℕ}
    (hcell : h.cell address = .arr (branches.map Branch.slot)) (hnew : address ∉ seen)
    (hinner : ∀ branch ∈ branches, ∀ later, (∀ inner ∈ branch.places, inner ∉ later) →
      Settled returnUndefined branch later
        ((arrayTraversal h (elementToString functions h returnUndefined)).settleOnce
          ((arrayTraversal h (elementToString functions h returnUndefined)).explore .circular .other
            (fun _ items => .items (items.map Prod.snd)) fuel) later branch.slot))
    (hapart : branches.Pairwise fun branch other => branch.places.Disjoint other.places)
    (hseen : ∀ branch ∈ branches, ∀ inner ∈ branch.places, inner ∉ address :: seen)
    (hwithin : ∀ branch ∈ branches, ∀ inner ∈ branch.places, inner ∈ within) :
    Settled returnUndefined ⟨.arr (branches.map Branch.value), .ref address, address :: within⟩ seen
      ((arrayTraversal h (elementToString functions h returnUndefined)).settleOnce
        ((arrayTraversal h (elementToString functions h returnUndefined)).explore .circular .other
          (fun _ items => .items (items.map Prod.snd)) (fuel + 1)) seen (.ref address)) := by
  have hclass := classify_array functions returnUndefined hcell
  have hitems : (arrayTraversal h (elementToString functions h returnUndefined)).items address =
      branches.map Branch.slot := by
    change (h.cell address).slots = _
    rw [hcell]
    rfl
  have hvalues : itemsOfJson (branches.map Branch.value) = branches.map fun branch => ofJson branch.value := by
    rw [itemsOfJson_eq_map, List.map_map]
    rfl
  unfold Settled
  dsimp only
  rw [Traversal.settleOnce, hclass, ofJson, hvalues, Value.unprintable]
  dsimp only
  rw [Traversal.explore, if_neg hnew, hitems]
  obtain ⟨hany, hloop⟩ | ⟨hany, members, last, hloop, hmembers, hadded⟩ :=
    loop_represents returnUndefined hinner hapart hseen
  · rw [hloop]
    exact Or.inl ⟨hany, rfl⟩
  · rw [hloop]
    refine Or.inr ⟨hany, .items (members.map Prod.snd), last, rfl, ?_, ?_⟩
    · have hshown : renderItems (members.map Prod.snd) =
          data_parser_helper.parseArrayToString returnUndefined ((branches.map Branch.value).map ofJson) := by
        apply renderItems_eq
        rw [List.forall₂_map_left_iff, List.forall₂_map_right_iff]
        exact hmembers
      rw [Shown.render, hshown, List.map_map]
      rfl
    · intro inner hmem
      obtain hold | ⟨branch, hbranch, hplace⟩ := hadded inner hmem
      · rw [List.mem_cons] at hold ⊢
        tauto
      · exact Or.inr (List.mem_cons_of_mem _ (hwithin branch hbranch inner hplace))

/-- A part of an array is shown as the tree is, where no object of the tree was seen. -/
theorem settleOnce_represents (hvalue : Represents h value slot places) (fuel : ℕ) (seen : List ℕ)
    (hfuel : places.length ≤ fuel) (hseen : ∀ address ∈ places, address ∉ seen) :
    Settled returnUndefined ⟨value, slot, places⟩ seen
      ((arrayTraversal h (elementToString functions h returnUndefined)).settleOnce
        ((arrayTraversal h (elementToString functions h returnUndefined)).explore .circular .other
          (fun _ items => .items (items.map Prod.snd)) fuel) seen slot) := by
  induction hvalue generalizing fuel seen with
  | leaf hleaf =>
    refine settled_element functions returnUndefined (.leaf hleaf) ?_ ?_ seen _
    · cases hleaf <;> simp
    · exact fun address heq => absurd heq (hleaf.ne_ref address)
  | @object value address named hlt hshape hbranches hapart hfresh ih =>
    have hwhole := Represents.object hlt hshape hbranches hapart hfresh
    generalize hcell : h.cell address = cell at hshape
    cases hshape with
    | obj hentries =>
      refine settled_element functions returnUndefined hwhole (by simp) ?_ seen _
      intro other heq
      cases heq
      rw [hcell]
      rfl
    | arr branches =>
      rw [List.length_cons] at hfuel
      obtain ⟨less, rfl⟩ : ∃ less, fuel = less + 1 := Nat.exists_eq_add_of_le' (by omega)
      have hwithin : ∀ branch ∈ branches, ∃ entry ∈ numbered branches, entry.2 = branch := by
        intro branch hbranch
        rw [← map_snd_numbered branches] at hbranch
        exact List.mem_map.mp hbranch
      have hdisjoint : branches.Pairwise fun branch other => branch.places.Disjoint other.places := by
        rw [← map_snd_numbered branches, List.pairwise_map]
        exact hapart
      refine settled_array functions returnUndefined hcell (hseen address List.mem_cons_self) ?_ hdisjoint ?_ ?_
      · intro branch hbranch later hlater
        obtain ⟨entry, hentry, rfl⟩ := hwithin branch hbranch
        have hlength := Represents.length_places_le hentry
        exact ih entry hentry less later (by omega) hlater
      · intro branch hbranch inner hinner
        obtain ⟨entry, hentry, rfl⟩ := hwithin branch hbranch
        rw [List.mem_cons, not_or]
        refine ⟨?_, hseen inner (Represents.mem_places hentry hinner address)⟩
        intro heq
        exact hfresh entry hentry (heq ▸ hinner)
      · intro branch hbranch inner hinner
        obtain ⟨entry, hentry, rfl⟩ := hwithin branch hbranch
        exact List.mem_flatMap.mpr ⟨entry, hentry, hinner⟩

/-- DataParserHelper.toString gives for a tree what it gives for the value. -/
theorem toString_represents (hvalue : Represents h value slot places) :
    stringifier.toString functions h returnUndefined slot =
      ((data_parser_helper.toString returnUndefined (ofJson value)).mapError fun error => .error error.message).map
        some := by
  have hparser : ((data_parser_helper.toString returnUndefined (ofJson value)).mapError fun error =>
      Thrown.error error.message).map some = if (ofJson value).unprintable then .error unprinted
      else .ok (some (data_parser_helper.text returnUndefined (ofJson value))) := by
    rw [data_parser_helper.toString]
    split <;> rfl
  rw [hparser]
  have hlength := hvalue.length_le
  have helement := elementToString_represents functions returnUndefined hvalue
  have hsettled := settleOnce_represents functions returnUndefined hvalue (h.length + 1) [] (by omega) (by simp)
  cases hvalue with
  | leaf hleaf =>
    have hplain : stringifier.toString functions h returnUndefined slot =
        elementToString functions h returnUndefined slot := by
      cases hleaf <;> rfl
    rw [hplain, helement]
    cases hleaf <;> simp
  | @object value address named hlt hshape hbranches hapart hfresh =>
    rw [stringifier.toString]
    generalize hcell : h.cell address = cell at hshape
    cases hshape with
    | obj hentries => exact helement (by simp)
    | arr branches =>
      unfold Settled at hsettled
      dsimp only at hsettled
      rw [Traversal.settleOnce, classify_array functions returnUndefined hcell] at hsettled
      rw [Cell.isArray, if_pos rfl, parseArrayToString]
      obtain ⟨hprint, hrun⟩ | ⟨hprint, shown, seen, hrun, hshown, _⟩ := hsettled
      · rw [hprint, Traversal.map_error_iff.mp hrun]
        rfl
      · obtain ⟨result, hexplore, hpair⟩ := Traversal.map_eq_ok_iff.mp hrun
        cases hpair
        rw [hprint, hexplore, ← hshown]
        rfl

end node_backend.stringifier

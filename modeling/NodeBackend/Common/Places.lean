import NodeBackend.Common.Stringified

namespace node_backend.stringifier

open js graph Relation

variable {h : Heap} {a : ℕ}
variable {print : Slot → Except Thrown (Option String)}

/-- What an element is shown as, where an array among the elements is left to a recursion. -/
def showElement (h : Heap) (print : Slot → Except Thrown (Option String)) (recurse : ℕ → Except Thrown Shown) :
    Slot → Except Thrown Shown
  | .ref inner => if (h.cell inner).isArray then recurse inner else (print (.ref inner)).map .text
  | element => (print element).map .text

/-- What an array would be shown as by a visit without a memory. -/
def showAll (h : Heap) (print : Slot → Except Thrown (Option String)) : ℕ → ℕ → Except Thrown Shown
  | 0, _ => .error .other
  | fuel + 1, array => ((h.cell array).slots.mapM (showElement h print (showAll h print fuel))).map .items

def placesIn (h : Heap) (recurse : ℕ → List ℕ) : Slot → List ℕ
  | .ref inner => if (h.cell inner).isArray then recurse inner else []
  | _ => []

/-- The arrays of an array, itself included, each as often as there are places for it. -/
def places (h : Heap) : ℕ → ℕ → List ℕ
  | 0, _ => []
  | fuel + 1, array => array :: (h.cell array).slots.flatMap (placesIn h (places h fuel))

section places

variable {fuel steps b c d i j : ℕ}

theorem shallow_nests (hacyclic : Acyclic (Nests h) a) : Shallow (Nests h) (h.length + 1) a := by
  have hshallow := hacyclic.shallow (Finset.range h.length) fun outer inner hnests =>
    Finset.mem_range.mpr (Heap.lt_of_holds hnests.1)
  rw [Finset.card_range] at hshallow
  exact hshallow

theorem placesIn_ref {recurse : ℕ → List ℕ} (harray : (h.cell a).isArray = true) :
    placesIn h recurse (.ref a) = recurse a := by
  rw [placesIn, if_pos harray]

theorem placesIn_eq_nil {recurse : ℕ → List ℕ} {element : Slot}
    (helement : ∀ inner, element = .ref inner → (h.cell inner).isArray = false) :
    placesIn h recurse element = [] := by
  cases element with
  | ref inner => rw [placesIn, helement inner rfl, if_neg Bool.false_ne_true]
  | _ => rfl

theorem mem_placesIn_iff {recurse : ℕ → List ℕ} {element : Slot} :
    b ∈ placesIn h recurse element ↔
      ∃ inner, element = .ref inner ∧ (h.cell inner).isArray = true ∧ b ∈ recurse inner := by
  cases element with
  | ref inner => cases harray : (h.cell inner).isArray <;> simp [placesIn, harray]
  | _ => simp [placesIn]

/-- The places are those of all arrays that are reached. -/
theorem mem_places_iff (hshallow : Shallow (Nests h) steps a) (hfuel : steps ≤ fuel) :
    b ∈ places h fuel a ↔ ReflTransGen (Nests h) a b := by
  induction steps generalizing a fuel with
  | zero => exact hshallow.elim
  | succ steps ih =>
    obtain ⟨fuel, rfl⟩ : ∃ fewer, fuel = fewer + 1 := ⟨fuel - 1, by omega⟩
    rw [places, List.mem_cons, List.mem_flatMap]
    constructor
    · intro hplace
      obtain rfl | ⟨element, hmem, hb⟩ := hplace
      · exact .refl
      · obtain ⟨inner, rfl, harray, hb⟩ := mem_placesIn_iff.mp hb
        have hnests : Nests h a inner := ⟨hmem, harray⟩
        exact ((ih (hshallow inner hnests) (by omega)).mp hb).head hnests
    · intro hreach
      obtain rfl | ⟨inner, hnests, hreach⟩ := ReflTransGen.cases_head hreach
      · exact Or.inl rfl
      · refine Or.inr ⟨.ref inner, hnests.1, mem_placesIn_iff.mpr ⟨inner, rfl, hnests.2, ?_⟩⟩
        exact (ih (hshallow inner hnests) (by omega)).mpr hreach

/-- An array is at a place of another. -/
def At (h : Heap) (holder place array : ℕ) : Prop :=
  (h.cell holder).slots[place]? = some (.ref array) ∧ (h.cell array).isArray = true

/-- Each array inside an array is at one place of one array. -/
def HeldOnce (h : Heap) (root : ℕ) : Prop :=
  ∀ b i c j array, ReflTransGen (Nests h) root b → ReflTransGen (Nests h) root c →
    At h b i array → At h c j array → b = c ∧ i = j

theorem At.nests (hat : At h b i d) : Nests h b d :=
  ⟨List.mem_of_getElem? hat.1, hat.2⟩

theorem exists_at (hnests : Nests h b d) : ∃ i, At h b i d := by
  obtain ⟨i, hi⟩ := List.mem_iff_getElem?.mp hnests.1
  exact ⟨i, hi, hnests.2⟩

theorem At.unique (hat : At h b i c) (hother : At h b i d) : c = d := by
  have heq := hat.1.symm.trans hother.1
  simpa using heq

/-- Where an array is found from the root. -/
theorem exists_at_root (hreach : ReflTransGen (Nests h) a b) (hat : At h b i d) :
    ∃ k c, At h a k c ∧ ReflTransGen (Nests h) c d ∧ (b = a ∧ k = i ∧ c = d ∨ ReflTransGen (Nests h) c b) := by
  obtain rfl | ⟨c, hnests, hreach⟩ := ReflTransGen.cases_head hreach
  · exact ⟨i, d, hat, .refl, Or.inl ⟨rfl, rfl, rfl⟩⟩
  · obtain ⟨k, hk⟩ := exists_at hnests
    exact ⟨k, c, hk, hreach.tail hat.nests, Or.inr hreach⟩

theorem HeldOnce.step (hheld : HeldOnce h a) (hnests : Nests h a b) : HeldOnce h b :=
  fun c i d j array hc hd => hheld c i d j array (hc.head hnests) (hd.head hnests)

/-- Two arrays above a third are one above the other. -/
theorem HeldOnce.above (hheld : HeldOnce h a) (hb : ReflTransGen (Nests h) a b) (hc : ReflTransGen (Nests h) a c)
    (hbd : ReflTransGen (Nests h) b d) (hcd : ReflTransGen (Nests h) c d) :
    ReflTransGen (Nests h) b c ∨ ReflTransGen (Nests h) c b := by
  induction hbd with
  | refl => exact Or.inr hcd
  | @tail x y hbx hxy ih =>
    obtain rfl | ⟨z, hcz, hzy⟩ := ReflTransGen.cases_tail hcd
    · exact Or.inl (hbx.tail hxy)
    · obtain ⟨i, hi⟩ := exists_at hxy
      obtain ⟨j, hj⟩ := exists_at hzy
      obtain ⟨rfl, _⟩ := hheld x i z j y (hb.trans hbx) (hc.trans hcz) hi hj
      exact ih hcz

theorem not_reach_holder (hground : Grounded (Nests h) a) (hnests : Nests h a b) : ¬ ReflTransGen (Nests h) b a :=
  fun hreach => hground.irrefl (.head' hnests hreach)

/-- What an array holds at two places is apart. -/
theorem HeldOnce.disjoint (hheld : HeldOnce h a) (hshallow : Shallow (Nests h) (steps + 1) a) (hfuel : steps ≤ fuel)
    (hb : At h a i b) (hc : At h a j c) (hne : i ≠ j) : List.Disjoint (places h fuel b) (places h fuel c) := by
  have hsame : ∀ b i c j, At h a i b → At h a j c → ReflTransGen (Nests h) b c → i = j := by
    intro b i c j hb hc hreach
    obtain rfl | ⟨z, hbz, hzc⟩ := ReflTransGen.cases_tail hreach
    · exact (hheld a i a j c .refl .refl hb hc).2
    · obtain ⟨k, hk⟩ := exists_at hzc
      obtain ⟨rfl, _⟩ := hheld z k a j c (hbz.head hb.nests) .refl hk hc
      exact absurd hbz (not_reach_holder hshallow.grounded hb.nests)
  intro d hbd hcd
  rw [mem_places_iff (hshallow b hb.nests) hfuel] at hbd
  rw [mem_places_iff (hshallow c hc.nests) hfuel] at hcd
  obtain hreach | hreach := hheld.above (.single hb.nests) (.single hc.nests) hbd hcd
  · exact hne (hsame b i c j hb hc hreach)
  · exact hne (hsame c j b i hc hb hreach).symm

theorem nodup_of_heldOnce (hheld : HeldOnce h a) (hshallow : Shallow (Nests h) steps a) (hfuel : steps ≤ fuel) :
    (places h fuel a).Nodup := by
  induction steps generalizing a fuel with
  | zero => exact hshallow.elim
  | succ steps ih =>
    obtain ⟨fuel, rfl⟩ : ∃ fewer, fuel = fewer + 1 := ⟨fuel - 1, by omega⟩
    rw [places, List.nodup_cons, List.nodup_flatMap, List.mem_flatMap]
    refine ⟨?_, ?_, ?_⟩
    · intro hinside
      obtain ⟨element, hmem, ha⟩ := hinside
      obtain ⟨inner, rfl, harray, ha⟩ := mem_placesIn_iff.mp ha
      have hnests : Nests h a inner := ⟨hmem, harray⟩
      rw [mem_places_iff (hshallow inner hnests) (by omega)] at ha
      exact not_reach_holder hshallow.grounded hnests ha
    · intro element hmem
      by_cases harray : ∃ inner, element = .ref inner ∧ (h.cell inner).isArray = true
      · obtain ⟨inner, rfl, harray⟩ := harray
        have hnests : Nests h a inner := ⟨hmem, harray⟩
        rw [placesIn_ref harray]
        exact ih (hheld.step hnests) (hshallow inner hnests) (by omega)
      · push Not at harray
        rw [placesIn_eq_nil fun inner heq => Bool.eq_false_iff.mpr (harray inner heq)]
        exact List.nodup_nil
    · rw [List.pairwise_iff_getElem]
      intro i j hi hj hlt d hd hother
      obtain ⟨b, hb, hbArray, hd⟩ := mem_placesIn_iff.mp hd
      obtain ⟨c, hc, hcArray, hother⟩ := mem_placesIn_iff.mp hother
      have hatB : At h a i b := ⟨by rw [List.getElem?_eq_getElem hi, hb], hbArray⟩
      have hatC : At h a j c := ⟨by rw [List.getElem?_eq_getElem hj, hc], hcArray⟩
      exact hheld.disjoint hshallow (by omega) hatB hatC hlt.ne hd hother

theorem heldOnce_of_nodup (hnodup : (places h fuel a).Nodup) (hshallow : Shallow (Nests h) steps a)
    (hfuel : steps ≤ fuel) : HeldOnce h a := by
  induction steps generalizing a fuel with
  | zero => exact hshallow.elim
  | succ steps ih =>
    obtain ⟨fuel, rfl⟩ : ∃ fewer, fuel = fewer + 1 := ⟨fuel - 1, by omega⟩
    have hground : Grounded (Nests h) a := hshallow.grounded
    rw [places, List.nodup_cons, List.nodup_flatMap, List.pairwise_iff_getElem] at hnodup
    obtain ⟨_, hinside, hapart⟩ := hnodup
    have hmem : ∀ i b d, At h a i b → ReflTransGen (Nests h) b d →
        ∃ hi : i < (h.cell a).slots.length, d ∈ placesIn h (places h fuel) (h.cell a).slots[i] := by
      intro i b d hb hbd
      obtain ⟨hi, hslot⟩ := List.getElem?_eq_some_iff.mp hb.1
      refine ⟨hi, ?_⟩
      rw [hslot, placesIn_ref hb.2]
      exact (mem_places_iff (hshallow b hb.nests) (by omega)).mpr hbd
    have hsame : ∀ i b j c d, At h a i b → At h a j c → ReflTransGen (Nests h) b d → ReflTransGen (Nests h) c d →
        i = j := by
      intro i b j c d hb hc hbd hcd
      obtain ⟨hi, hfirst⟩ := hmem i b d hb hbd
      obtain ⟨hj, hsecond⟩ := hmem j c d hc hcd
      by_contra hne
      obtain hlt | hgt := lt_or_gt_of_ne hne
      · exact hapart i j hi hj hlt hfirst hsecond
      · exact hapart j i hj hi hgt hsecond hfirst
    intro b i c j d hb hc hbd hcd
    obtain ⟨k, e, hk, hed, hfirst⟩ := exists_at_root hb hbd
    obtain ⟨k', e', hk', hed', hsecond⟩ := exists_at_root hc hcd
    obtain rfl := hsame k e k' e' d hk hk' hed hed'
    obtain rfl := hk.unique hk'
    obtain ⟨rfl, rfl, rfl⟩ | hfirst := hfirst
    · obtain ⟨rfl, rfl, _⟩ | hsecond := hsecond
      · exact ⟨rfl, rfl⟩
      · exact absurd hsecond (not_reach_holder (hground.reach hc) hcd.nests)
    · obtain ⟨rfl, rfl, rfl⟩ | hsecond := hsecond
      · exact absurd hfirst (not_reach_holder (hground.reach hb) hbd.nests)
      · have hinner := hinside (.ref e) hk.nests.1
        rw [placesIn_ref hk.2] at hinner
        exact ih hinner (hshallow e hk.nests) (by omega) b i c j d hfirst hsecond hbd hcd

/-- No array occurs twice among the places exactly if each is at one place. -/
theorem nodup_places_iff (hacyclic : Acyclic (Nests h) a) :
    (places h (h.length + 1) a).Nodup ↔ HeldOnce h a := by
  have hshallow := shallow_nests hacyclic
  exact ⟨fun hnodup => heldOnce_of_nodup hnodup hshallow le_rfl, fun hheld => nodup_of_heldOnce hheld hshallow le_rfl⟩

end places

/-- The marker is among what is shown. -/
inductive Reports : Shown → Prop
  | here : Reports .circular
  | inside {items : List Shown} {item : Shown} (hmem : item ∈ items) (hitem : Reports item) : Reports (.items items)

theorem reports_items_iff {items : List Shown} : Reports (.items items) ↔ ∃ item ∈ items, Reports item :=
  ⟨fun h => by cases h with | inside hmem hitem => exact ⟨_, hmem, hitem⟩, fun ⟨_, hmem, hitem⟩ => .inside hmem hitem⟩

section visits

/-- One visit of an array in parseArrayToString. -/
def visit (h : Heap) (print : Slot → Except Thrown (Option String)) :
    ℕ → List ℕ → ℕ → Except Thrown (Shown × List ℕ) :=
  (arrayTraversal h print).explore .circular .other fun _ items => .items (items.map Prod.snd)

theorem parseArrayToString_eq_visit (array : ℕ) :
    parseArrayToString h print array = (visit h print (h.length + 1) [] array).map Prod.fst := rfl

variable {fuel : ℕ} {seen seen' : List ℕ} {element : Slot}

/-- What a step of a visit does is known from the element. -/
theorem settleOnce_cases (h : Heap) (print : Slot → Except Thrown (Option String)) (fuel : ℕ) (element : Slot) :
    (∃ inner, (∀ seen, (arrayTraversal h print).settleOnce (visit h print fuel) seen element =
        (visit h print fuel seen inner).map fun result => ((element, result.1), result.2)) ∧
      (∀ recurse, showElement h print recurse element = recurse inner) ∧
      ∀ recurse, placesIn h recurse element = recurse inner) ∨
    (∀ seen, (arrayTraversal h print).settleOnce (visit h print fuel) seen element =
        (print element).map fun text => ((element, .text text), seen)) ∧
      (∀ recurse, showElement h print recurse element = (print element).map .text) ∧
      ∀ recurse, placesIn h recurse element = [] := by
  cases element with
  | ref inner =>
    cases harray : (h.cell inner).isArray with
    | true =>
      left
      exact ⟨inner, by simp [Traversal.settleOnce, arrayTraversal, harray], by simp [showElement, harray],
        by simp [placesIn, harray]⟩
    | false =>
      right
      refine ⟨?_, by simp [showElement, harray], by simp [placesIn, harray]⟩
      intro seen
      cases hprint : print (.ref inner) <;> simp [Traversal.settleOnce, arrayTraversal, harray, hprint, Except.map]
  | _ =>
    right
    refine ⟨?_, fun _ => rfl, fun _ => rfl⟩
    intro seen
    rw [Traversal.settleOnce]
    simp only [arrayTraversal]
    cases print _ <;> rfl

/-- What comes of a visit if the memory makes no difference to it. -/
def remembering (shown : Except Thrown Shown) (met seen : List ℕ) : Except Thrown (Shown × List ℕ) :=
  shown.map fun shown => (shown, met.reverse ++ seen)

/-- A step through an element with no place met before. -/
theorem settleOnce_of_nodup
    (hvisit : ∀ seen inner, (places h fuel inner).Nodup → List.Disjoint (places h fuel inner) seen →
      visit h print fuel seen inner = remembering (showAll h print fuel inner) (places h fuel inner) seen)
    (hnodup : (placesIn h (places h fuel) element).Nodup)
    (hnew : List.Disjoint (placesIn h (places h fuel) element) seen) :
    (arrayTraversal h print).settleOnce (visit h print fuel) seen element =
      (showElement h print (showAll h print fuel) element).map fun shown =>
        ((element, shown), (placesIn h (places h fuel) element).reverse ++ seen) := by
  obtain ⟨inner, hstep, hshow, hplaces⟩ | ⟨hstep, hshow, hplaces⟩ := settleOnce_cases h print fuel element
  · rw [hplaces] at hnodup hnew
    rw [hstep, hshow, hplaces, hvisit seen inner hnodup hnew, remembering]
    cases showAll h print fuel inner <;> rfl
  · rw [hstep, hshow, hplaces]
    cases print element <;> rfl

/-- Steps through elements without a place met before or twice: the memory makes no
difference but for what it has come to hold. -/
theorem mapWithState_of_nodup {elements : List Slot}
    (hvisit : ∀ seen inner, (places h fuel inner).Nodup → List.Disjoint (places h fuel inner) seen →
      visit h print fuel seen inner = remembering (showAll h print fuel inner) (places h fuel inner) seen)
    (hnodup : (elements.flatMap (placesIn h (places h fuel))).Nodup)
    (hnew : List.Disjoint (elements.flatMap (placesIn h (places h fuel))) seen) :
    mapWithState ((arrayTraversal h print).settleOnce (visit h print fuel)) seen elements =
      (elements.mapM (showElement h print (showAll h print fuel))).map fun shown =>
        (elements.zip shown, (elements.flatMap (placesIn h (places h fuel))).reverse ++ seen) := by
  induction elements generalizing seen with
  | nil => rfl
  | cons element rest ih =>
    rw [List.flatMap_cons] at hnodup hnew ⊢
    obtain ⟨hfirst, hrest, hapart⟩ := List.nodup_append'.mp hnodup
    obtain ⟨hnewFirst, hnewRest⟩ := List.disjoint_append_left.mp hnew
    have hstep := settleOnce_of_nodup hvisit hfirst hnewFirst
    rw [List.mapM_cons]
    cases hshown : showElement h print (showAll h print fuel) element with
    | error thrown =>
      rw [hshown] at hstep
      exact mapWithState_cons_of_error hstep
    | ok shown =>
      rw [hshown] at hstep
      have hnewRest' : List.Disjoint (rest.flatMap (placesIn h (places h fuel)))
          ((placesIn h (places h fuel) element).reverse ++ seen) := by
        rw [List.disjoint_append_right]
        exact ⟨fun b hb hinner => hapart (List.mem_reverse.mp hinner) hb, hnewRest⟩
      rw [mapWithState_cons_of_ok hstep, ih hrest hnewRest']
      cases rest.mapM (showElement h print (showAll h print fuel)) with
      | error thrown => rfl
      | ok more => simp [Except.map, bind, Except.bind, pure, Except.pure]

/-- A visit that meets no array twice shows the array as one without a memory does. -/
theorem visit_of_nodup (hnodup : (places h fuel a).Nodup) (hnew : List.Disjoint (places h fuel a) seen) :
    visit h print fuel seen a = remembering (showAll h print fuel a) (places h fuel a) seen := by
  induction fuel generalizing seen a with
  | zero => rfl
  | succ fuel ih =>
    rw [places, List.nodup_cons] at hnodup
    rw [places, List.disjoint_cons_left] at hnew
    have hnew' : List.Disjoint ((h.cell a).slots.flatMap (placesIn h (places h fuel))) (a :: seen) := by
      rw [List.disjoint_cons_right]
      exact ⟨hnodup.1, hnew.2⟩
    change Traversal.explore _ _ _ _ _ _ _ = _
    rw [Traversal.explore, if_neg hnew.1]
    change (mapWithState ((arrayTraversal h print).settleOnce (visit h print fuel)) (a :: seen)
      (h.cell a).slots).map _ = _
    rw [mapWithState_of_nodup (fun _ _ => ih) hnodup.2 hnew', remembering, showAll, places]
    cases hshown : (h.cell a).slots.mapM (showElement h print (showAll h print fuel)) with
    | error thrown => rfl
    | ok shown =>
      have hlength := (forall₂_of_mapM_ok hshown).length_eq
      simp [Except.map, List.map_snd_zip, hlength]

/-- Elements shown without a marker: no place among theirs was met before or twice. -/
theorem nodup_of_mapWithState {elements : List Slot} {values : List (Slot × Shown)}
    (hvisit : ∀ seen inner shown seen', visit h print fuel seen inner = .ok (shown, seen') → ¬ Reports shown →
      seen' = (places h fuel inner).reverse ++ seen ∧ (places h fuel inner).Nodup ∧
        List.Disjoint (places h fuel inner) seen)
    (hrun : mapWithState ((arrayTraversal h print).settleOnce (visit h print fuel)) seen elements = .ok (values, seen'))
    (hclear : ∀ shown ∈ values.map Prod.snd, ¬ Reports shown) :
    seen' = (elements.flatMap (placesIn h (places h fuel))).reverse ++ seen ∧
      (elements.flatMap (placesIn h (places h fuel))).Nodup ∧
        List.Disjoint (elements.flatMap (placesIn h (places h fuel))) seen := by
  induction elements generalizing seen values with
  | nil =>
    cases hrun
    simp
  | cons element rest ih =>
    obtain ⟨value, next, more, hstep, hrest, rfl⟩ := mapWithState_cons_ok hrun
    rw [List.map_cons, List.forall_mem_cons] at hclear
    obtain ⟨hlast, hnodup, hnew⟩ := ih hrest hclear.2
    rw [List.flatMap_cons]
    obtain ⟨inner, hsettle, _, hplaces⟩ | ⟨hsettle, _, hplaces⟩ := settleOnce_cases h print fuel element
    · rw [hsettle] at hstep
      obtain ⟨⟨shown, next'⟩, hinner, heq⟩ := Traversal.map_eq_ok_iff.mp hstep
      cases heq
      obtain ⟨rfl, hfirst, hnewFirst⟩ := hvisit seen inner shown next' hinner hclear.1
      rw [List.disjoint_append_right] at hnew
      have hapart : List.Disjoint (places h fuel inner) (rest.flatMap (placesIn h (places h fuel))) :=
        fun b hinner hb => hnew.1 hb (List.mem_reverse.mpr hinner)
      rw [hplaces, List.nodup_append', List.disjoint_append_left]
      exact ⟨by simp [hlast], ⟨hfirst, hnodup, hapart⟩, hnewFirst, hnew.2⟩
    · rw [hsettle] at hstep
      obtain ⟨text, _, heq⟩ := Traversal.map_eq_ok_iff.mp hstep
      cases heq
      rw [hplaces, List.nil_append]
      exact ⟨hlast, hnodup, hnew⟩

/-- A visit that shows no marker has met no array twice. -/
theorem nodup_of_visit {shown : Shown} (hrun : visit h print fuel seen a = .ok (shown, seen'))
    (hclear : ¬ Reports shown) :
    seen' = (places h fuel a).reverse ++ seen ∧ (places h fuel a).Nodup ∧ List.Disjoint (places h fuel a) seen := by
  induction fuel generalizing seen a shown seen' with
  | zero => cases hrun
  | succ fuel ih =>
    rw [visit, Traversal.explore] at hrun
    split at hrun
    case isTrue =>
      cases hrun
      exact absurd .here hclear
    case isFalse hnew =>
      obtain ⟨⟨values, last⟩, hloop, heq⟩ := Traversal.map_eq_ok_iff.mp hrun
      cases heq
      have hitems : ∀ item ∈ values.map Prod.snd, ¬ Reports item :=
        fun item hmem hitem => hclear (.inside hmem hitem)
      obtain ⟨hlast, hnodup, hdisjoint⟩ := nodup_of_mapWithState (fun _ _ _ _ => ih) hloop hitems
      rw [List.disjoint_cons_right] at hdisjoint
      rw [places, List.nodup_cons, List.disjoint_cons_left]
      refine ⟨?_, ⟨hdisjoint.1, hnodup⟩, hnew, hdisjoint.2⟩
      rw [List.reverse_cons, List.append_assoc]
      exact hlast

end visits

section showing

variable {fuel more : ℕ}

theorem not_reports_of_showElement {recurse : ℕ → Except Thrown Shown} {element : Slot} {shown : Shown}
    (hrecurse : ∀ inner shown, recurse inner = .ok shown → ¬ Reports shown)
    (hshow : showElement h print recurse element = .ok shown) : ¬ Reports shown := by
  obtain ⟨inner, _, hrest, _⟩ | ⟨_, hrest, _⟩ := settleOnce_cases h print 0 element
  · rw [hrest] at hshow
    exact hrecurse inner shown hshow
  · rw [hrest] at hshow
    obtain ⟨text, _, rfl⟩ := Traversal.map_eq_ok_iff.mp hshow
    rintro ⟨⟩

/-- Without a memory there is no marker. -/
theorem not_reports_of_showAll {shown : Shown} (hshow : showAll h print fuel a = .ok shown) : ¬ Reports shown := by
  induction fuel generalizing a shown with
  | zero => cases hshow
  | succ fuel ih =>
    obtain ⟨items, hitems, rfl⟩ := Traversal.map_eq_ok_iff.mp hshow
    rw [reports_items_iff]
    intro h
    obtain ⟨item, hmem, hitem⟩ := h
    obtain ⟨element, _, helement⟩ := exists_of_mem_mapM hitems hmem
    exact not_reports_of_showElement (fun _ _ => ih) helement hitem

theorem showElement_congr {recurse recurse' : ℕ → Except Thrown Shown} {element : Slot}
    (hsame : ∀ inner, element = .ref inner → (h.cell inner).isArray = true → recurse inner = recurse' inner) :
    showElement h print recurse element = showElement h print recurse' element := by
  cases element with
  | ref inner =>
    rw [showElement, showElement]
    split
    · rename_i harray
      exact hsame inner rfl harray
    · rfl
  | _ => rfl

theorem showElement_ref {recurse : ℕ → Except Thrown Shown} (harray : (h.cell a).isArray = true) :
    showElement h print recurse (.ref a) = recurse a := by
  rw [showElement, if_pos harray]

theorem showElement_eq {recurse : ℕ → Except Thrown Shown} {element : Slot}
    (helement : ∀ inner, element = .ref inner → (h.cell inner).isArray = false) :
    showElement h print recurse element = (print element).map .text := by
  cases element with
  | ref inner => rw [showElement, helement inner rfl, if_neg Bool.false_ne_true]
  | _ => rfl

/-- With fuel for the longest way it makes no difference how much there is. -/
theorem showAll_fuel {steps : ℕ} (hshallow : Shallow (Nests h) steps a) (hfuel : steps ≤ fuel) (hmore : steps ≤ more) :
    showAll h print fuel a = showAll h print more a := by
  induction steps generalizing a fuel more with
  | zero => exact hshallow.elim
  | succ steps ih =>
    obtain ⟨fuel, rfl⟩ : ∃ fewer, fuel = fewer + 1 := ⟨fuel - 1, by omega⟩
    obtain ⟨more, rfl⟩ : ∃ fewer, more = fewer + 1 := ⟨more - 1, by omega⟩
    rw [showAll, showAll]
    congr 1
    apply mapM_congr
    intro element helement
    apply showElement_congr
    intro inner heq harray
    subst heq
    exact ih (hshallow inner ⟨helement, harray⟩) (by omega) (by omega)

end showing

end node_backend.stringifier

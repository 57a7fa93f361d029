import NodeBackend.Common.Separated

namespace js

/-- A value with all objects that it may reach, and the functions that go with them. -/
structure LiveGraph extends ObjectGraph where
  functions : Functions
  returned : functions.Return heap

end js

namespace node_backend.stringifier

open js graph Relation

variable {functions : Functions} {h t : Heap} {origin : ℕ → ℕ} {returnUndefined : Bool} {a : ℕ} {data : Slot}

/-- JSON.stringify finds a plain object inside itself, so that there is a second pass. -/
def PassesTwice (functions : Functions) (h : Heap) (data : Slot) : Prop :=
  ∃ obj prototype fields thrown, data = .ref obj ∧ h.cell obj = .obj prototype fields ∧
    stringify functions h data = .error thrown ∧ thrown.circular = .ok true

/-- If there is a second pass it comes to no array in two ways. -/
def PassesApart (functions : Functions) (h : Heap) (data : Slot) : Prop :=
  ∀ obj prototype fields, data = .ref obj → h.cell obj = .obj prototype fields →
    ∀ root, classify functions h ("", data) = .ok (.inr root) → CycleFirst functions h root → MetOnce functions h root

theorem lt_of_classify (hreturned : functions.Return h) (hdata : ∀ address, data = .ref address → address < h.length)
    {root : ℕ} (hclass : classify functions h ("", data) = .ok (.inr root)) : root < h.length := by
  obtain heq | hlt := Separates.classify_inr hreturned hclass
  · exact hdata root heq
  · exact hlt

theorem exists_root {text : Option String} (htwice : PassesTwice functions h data)
    (hrun : stringifyOnce functions h data = .ok text) :
    ∃ root, classify functions h ("", data) = .ok (.inr root) ∧ CycleFirst functions h root := by
  obtain ⟨_, _, _, thrown, _, _, herror, hcircular⟩ := htwice
  obtain hclass | ⟨root, hclass, hends⟩ := stringify_error_iff.mp herror
  · exact absurd hclass ((stringifyOnce_ok_iff.mp ⟨text, hrun⟩).1 thrown)
  · exact ⟨root, hclass, thrown, hends, hcircular⟩

theorem passesApart_of_not_twice (hnone : ¬ PassesTwice functions h data) : PassesApart functions h data := by
  intro obj prototype fields heq hcell root hclass hfirst
  obtain ⟨thrown, hends, hcircular⟩ := hfirst
  refine absurd ⟨obj, prototype, fields, thrown, heq, hcell, ?_, hcircular⟩ hnone
  exact stringify_error_iff.mpr (Or.inr ⟨root, hclass, hends⟩)

theorem tryMethod_map (this : Slot) (own : Prototype × Fields) (name : String) (inherited : Option Slot) :
    tryMethod functions this (own.1, own.2.map (Slot.rename origin)) name inherited =
      tryMethod functions this own name inherited := by
  rw [tryMethod, tryMethod, Fields.get_map]
  cases own.2.get name with
  | none => rfl
  | some method => cases method <;> rfl

theorem stringOf_map (this : Slot) (own : Prototype × Fields) (inherited : String) :
    stringOf functions this (own.1, own.2.map (Slot.rename origin)) inherited =
      stringOf functions this own inherited := by
  rw [stringOf, stringOf, tryMethod_map, tryMethod_map]

/-- The second pass is made where the first one met a cycle. -/
theorem parseObjectToString_twice {thrown : Thrown} {fallback : String}
    (herror : stringify functions h data = .error thrown) (hcircular : thrown.circular = .ok true) :
    parseObjectToString functions h data fallback = stringifyOnce functions h data := by
  rw [parseObjectToString, herror]
  dsimp only
  rw [hcircular]
  rfl

section elements

variable (hsep : Separates h t origin) (hreturned : functions.Return h)
  (hdata : ∀ address, data = .ref address → address < h.length)
  (hobject : ∀ address, data = .ref address → (h.cell address).isArray = false)

include hsep hreturned hdata

theorem classify_copied {root : ℕ} (hclass : classify functions h ("", data) = .ok (.inr root)) :
    classify functions t ("", data) = .ok (.inr root) := by
  rw [hsep.classify_eq hreturned hdata, Traversal.map_eq_ok_iff] at hclass
  obtain ⟨found, hfound, heq⟩ := hclass
  cases found with
  | inl value => cases heq
  | inr x =>
    cases heq
    have hx : x < h.length := by
      obtain hsame | hlt := Separates.classify_inr hreturned hfound
      · exact hdata x hsame
      · exact hlt
    rw [hfound, hsep.same x hx]

theorem parseObjectToString_once {fallback : String} {obj : ℕ} {prototype : Prototype} {fields : Fields}
    (heq : data = .ref obj) (hcell : h.cell obj = .obj prototype fields) (hnone : ¬ PassesTwice functions h data) :
    parseObjectToString functions t data fallback = parseObjectToString functions h data fallback := by
  rw [parseObjectToString, parseObjectToString, hsep.stringify_eq hreturned hdata]
  cases hfirst : stringify functions h data with
  | ok text => rfl
  | error thrown =>
    dsimp only
    cases hcircular : thrown.circular with
    | error again => rfl
    | ok circular =>
      cases circular with
      | false => rfl
      | true => exact absurd ⟨obj, prototype, fields, thrown, heq, hcell, hfirst, hcircular⟩ hnone

omit hreturned in
/-- What is shown of a plain object and of the copied one. -/
theorem elementToString_copied (functions : Functions) (returnUndefined : Bool) {obj : ℕ} {prototype : Prototype}
    {fields : Fields} (heq : data = .ref obj) (hcell : h.cell obj = .obj prototype fields) :
    ∃ converted : Except Thrown String,
      elementToString functions h returnUndefined data = converted.bind (parseObjectToString functions h data) ∧
        elementToString functions t returnUndefined data = converted.bind (parseObjectToString functions t data) := by
  subst heq
  have hcopy := hsep.cell obj
  rw [hsep.same obj (hdata obj rfl), hcell] at hcopy
  refine ⟨stringOf functions (.ref obj) (prototype, fields) "[object Object]", ?_, ?_⟩
  · rw [elementToString, hcell]
    rfl
  · rw [elementToString]
    cases hcopied : t.cell obj with
    | obj given copied =>
      rw [hcopied] at hcopy
      obtain ⟨rfl, rfl⟩ := Cell.obj.inj hcopy
      rw [stringOf_map _ (given, copied)]
      rfl
    | arr items =>
      rw [hcopied] at hcopy
      cases hcopy
    | error name message more =>
      rw [hcopied] at hcopy
      cases hcopy

theorem elementToString_twice {text : Option String} (htwice : PassesTwice functions h data)
    (hshow : elementToString functions h returnUndefined data = .ok text) :
    elementToString functions h returnUndefined data = stringifyOnce functions h data ∧
      elementToString functions t returnUndefined data = stringifyOnce functions t data := by
  obtain ⟨obj, prototype, fields, thrown, heq, hcell, herror, hcircular⟩ := htwice
  obtain ⟨converted, hbefore, hafter⟩ :=
    elementToString_copied hsep hdata functions returnUndefined heq hcell
  cases converted with
  | error thrown =>
    rw [hbefore] at hshow
    cases hshow
  | ok fallback =>
    rw [hbefore, hafter]
    refine ⟨parseObjectToString_twice herror hcircular, parseObjectToString_twice ?_ hcircular⟩
    rw [hsep.stringify_eq hreturned hdata, herror]

include hobject

theorem elementToString_once (hnone : ¬ PassesTwice functions h data) :
    elementToString functions t returnUndefined data = elementToString functions h returnUndefined data := by
  cases data with
  | ref address =>
    cases hcell : h.cell address with
    | arr items =>
      have hkind := hobject address rfl
      rw [hcell] at hkind
      cases hkind
    | obj prototype fields =>
      obtain ⟨converted, hbefore, hafter⟩ :=
        elementToString_copied hsep hdata functions returnUndefined rfl hcell
      rw [hbefore, hafter]
      cases converted with
      | error thrown => rfl
      | ok fallback => exact parseObjectToString_once hsep hreturned hdata rfl hcell hnone
    | error name message fields =>
      have hcopy := hsep.cell address
      rw [hsep.same address (hdata address rfl), hcell] at hcopy
      rw [elementToString, elementToString, hcell]
      cases hcopied : t.cell address with
      | error name' message' copied =>
        rw [hcopied] at hcopy
        obtain ⟨rfl, rfl, _⟩ := Cell.error.inj hcopy
        rfl
      | arr items =>
        rw [hcopied] at hcopy
        cases hcopy
      | obj prototype more =>
        rw [hcopied] at hcopy
        cases hcopy
  | _ => rfl

/-- A copy is shown if the object is. -/
theorem elementToString_ok_iff_copied :
    (∃ text, elementToString functions t returnUndefined data = .ok text) ↔
      ∃ text, elementToString functions h returnUndefined data = .ok text := by
  by_cases htwice : PassesTwice functions h data
  · obtain ⟨obj, prototype, fields, thrown, heq, hcell, herror, hcircular⟩ := htwice
    obtain ⟨converted, hbefore, hafter⟩ :=
      elementToString_copied hsep hdata functions returnUndefined heq hcell
    cases converted with
    | error thrown => simp [hbefore, hafter, Except.bind]
    | ok fallback =>
      have hparse : parseObjectToString functions t data fallback = stringifyOnce functions t data := by
        apply parseObjectToString_twice _ hcircular
        rw [hsep.stringify_eq hreturned hdata, herror]
      rw [hbefore, hafter, Except.bind, Except.bind, hparse, parseObjectToString_twice herror hcircular]
      exact hsep.stringifyOnce_ok_iff_copied hreturned hdata
  · rw [elementToString_once hsep hreturned hdata hobject htwice]

/-- Two texts of an element: they are one exactly if no array is met in two ways, and two
different ones are both texts of JSON. -/
theorem texts_of_element {text' text : Option String}
    (hshow' : elementToString functions t returnUndefined data = .ok text')
    (hshow : elementToString functions h returnUndefined data = .ok text) :
    (text' = text ↔ PassesApart functions h data) ∧
      (text' = text ∨ ∃ value' value : json.Value, value'.KeysOnce ∧ value.KeysOnce ∧
        text' = some value'.stringify ∧ text = some value.stringify) := by
  by_cases htwice : PassesTwice functions h data
  · obtain ⟨hbefore, hafter⟩ := elementToString_twice hsep hreturned hdata htwice hshow
    rw [hbefore] at hshow
    rw [hafter] at hshow'
    obtain ⟨root, hclass, hfirst⟩ := exists_root htwice hshow
    have hroot := lt_of_classify hreturned hdata hclass
    have hclass' := classify_copied hsep hreturned hdata hclass
    obtain ⟨value', hvalue', rfl⟩ := parses_of_stringifyOnce hclass' hshow'
    obtain ⟨value, hvalue, rfl⟩ := parses_of_stringifyOnce hclass hshow
    refine ⟨?_, Or.inr ⟨value', value, hvalue', hvalue, rfl, rfl⟩⟩
    rw [hsep.stringifyOnce_eq_iff hreturned hdata hclass' hshow' hshow, hsep.injOn_iff_metOnce hreturned hroot]
    constructor
    · intro honce obj prototype fields _ _ other hother _
      rw [hclass] at hother
      cases hother
      exact honce
    · intro hapart
      obtain ⟨obj, prototype, fields, thrown, heq, hcell, _⟩ := htwice
      exact hapart obj prototype fields heq hcell root hclass hfirst
  · rw [elementToString_once hsep hreturned hdata hobject htwice, hshow] at hshow'
    cases hshow'
    exact ⟨iff_of_true rfl (passesApart_of_not_twice htwice), Or.inl rfl⟩

end elements

section telling

/-- Two results whose texts are one only if they are, whatever is behind them. -/
def Tells (shown' shown : Shown) : Prop :=
  ∀ rest' rest, json.EndsNumber rest' → json.EndsNumber rest →
    shown'.render.toList ++ rest' = shown.render.toList ++ rest → shown' = shown ∧ rest' = rest

variable {items' items : List Shown}

theorem tells_refl (shown : Shown) : Tells shown shown := by
  intro rest' rest _ _ heq
  exact ⟨rfl, List.append_cancel_left heq⟩

theorem tells_json {value' value : json.Value} (hvalue' : value'.KeysOnce) (hvalue : value.KeysOnce) :
    Tells (.text (some value'.stringify)) (.text (some value.stringify)) := by
  intro rest' rest hrest' hrest heq
  simp only [Shown.render, Option.getD_some, json.Value.stringify, String.toList_ofList] at heq
  obtain ⟨rfl, rfl⟩ := json.text_append_inj hvalue' hvalue hrest' hrest heq
  exact ⟨rfl, rfl⟩

theorem endsNumber_bracket (rest : List Char) : json.EndsNumber (']' :: rest) :=
  json.endsNumber_cons rest (by simp)

theorem tells_renderItems (htells : List.Forall₂ Tells items' items) (rest' rest : List Char)
    (heq : (renderItems items').toList ++ ']' :: rest' = (renderItems items).toList ++ ']' :: rest) :
    items' = items ∧ rest' = rest := by
  induction htells with
  | nil => exact ⟨rfl, (List.cons.inj heq).2⟩
  | @cons item' item more' more hitem hmore ih =>
    cases hmore with
    | nil =>
      obtain ⟨rfl, hrest⟩ := hitem _ _ (endsNumber_bracket rest') (endsNumber_bracket rest) heq
      exact ⟨rfl, (List.cons.inj hrest).2⟩
    | cons hnext hothers =>
      simp only [renderItems_cons_cons, String.toList_append, List.append_assoc] at heq
      obtain ⟨rfl, hrest⟩ := hitem _ _ (json.endsNumber_comma _) (json.endsNumber_comma _) heq
      obtain ⟨hlast, rfl⟩ := ih (List.cons.inj hrest).2
      exact ⟨by rw [hlast], rfl⟩

theorem tells_items (htells : List.Forall₂ Tells items' items) : Tells (.items items') (.items items) := by
  intro rest' rest _ _ heq
  simp only [Shown.render, String.toList_append, List.append_assoc] at heq
  obtain ⟨rfl, rfl⟩ := tells_renderItems htells rest' rest (List.cons.inj heq).2
  exact ⟨rfl, rfl⟩

end telling

theorem parseArrayToString_of_nodup {print : Slot → Except Thrown (Option String)}
    (hnodup : (places h (h.length + 1) a).Nodup) : parseArrayToString h print a = showAll h print (h.length + 1) a := by
  rw [parseArrayToString_eq_visit, visit_of_nodup hnodup (List.disjoint_nil_right _), remembering]
  cases showAll h print (h.length + 1) a <;> rfl

section arrays

variable (hsep : Separates h t origin)

include hsep

theorem nests_origin {b : ℕ} (hnests : Nests t a b) : Nests h (origin a) (origin b) := by
  obtain ⟨i, hat⟩ := exists_at hnests
  exact (hsep.at_origin hat).nests

theorem exists_nests {c : ℕ} (hnests : Nests h (origin a) c) : ∃ b, Nests t a b ∧ origin b = c := by
  obtain ⟨hholds, harray⟩ := hnests
  rw [Heap.Holds, hsep.slots] at hholds
  obtain ⟨slot, hslot, heq⟩ := List.mem_map.mp hholds
  cases slot with
  | ref b =>
    cases heq
    exact ⟨b, ⟨hslot, by rw [hsep.isArray, harray]⟩, rfl⟩
  | _ => cases heq

theorem exists_reach_nests {c : ℕ} (hreach : ReflTransGen (Nests h) (origin a) c) :
    ∃ b, ReflTransGen (Nests t) a b ∧ origin b = c := by
  induction hreach with
  | refl => exact ⟨a, .refl, rfl⟩
  | tail _ hnests ih =>
    obtain ⟨b, hb, rfl⟩ := ih
    obtain ⟨c, hc, rfl⟩ := exists_nests hsep hnests
    exact ⟨c, hb.tail hc, rfl⟩

theorem shallow_copied {steps : ℕ} (hshallow : Shallow (Nests h) steps (origin a)) : Shallow (Nests t) steps a := by
  induction steps generalizing a with
  | zero => exact hshallow
  | succ steps ih =>
    intro b hnests
    exact ih (hshallow (origin b) (nests_origin hsep hnests))

/-- An element that is no array is the one that there was. -/
theorem element_copied {element : Slot} (hmem : element ∈ (t.cell a).slots)
    (helement : ∀ inner, element = .ref inner → (t.cell inner).isArray = false) :
    (∀ inner, element = .ref inner → inner < h.length) ∧ element.rename origin = element ∧
      ∀ inner, element = .ref inner → (h.cell inner).isArray = false := by
  have hlt : ∀ inner, element = .ref inner → inner < h.length := by
    intro inner heq
    subst heq
    exact hsep.object a inner hmem (helement inner rfl)
  refine ⟨hlt, hsep.rename_of_lt hlt, ?_⟩
  intro inner heq
  have hkind := helement inner heq
  rwa [hsep.isArray, hsep.same inner (hlt inner heq)] at hkind

/-- An element that is no array is in the copy too. -/
theorem exists_element {element : Slot} (hmem : element ∈ (h.cell (origin a)).slots)
    (helement : ∀ inner, element = .ref inner → (h.cell inner).isArray = false) :
    ∃ copied ∈ (t.cell a).slots, (∀ inner, copied = .ref inner → (t.cell inner).isArray = false) ∧
      copied.rename origin = element := by
  rw [hsep.slots] at hmem
  obtain ⟨copied, hcopied, rfl⟩ := List.mem_map.mp hmem
  refine ⟨copied, hcopied, ?_, rfl⟩
  intro inner heq
  subst heq
  rw [hsep.isArray]
  exact helement (origin inner) rfl

section showing

variable (hreturned : functions.Return h) {fuel : ℕ} {shown' shown : Shown}

include hreturned

/-- An element that is no array, shown twice. -/
theorem showElement_copied {element : Slot} (recurse' recurse : ℕ → Except Thrown Shown)
    (hmem : element ∈ (t.cell a).slots)
    (helement : ∀ inner, element = .ref inner → (t.cell inner).isArray = false)
    (hshow' : showElement t (elementToString functions t returnUndefined) recurse' element = .ok shown')
    (hshow : showElement h (elementToString functions h returnUndefined) recurse (element.rename origin) = .ok shown) :
    (shown' = shown ↔ PassesApart functions h element) ∧ Tells shown' shown := by
  obtain ⟨hlt, hsame, helement'⟩ := element_copied hsep hmem helement
  rw [showElement_eq helement] at hshow'
  rw [hsame, showElement_eq helement'] at hshow
  obtain ⟨text', htext', rfl⟩ := Traversal.map_eq_ok_iff.mp hshow'
  obtain ⟨text, htext, rfl⟩ := Traversal.map_eq_ok_iff.mp hshow
  obtain ⟨hsame, hjson⟩ := texts_of_element hsep hreturned hlt helement' htext' htext
  rw [Shown.text.injEq]
  refine ⟨hsame, ?_⟩
  obtain rfl | ⟨value', value, hvalue', hvalue, rfl, rfl⟩ := hjson
  · exact tells_refl _
  · exact tells_json hvalue' hvalue

/-- What is shown of a copy tells what is shown of the array, by induction on the depth. -/
theorem tells_of_showAll
    (hshow' : showAll t (elementToString functions t returnUndefined) fuel a = .ok shown')
    (hshow : showAll h (elementToString functions h returnUndefined) fuel (origin a) = .ok shown) :
    Tells shown' shown := by
  induction fuel generalizing a shown' shown with
  | zero => cases hshow'
  | succ fuel ih =>
    obtain ⟨items', hitems', rfl⟩ := Traversal.map_eq_ok_iff.mp hshow'
    obtain ⟨items, hitems, rfl⟩ := Traversal.map_eq_ok_iff.mp hshow
    rw [hsep.slots] at hitems
    apply tells_items
    apply forall₂_of_mapM _ hitems' hitems
    intro element hmem item' item hitem' hitem
    by_cases harray : ∃ inner, element = .ref inner ∧ (t.cell inner).isArray = true
    · obtain ⟨inner, rfl, harray⟩ := harray
      rw [showElement_ref harray] at hitem'
      rw [Slot.rename, showElement_ref (by rw [← hsep.isArray, harray])] at hitem
      exact ih hitem' hitem
    · push Not at harray
      exact (showElement_copied hsep hreturned _ _ hmem
        (fun inner heq => Bool.eq_false_iff.mpr (harray inner heq)) hitem' hitem).2

/-- A copy is shown as the array exactly if no array is met in two ways below. -/
theorem eq_of_showAll_iff
    (hshow' : showAll t (elementToString functions t returnUndefined) fuel a = .ok shown')
    (hshow : showAll h (elementToString functions h returnUndefined) fuel (origin a) = .ok shown) :
    shown' = shown ↔ ∀ array, ReflTransGen (Nests h) (origin a) array → ∀ element ∈ (h.cell array).slots,
      (∀ inner, element = .ref inner → (h.cell inner).isArray = false) → PassesApart functions h element := by
  induction fuel generalizing a shown' shown with
  | zero => cases hshow'
  | succ fuel ih =>
    obtain ⟨items', hitems', rfl⟩ := Traversal.map_eq_ok_iff.mp hshow'
    obtain ⟨items, hitems, rfl⟩ := Traversal.map_eq_ok_iff.mp hshow
    rw [hsep.slots] at hitems
    rw [Shown.items.injEq, mapM_eq_iff hitems' hitems]
    have hruns : ∀ element ∈ (t.cell a).slots,
        (∃ item', showElement t (elementToString functions t returnUndefined)
          (showAll t (elementToString functions t returnUndefined) fuel) element = .ok item') ∧
        ∃ item, showElement h (elementToString functions h returnUndefined)
          (showAll h (elementToString functions h returnUndefined) fuel) (element.rename origin) = .ok item := by
      intro element hmem
      exact ⟨mapM_ok_iff.mp ⟨items', hitems'⟩ element hmem,
        mapM_ok_iff.mp ⟨items, hitems⟩ _ (List.mem_map_of_mem hmem)⟩
    constructor
    · intro hsame array hreach element hmem helement
      obtain rfl | ⟨c, hnests, hreach⟩ := ReflTransGen.cases_head hreach
      · obtain ⟨copied, hcopied, helement', rfl⟩ := exists_element hsep hmem helement
        obtain ⟨⟨item, hitem'⟩, _⟩ := hruns copied hcopied
        have hitem := hitem'
        rw [hsame copied hcopied] at hitem
        rw [(element_copied hsep hcopied helement').2.1]
        exact (showElement_copied hsep hreturned _ _ hcopied helement' hitem' hitem).1.mp rfl
      · obtain ⟨b, ⟨hholds, harray⟩, rfl⟩ := exists_nests hsep hnests
        obtain ⟨⟨item, hitem'⟩, _⟩ := hruns (.ref b) hholds
        have hitem := hitem'
        rw [hsame (.ref b) hholds] at hitem
        rw [showElement_ref harray] at hitem'
        rw [Slot.rename, showElement_ref hnests.2] at hitem
        exact (ih hitem' hitem).mp rfl array hreach element hmem helement
    · intro hall element hmem
      obtain ⟨⟨item', hitem'⟩, item, hitem⟩ := hruns element hmem
      rw [hitem', hitem]
      congr 1
      by_cases harray : ∃ inner, element = .ref inner ∧ (t.cell inner).isArray = true
      · obtain ⟨inner, rfl, harray⟩ := harray
        have hnests := nests_origin hsep ⟨hmem, harray⟩
        rw [showElement_ref harray] at hitem'
        rw [Slot.rename, showElement_ref hnests.2] at hitem
        exact (ih hitem' hitem).mpr fun array hreach => hall array (hreach.head hnests)
      · push Not at harray
        have helement : ∀ inner, element = .ref inner → (t.cell inner).isArray = false :=
          fun inner heq => Bool.eq_false_iff.mpr (harray inner heq)
        obtain ⟨_, hsame, helement'⟩ := element_copied hsep hmem helement
        apply (showElement_copied hsep hreturned _ _ hmem helement hitem' hitem).1.mpr
        apply hall (origin a) .refl element _ helement'
        rw [hsep.slots]
        rw [← hsame]
        exact List.mem_map_of_mem hmem

/-- The copy is shown if the array is. -/
theorem parseArrayToString_ok_iff_copied (a : ℕ) (returnUndefined : Bool) :
    (∃ shown, parseArrayToString t (elementToString functions t returnUndefined) a = .ok shown) ↔
      ∃ shown, parseArrayToString h (elementToString functions h returnUndefined) (origin a) = .ok shown := by
  rw [parseArrayToString_ok_iff, parseArrayToString_ok_iff]
  constructor
  · intro hall array hreach element hmem helement
    obtain ⟨b, hb, rfl⟩ := exists_reach_nests hsep hreach
    obtain ⟨copied, hcopied, helement', rfl⟩ := exists_element hsep hmem helement
    obtain ⟨hlt, hsame, _⟩ := element_copied hsep hcopied helement'
    rw [hsame] at helement ⊢
    exact (elementToString_ok_iff_copied hsep hreturned hlt helement).mp (hall b hb copied hcopied helement')
  · intro hall b hreach element hmem helement
    obtain ⟨hlt, hsame, helement'⟩ := element_copied hsep hmem helement
    have hreach' : ReflTransGen (Nests h) (origin a) (origin b) :=
      ReflTransGen.lift origin (fun _ _ => nests_origin hsep) _ _ hreach
    apply (elementToString_ok_iff_copied hsep hreturned hlt helement').mpr
    apply hall (origin b) hreach' element _ helement'
    rw [hsep.slots, ← hsame]
    exact List.mem_map_of_mem hmem

end showing

/-- A copy has no array at two places, so that a memory makes no difference to it. -/
theorem parseArrayToString_copied (print : Slot → Except Thrown (Option String))
    (hacyclic : Acyclic (Nests h) (origin a)) :
    parseArrayToString t print a = showAll t print (h.length + 1) a := by
  have hshallow := shallow_copied hsep (shallow_nests hacyclic)
  have hnodup : (places t (t.length + 1) a).Nodup := by
    rw [nodup_places_iff hshallow.grounded.acyclic]
    intro b i c j array _ _ hb hc
    exact hsep.once b i c j array hb hc
  have hgrows := hsep.grows
  rw [parseArrayToString_of_nodup hnodup, showAll_fuel hshallow (by omega) le_rfl]

end arrays

/-- Where an element of an array, or of the arrays inside, has a second pass of
JSON.stringify, the pass comes to no array in two ways. -/
def AllPassApart (functions : Functions) (h : Heap) (array : ℕ) : Prop :=
  ∀ inner, ReflTransGen (Nests h) array inner → ∀ element ∈ (h.cell inner).slots,
    (∀ address, element = .ref address → (h.cell address).isArray = false) → PassesApart functions h element

/-- The marker is in what is shown of an array. -/
def Reported (functions : Functions) (h : Heap) (returnUndefined : Bool) (array : ℕ) : Prop :=
  ∃ shown, parseArrayToString h (elementToString functions h returnUndefined) array = .ok shown ∧ Reports shown

/-- What is shown of an array with separate copies tells what is shown of the array, and is the
same exactly if every second pass of JSON.stringify comes to no array in two ways. -/
theorem tells_separate (graph : LiveGraph) {array : ℕ} (hdata : graph.data = .ref array)
    (hacyclic : ∀ address, ¬ TransGen (Nests graph.heap) address address) {shown' shown : Shown}
    (hshow' : parseArrayToString (separate graph.heap)
      (elementToString graph.functions (separate graph.heap) returnUndefined) array = .ok shown')
    (hshow : showAll graph.heap (elementToString graph.functions graph.heap returnUndefined) (graph.heap.length + 1)
      array = .ok shown) :
    Tells shown' shown ∧ (shown' = shown ↔ AllPassApart graph.functions graph.heap array) := by
  have hsep := separates_separate hacyclic graph.closed
  have horigin : originOf graph.heap array = array := originOf_of_lt hacyclic (graph.allocated array hdata)
  have hacyclic' : Acyclic (Nests graph.heap) (originOf graph.heap array) := fun b _ => hacyclic b
  rw [parseArrayToString_copied hsep _ hacyclic'] at hshow'
  rw [← horigin] at hshow
  have hiff := eq_of_showAll_iff hsep graph.returned hshow' hshow
  rw [horigin] at hiff
  exact ⟨tells_of_showAll hsep graph.returned hshow' hshow, hiff⟩

/-- If no array contains itself, the text of an array is that of one with separate copies,
and free of the marker, exactly if each nested array is at one place and every second pass of
JSON.stringify comes to no array in two ways, or there is no text at all. -/
theorem separate_shown_iff (graph : LiveGraph) (returnUndefined : Bool) (array : ℕ)
    (hdata : graph.data = .ref array) (harray : (graph.heap.cell array).isArray = true)
    (hacyclic : ∀ address, ¬ TransGen (Nests graph.heap) address address) :
    ((∀ text, toString graph.functions graph.heap returnUndefined graph.data = .ok (some text) ↔
        toString graph.functions (separate graph.heap) returnUndefined graph.data = .ok (some text)) ∧
      ¬ Reported graph.functions graph.heap returnUndefined array) ↔
    HeldOnce graph.heap array ∧ AllPassApart graph.functions graph.heap array ∨
      ¬ Stringifies graph.functions graph.heap graph.data := by
  have hsep := separates_separate hacyclic graph.closed
  have horigin : originOf graph.heap array = array := originOf_of_lt hacyclic (graph.allocated array hdata)
  have hcopy : ((separate graph.heap).cell array).isArray = true := by rw [hsep.isArray, horigin, harray]
  have hacyclic' : Acyclic (Nests graph.heap) array := fun b _ => hacyclic b
  have hruns := parseArrayToString_ok_iff_copied hsep graph.returned array returnUndefined
  rw [horigin] at hruns
  simp only [hdata, toString_array_iff harray, toString_array_iff hcopy,
    ← shown_iff graph.functions returnUndefined harray, ← nodup_places_iff hacyclic']
  constructor
  · intro h
    obtain ⟨htexts, hclear⟩ := h
    by_contra hneither
    push Not at hneither
    obtain ⟨hapart, shown, hparse⟩ := hneither
    have hquiet : ¬ Reports shown := fun hreports => hclear ⟨shown, hparse, hreports⟩
    have hvisits := hparse
    rw [parseArrayToString_eq_visit] at hvisits
    obtain ⟨⟨_, seen⟩, hvisit, rfl⟩ := Traversal.map_eq_ok_iff.mp hvisits
    have hnodup := (nodup_of_visit hvisit hquiet).2.1
    obtain ⟨shown', hparse', hrender⟩ := (htexts _).mp ⟨_, hparse, rfl⟩
    rw [parseArrayToString_of_nodup hnodup] at hparse
    obtain ⟨htells, hiff⟩ := tells_separate graph hdata hacyclic hparse' hparse
    apply hapart hnodup
    apply hiff.mp
    exact (htells [] [] json.endsNumber_nil json.endsNumber_nil (by rw [hrender])).1
  · intro h
    obtain ⟨hnodup, hapart⟩ | hthrows := h
    · rw [Reported, parseArrayToString_of_nodup hnodup] at *
      constructor
      · intro text
        constructor
        · intro h
          obtain ⟨shown, hshow, rfl⟩ := h
          obtain ⟨shown', hshow'⟩ := hruns.mpr ⟨shown, hshow⟩
          exact ⟨shown', hshow', by rw [(tells_separate graph hdata hacyclic hshow' hshow).2.mpr hapart]⟩
        · intro h
          obtain ⟨shown', hshow', rfl⟩ := h
          obtain ⟨shown, hshow⟩ := hruns.mp ⟨shown', hshow'⟩
          exact ⟨shown, hshow, by rw [(tells_separate graph hdata hacyclic hshow' hshow).2.mpr hapart]⟩
      · intro h
        obtain ⟨shown, hshow, hreports⟩ := h
        exact not_reports_of_showAll hshow hreports
    · -- What there is no text of, there is none of with copies.
      constructor
      · intro text
        constructor
        · intro h
          obtain ⟨shown, hparse, _⟩ := h
          exact absurd ⟨shown, hparse⟩ hthrows
        · intro h
          obtain ⟨shown', hparse', _⟩ := h
          exact absurd (hruns.mp ⟨shown', hparse'⟩) hthrows
      · intro h
        obtain ⟨shown, hparse, _⟩ := h
        exact hthrows ⟨shown, hparse⟩

theorem not_contains_of_lt {h : Heap} (hlt : ∀ outer inner, Nests h outer inner → outer < inner) (address : ℕ) :
    ¬ TransGen (Nests h) address address := by
  suffices hall : ∀ b c, TransGen (Nests h) b c → b < c from fun hcycle => lt_irrefl _ (hall _ _ hcycle)
  intro b c hreach
  induction hreach with
  | single hnests => exact hlt _ _ hnests
  | tail _ hnests ih => exact ih.trans (hlt _ _ hnests)

/-- Two arrays that hold the same. -/
def equalArrays : LiveGraph where
  heap := [.arr [.ref 1, .ref 2], .arr [.str "a"], .arr [.str "a"]]
  data := .ref 0
  closed := by
    apply Heap.closed_of_mem
    simp [Cell.slots]
  allocated := by
    intro address heq
    cases heq
    exact Nat.succ_pos 2
  functions := inert
  returned := by
    intro id this arguments address hreturned
    cases hreturned

theorem holds_equalArrays {outer inner : ℕ} (hholds : equalArrays.heap.Holds outer inner) :
    outer = 0 ∧ (inner = 1 ∨ inner = 2) := by
  have hlt : outer < 3 := Heap.lt_of_holds hholds
  obtain rfl | rfl | rfl : outer = 0 ∨ outer = 1 ∨ outer = 2 := by omega
  · have hmem : Slot.ref inner ∈ [Slot.ref 1, .ref 2] := hholds
    exact ⟨rfl, by simpa using hmem⟩
  · have hmem : Slot.ref inner ∈ [Slot.str "a"] := hholds
    simp at hmem
  · have hmem : Slot.ref inner ∈ [Slot.str "a"] := hholds
    simp at hmem

theorem endless_equalArrays (address : ℕ) : ¬ TransGen (Nests equalArrays.heap) address address := by
  apply not_contains_of_lt
  intro outer inner hnests
  obtain ⟨rfl, rfl | rfl⟩ := holds_equalArrays hnests.1
  · exact Nat.zero_lt_one
  · exact Nat.zero_lt_two

theorem allPassApart_equalArrays : AllPassApart equalArrays.functions equalArrays.heap 0 := by
  intro inner _ element hmem _ obj prototype fields heq hcell
  subst heq
  obtain ⟨_, rfl | rfl⟩ := holds_equalArrays hmem
  · cases hcell
  · cases hcell

theorem separate_shown_iff_equalArrays :
    (∀ text, toString equalArrays.functions equalArrays.heap false (.ref 0) = .ok (some text) ↔
        toString equalArrays.functions (separate equalArrays.heap) false (.ref 0) = .ok (some text)) ∧
      ¬ Reported equalArrays.functions equalArrays.heap false 0 :=
  (separate_shown_iff equalArrays false 0 rfl rfl endless_equalArrays).mpr
    (Or.inl ⟨(nodup_places_iff fun b _ => endless_equalArrays b).mp (by decide), allPassApart_equalArrays⟩)

/-- One array at two places. -/
def sharedArray : LiveGraph where
  heap := [.arr [.ref 1, .ref 1], .arr [.str "a"]]
  data := .ref 0
  closed := by
    apply Heap.closed_of_mem
    simp [Cell.slots]
  allocated := by
    intro address heq
    cases heq
    exact Nat.succ_pos 1
  functions := inert
  returned := by
    intro id this arguments address hreturned
    cases hreturned

theorem endless_sharedArray (address : ℕ) : ¬ TransGen (Nests sharedArray.heap) address address := by
  apply not_contains_of_lt
  intro outer inner hnests
  obtain ⟨hholds, _⟩ := hnests
  have hlt : outer < 2 := Heap.lt_of_holds hholds
  obtain rfl | rfl : outer = 0 ∨ outer = 1 := by omega
  · have hmem : Slot.ref inner ∈ [Slot.ref 1, .ref 1] := hholds
    obtain rfl : inner = 1 := by simpa using hmem
    exact Nat.zero_lt_one
  · have hmem : Slot.ref inner ∈ [Slot.str "a"] := hholds
    simp at hmem

/-- At its second place the array is taken for one inside itself. -/
theorem shared_reported :
    ¬ ∀ (graph : LiveGraph) (returnUndefined : Bool) (array : ℕ), graph.data = .ref array →
      (graph.heap.cell array).isArray = true → (∀ address, ¬ TransGen (Nests graph.heap) address address) →
      (∀ text, toString graph.functions graph.heap returnUndefined graph.data = .ok (some text) ↔
        toString graph.functions (separate graph.heap) returnUndefined graph.data = .ok (some text)) ∧
      ¬ Reported graph.functions graph.heap returnUndefined array := by
  intro hclaim
  obtain ⟨_, hclear⟩ := hclaim sharedArray false 0 rfl rfl endless_sharedArray
  apply hclear
  refine ⟨.items [.items [.text (some "a")], .circular], rfl, ?_⟩
  exact .inside (by simp) .here

end node_backend.stringifier

import NodeBackend.Common.Places

namespace js

/-- A value of a heap as it is in another one. -/
def Slot.rename (f : ℕ → ℕ) : Slot → Slot
  | .ref address => .ref (f address)
  | slot => slot

namespace Fields

def mapIdx (f : ℕ → Slot → Slot) (fields : Fields) : Fields where
  entries := fields.entries.mapIdx fun place entry => (entry.1, f place entry.2)
  distinct := by
    have hkeys : (fields.entries.mapIdx fun place entry => (entry.1, f place entry.2)).map Prod.fst =
        fields.entries.map Prod.fst := by
      apply List.ext_getElem?
      intro place
      cases hentry : fields.entries[place]? <;> simp [hentry]
    rw [hkeys]
    exact fields.distinct

theorem values_mapIdx (f : ℕ → Slot → Slot) (fields : Fields) :
    (fields.mapIdx f).values = fields.values.mapIdx f := by
  apply List.ext_getElem?
  intro place
  cases hentry : fields.entries[place]? <;> simp [values, mapIdx, hentry]

theorem get_map (f : Slot → Slot) (fields : Fields) (key : String) :
    (fields.map f).get key = (fields.get key).map f := by
  rw [get, get, map]
  dsimp only
  induction fields.entries with
  | nil => rfl
  | cons entry rest ih =>
    rw [List.map_cons, List.lookup_cons, List.lookup_cons]
    cases key == entry.1 with
    | true => rfl
    | false => exact ih

theorem map_mapIdx (g : Slot → Slot) (f : ℕ → Slot → Slot) (fields : Fields) :
    (fields.mapIdx f).map g = fields.mapIdx fun place slot => g (f place slot) := by
  rw [map, mapIdx, mapIdx]
  congr 1
  apply List.ext_getElem?
  intro place
  cases hentry : fields.entries[place]? <;> simp [hentry]

theorem mapIdx_eq_self {f : ℕ → Slot → Slot} {fields : Fields}
    (hsame : ∀ place slot, fields.values[place]? = some slot → f place slot = slot) : fields.mapIdx f = fields := by
  cases fields with
  | mk entries distinct =>
    rw [mapIdx]
    congr 1
    apply List.ext_getElem?
    intro place
    cases hentry : entries[place]? with
    | none => simp [hentry]
    | some entry =>
      have hslot := hsame place entry.2 (by simp [values, hentry])
      simp [hentry, hslot]

end Fields

namespace Cell

def map (f : Slot → Slot) : Cell → Cell
  | .arr items => .arr (items.map f)
  | .obj prototype fields => .obj prototype (fields.map f)
  | .error name message fields => .error name message (fields.map f)

def mapIdx (f : ℕ → Slot → Slot) : Cell → Cell
  | .arr items => .arr (items.mapIdx f)
  | .obj prototype fields => .obj prototype (fields.mapIdx f)
  | .error name message fields => .error name message (fields.mapIdx f)

variable {cell : Cell} {f : Slot → Slot} {g : ℕ → Slot → Slot}

@[simp] theorem isArray_map : (cell.map f).isArray = cell.isArray := by
  cases cell <;> rfl

theorem slots_map : (cell.map f).slots = cell.slots.map f := by
  cases cell with
  | arr items => rfl
  | obj prototype fields => exact Fields.values_map f fields
  | error name message fields => exact Fields.values_map f fields

theorem entries_map : (cell.map f).entries = cell.entries.map fun entry => (entry.1, f entry.2) := by
  cases cell with
  | arr items => simp [map, entries, List.zipIdx_map]
  | obj prototype fields => rfl
  | error name message fields => rfl

theorem own_map : (cell.map f).own = (cell.own.1, cell.own.2.map f) := by
  cases cell with
  | arr items => rfl
  | obj prototype fields => rfl
  | error name message fields => rfl

theorem slots_mapIdx : (cell.mapIdx g).slots = cell.slots.mapIdx g := by
  cases cell with
  | arr items => rfl
  | obj prototype fields => exact Fields.values_mapIdx g fields
  | error name message fields => exact Fields.values_mapIdx g fields

theorem map_mapIdx_eq_self (hsame : ∀ place slot, cell.slots[place]? = some slot → f (g place slot) = slot) :
    (cell.mapIdx g).map f = cell := by
  cases cell with
  | arr items =>
    rw [mapIdx, map]
    congr 1
    apply List.ext_getElem?
    intro place
    cases hslot : items[place]? with
    | none => simp [hslot]
    | some slot => simp [hslot, hsame place slot hslot]
  | obj prototype fields => rw [mapIdx, map, Fields.map_mapIdx, Fields.mapIdx_eq_self hsame]
  | error name message fields => rw [mapIdx, map, Fields.map_mapIdx, Fields.mapIdx_eq_self hsame]

end Cell

end js

namespace node_backend.stringifier

open js graph Relation

/-- A heap with the objects of another one and, for every place where one of them holds an
array, a copy of the array that is at this place only. Each address has its origin. -/
structure Separates (h t : Heap) (origin : ℕ → ℕ) : Prop where
  grows : h.length ≤ t.length
  same : ∀ address < h.length, origin address = address
  cell : ∀ address, (t.cell address).map (Slot.rename origin) = h.cell (origin address)
  object : ∀ outer inner, t.Holds outer inner → (t.cell inner).isArray = false → inner < h.length
  array : ∀ outer inner, Nests t outer inner → h.length ≤ inner
  once : ∀ b i c j array, At t b i array → At t c j array → b = c ∧ i = j

section separate

variable (h : Heap)

/-- The array that a slot holds, if it holds one. -/
def heldArray : Slot → Option ℕ
  | .ref address => if (h.cell address).isArray then some address else none
  | _ => none

/-- The arrays that an object holds, each as often as there are places for it. -/
def heldArrays (address : ℕ) : List ℕ :=
  (h.cell address).slots.filterMap (heldArray h)

/-- Some objects, then the arrays that they hold, then those that these hold, and so on. -/
def unrolled : ℕ → List ℕ → List ℕ
  | 0, level => level
  | rounds + 1, level => level ++ unrolled rounds (level.flatMap (heldArrays h))

/-- What the objects of the separated heap come from: first all that there were, and then
an array for every place of one. -/
def origins : List ℕ :=
  unrolled h h.length (List.range h.length)

def originOf (address : ℕ) : ℕ :=
  (origins h).getD address address

/-- Where the copy of the array is that an object of the separated heap holds at a place. -/
def copyAt (address place : ℕ) : ℕ :=
  h.length + (((origins h).take address).flatMap (heldArrays h)).length +
    (((h.cell (originOf h address)).slots.take place).filterMap (heldArray h)).length

/-- Every place where an object holds an array gets a copy of its own. -/
def separate : Heap :=
  (origins h).mapIdx fun address origin =>
    (h.cell origin).mapIdx fun place slot =>
      if (heldArray h slot).isSome then .ref (copyAt h address place) else slot

end separate

section lists

variable {A B : Type} {l : List A}

theorem flatMap_take_succ (f : A → List B) {k : ℕ} (hk : k < l.length) :
    (l.take (k + 1)).flatMap f = (l.take k).flatMap f ++ f l[k] := by
  rw [List.take_add_one, List.getElem?_eq_getElem hk, List.flatMap_append]
  simp

theorem getElem?_flatMap (f : A → List B) {k r : ℕ} (hk : k < l.length) (hr : r < (f l[k]).length) :
    (l.flatMap f)[((l.take k).flatMap f).length + r]? = (f l[k])[r]? := by
  have hsplit : l.flatMap f = (l.take (k + 1)).flatMap f ++ (l.drop (k + 1)).flatMap f := by
    rw [← List.flatMap_append, List.take_append_drop]
  rw [hsplit, flatMap_take_succ f hk, List.append_assoc, List.getElem?_append_right (Nat.le_add_right _ _),
    Nat.add_sub_cancel_left, List.getElem?_append_left hr]

theorem filterMap_take_succ (f : A → Option B) {k : ℕ} (hk : k < l.length) :
    (l.take (k + 1)).filterMap f = (l.take k).filterMap f ++ (f l[k]).toList := by
  rw [List.take_add_one, List.getElem?_eq_getElem hk, List.filterMap_append]
  cases hb : f l[k] <;> simp [hb]

theorem getElem?_filterMap (f : A → Option B) {k : ℕ} {b : B} (hk : k < l.length) (hb : f l[k] = some b) :
    (l.filterMap f)[((l.take k).filterMap f).length]? = some b := by
  have hsplit : l.filterMap f = (l.take (k + 1)).filterMap f ++ (l.drop (k + 1)).filterMap f := by
    rw [← List.filterMap_append, List.take_append_drop]
  rw [hsplit, filterMap_take_succ f hk, hb, List.append_assoc, List.getElem?_append_right (Nat.le_refl _)]
  simp

theorem length_flatMap_take_le (f : A → List B) {k m : ℕ} (hle : k ≤ m) :
    ((l.take k).flatMap f).length ≤ ((l.take m).flatMap f).length := by
  have hprefix : l.take k <+: l.take m := List.take_prefix_take_left hle
  obtain ⟨rest, heq⟩ := hprefix
  rw [← heq, List.flatMap_append, List.length_append]
  omega

end lists

section separated

variable {h : Heap} {a b i : ℕ} {slot : Slot}

theorem heldArray_eq_some_iff : heldArray h slot = some b ↔ slot = .ref b ∧ (h.cell b).isArray = true := by
  cases slot with
  | ref address =>
    rw [heldArray]
    split
    case isTrue harray =>
      constructor
      · intro heq
        cases heq
        exact ⟨rfl, harray⟩
      · intro heq
        rw [Slot.ref.inj heq.1]
    case isFalse hnone =>
      constructor
      · intro heq
        cases heq
      · intro heq
        cases heq.1
        exact absurd heq.2 hnone
  | _ => simp [heldArray]

theorem mem_heldArrays : b ∈ heldArrays h a ↔ Nests h a b := by
  rw [heldArrays, List.mem_filterMap, Nests, Heap.Holds]
  constructor
  · intro hheld
    obtain ⟨slot, hslot, hb⟩ := hheld
    obtain ⟨rfl, harray⟩ := heldArray_eq_some_iff.mp hb
    exact ⟨hslot, harray⟩
  · intro hnests
    exact ⟨.ref b, hnests.1, heldArray_eq_some_iff.mpr ⟨rfl, hnests.2⟩⟩

theorem unrolled_append (h : Heap) (rounds : ℕ) (level : List ℕ) :
    unrolled h rounds level ++ (fun level => level.flatMap (heldArrays h))^[rounds + 1] level =
      level ++ (unrolled h rounds level).flatMap (heldArrays h) := by
  induction rounds generalizing level with
  | zero => rfl
  | succ rounds ih =>
    rw [unrolled, Function.iterate_succ_apply, List.append_assoc, ih, List.flatMap_append]

/-- After as many rounds as there are objects no array is left, if none contains itself. -/
theorem iterate_eq_nil {steps : ℕ} {level : List ℕ} (hshallow : ∀ a ∈ level, Shallow (Nests h) steps a) :
    (fun level => level.flatMap (heldArrays h))^[steps] level = [] := by
  induction steps generalizing level with
  | zero => exact List.eq_nil_iff_forall_not_mem.mpr hshallow
  | succ steps ih =>
    rw [Function.iterate_succ_apply]
    apply ih
    intro b hb
    obtain ⟨a, ha, hheld⟩ := List.mem_flatMap.mp hb
    exact hshallow a ha b (mem_heldArrays.mp hheld)

section endless

variable (hacyclic : ∀ address, ¬ TransGen (Nests h) address address)

include hacyclic

theorem origins_eq : origins h = List.range h.length ++ (origins h).flatMap (heldArrays h) := by
  rw [origins, ← unrolled_append h h.length, iterate_eq_nil, List.append_nil]
  intro a _
  exact shallow_nests fun b _ => hacyclic b

theorem le_length_origins : h.length ≤ (origins h).length := by
  rw [origins_eq hacyclic, List.length_append, List.length_range]
  omega

theorem originOf_of_lt (ha : a < h.length) : originOf h a = a := by
  have hrange : a < (List.range h.length).length := by rwa [List.length_range]
  rw [originOf, origins_eq hacyclic, List.getD_append _ _ _ _ hrange, List.getD_eq_getElem _ _ hrange,
    List.getElem_range]

theorem originOf_add {place : ℕ} (hplace : ((origins h).flatMap (heldArrays h))[place]? = some b) :
    originOf h (h.length + place) = b := by
  have horigin : (origins h)[h.length + place]? = some b := by
    rw [origins_eq hacyclic, List.getElem?_append_right (by rw [List.length_range]; omega), List.length_range,
      Nat.add_sub_cancel_left]
    exact hplace
  rw [originOf, List.getD_eq_getElem?_getD, horigin]
  rfl

theorem cell_separate (a : ℕ) : (separate h).cell a = (h.cell (originOf h a)).mapIdx fun place slot =>
    if (heldArray h slot).isSome then .ref (copyAt h a place) else slot := by
  obtain hlt | hge := lt_or_ge a (origins h).length
  · rw [Heap.cell, separate, List.getD_eq_getElem?_getD, List.getElem?_mapIdx, List.getElem?_eq_getElem hlt, originOf,
      List.getD_eq_getElem _ _ hlt]
    rfl
  · have hle := le_length_origins hacyclic
    rw [Heap.cell_of_le (by rwa [separate, List.length_mapIdx]), originOf, List.getD_eq_default _ _ hge,
      Heap.cell_of_le (by omega)]
    rfl

/-- An address without an origin has no slots. -/
theorem originOf_eq (hslot : (h.cell (originOf h a)).slots[i]? = some slot) :
    ∃ ha : a < (origins h).length, originOf h a = (origins h)[a] := by
  obtain hlt | hge := lt_or_ge a (origins h).length
  · exact ⟨hlt, by rw [originOf, List.getD_eq_getElem _ _ hlt]⟩
  · have hle := le_length_origins hacyclic
    rw [originOf, List.getD_eq_default _ _ hge, Heap.cell_of_le (by omega)] at hslot
    cases hslot

/-- At the place of an array there is its copy. -/
theorem originOf_copyAt (hslot : (h.cell (originOf h a)).slots[i]? = some slot) (hheld : heldArray h slot = some b) :
    originOf h (copyAt h a i) = b := by
  obtain ⟨hi, rfl⟩ := List.getElem?_eq_some_iff.mp hslot
  have hrank := getElem?_filterMap (heldArray h) hi hheld
  obtain ⟨hr, _⟩ := List.getElem?_eq_some_iff.mp hrank
  obtain ⟨ha, horigin⟩ := originOf_eq hacyclic hslot
  rw [horigin] at hr hrank
  have hplace := getElem?_flatMap (heldArrays h) ha hr
  rw [heldArrays, hrank] at hplace
  rw [copyAt, horigin, Nat.add_assoc]
  exact originOf_add hacyclic hplace

theorem copyAt_lt {c j : ℕ} {other : Slot} (hslot : (h.cell (originOf h a)).slots[i]? = some slot)
    (hother : (h.cell (originOf h c)).slots[j]? = some other) (hheld : (heldArray h slot).isSome = true)
    (hbefore : a < c ∨ a = c ∧ i < j) : copyAt h a i < copyAt h c j := by
  obtain ⟨hi, rfl⟩ := List.getElem?_eq_some_iff.mp hslot
  obtain ⟨b, hb⟩ := Option.isSome_iff_exists.mp hheld
  obtain ⟨ha, horigin⟩ := originOf_eq hacyclic hslot
  obtain hlt | ⟨rfl, hlt⟩ := hbefore
  · have hrank := getElem?_filterMap (heldArray h) hi hb
    obtain ⟨hr, _⟩ := List.getElem?_eq_some_iff.mp hrank
    have hmore := length_flatMap_take_le (heldArrays h) (l := origins h) (Nat.succ_le_of_lt hlt)
    rw [flatMap_take_succ _ ha, List.length_append, ← horigin, heldArrays] at hmore
    rw [copyAt, copyAt]
    omega
  · have hj : i < ((h.cell (originOf h a)).slots.take j).length := by
      rw [List.length_take]
      omega
    have hrank := getElem?_filterMap (heldArray h) hj (by rwa [List.getElem_take])
    obtain ⟨hr, _⟩ := List.getElem?_eq_some_iff.mp hrank
    rw [List.take_take, min_eq_left hlt.le] at hr
    rw [copyAt, copyAt]
    omega

/-- What is in the place of a slot. -/
theorem slot_separate {copy : Slot} (hslot : ((separate h).cell a).slots[i]? = some copy) :
    ∃ slot, (h.cell (originOf h a)).slots[i]? = some slot ∧
      copy = if (heldArray h slot).isSome then .ref (copyAt h a i) else slot := by
  rw [cell_separate hacyclic, Cell.slots_mapIdx, List.getElem?_mapIdx, Option.map_eq_some_iff] at hslot
  obtain ⟨slot, hslot, rfl⟩ := hslot
  exact ⟨slot, hslot, rfl⟩

variable (hclosed : h.Closed)

include hclosed

theorem cell_separate_map (a : ℕ) : ((separate h).cell a).map (Slot.rename (originOf h)) = h.cell (originOf h a) := by
  rw [cell_separate hacyclic]
  apply Cell.map_mapIdx_eq_self
  intro place slot hslot
  cases hheld : heldArray h slot with
  | some b =>
    obtain ⟨rfl, _⟩ := heldArray_eq_some_iff.mp hheld
    rw [Option.isSome_some, if_pos rfl, Slot.rename, originOf_copyAt hacyclic hslot hheld]
  | none =>
    rw [if_neg (by simp)]
    cases slot with
    | ref inner =>
      rw [Slot.rename, originOf_of_lt hacyclic (hclosed _ _ (List.mem_of_getElem? hslot))]
    | _ => rfl

theorem isArray_separate (a : ℕ) : ((separate h).cell a).isArray = (h.cell (originOf h a)).isArray := by
  rw [← cell_separate_map hacyclic hclosed, Cell.isArray_map]

/-- What an object holds of the separated heap: the copy for the place, or an object that is
no array. -/
theorem held_separate (hslot : ((separate h).cell a).slots[i]? = some (.ref b)) :
    ((separate h).cell b).isArray = true ∧ b = copyAt h a i ∧
      (∃ slot, (h.cell (originOf h a)).slots[i]? = some slot ∧ (heldArray h slot).isSome = true) ∨
    ((separate h).cell b).isArray = false ∧ b < h.length := by
  obtain ⟨slot, horiginal, heq⟩ := slot_separate hacyclic hslot
  cases hheld : heldArray h slot with
  | some c =>
    rw [hheld, Option.isSome_some, if_pos rfl] at heq
    cases heq
    refine Or.inl ⟨?_, rfl, slot, horiginal, by rw [hheld]; rfl⟩
    rw [isArray_separate hacyclic hclosed, originOf_copyAt hacyclic horiginal hheld]
    exact (heldArray_eq_some_iff.mp hheld).2
  | none =>
    rw [hheld, if_neg (by simp)] at heq
    subst heq
    have hb : b < h.length := hclosed _ _ (List.mem_of_getElem? horiginal)
    refine Or.inr ⟨?_, hb⟩
    rw [isArray_separate hacyclic hclosed, originOf_of_lt hacyclic hb, Bool.eq_false_iff]
    intro harray
    rw [heldArray_eq_some_iff.mpr ⟨rfl, harray⟩] at hheld
    cases hheld

theorem separates_separate : Separates h (separate h) (originOf h) where
  grows := by
    rw [separate, List.length_mapIdx]
    exact le_length_origins hacyclic
  same _ := originOf_of_lt hacyclic
  cell := cell_separate_map hacyclic hclosed
  object outer inner hholds hobject := by
    obtain ⟨place, hplace⟩ := List.mem_iff_getElem?.mp hholds
    obtain ⟨harray, _⟩ | ⟨_, hlt⟩ := held_separate hacyclic hclosed hplace
    · rw [hobject] at harray
      cases harray
    · exact hlt
  array outer inner hnests := by
    obtain ⟨place, hplace⟩ := List.mem_iff_getElem?.mp hnests.1
    obtain ⟨_, rfl, _⟩ | ⟨hobject, _⟩ := held_separate hacyclic hclosed hplace
    · rw [copyAt, Nat.add_assoc]
      exact Nat.le_add_right _ _
    · rw [hnests.2] at hobject
      cases hobject
  once b i c j array hb hc := by
    obtain ⟨_, hcopy, slot, hslot, hheld⟩ | ⟨hobject, _⟩ := held_separate hacyclic hclosed hb.1
    · obtain ⟨_, hcopy', other, hother, hheld'⟩ | ⟨hobject, _⟩ := held_separate hacyclic hclosed hc.1
      · obtain hlt | rfl | hgt := lt_trichotomy b c
        · have hless := copyAt_lt hacyclic hslot hother hheld (Or.inl hlt)
          omega
        · obtain hlt | rfl | hgt := lt_trichotomy i j
          · have hless := copyAt_lt hacyclic hslot hother hheld (Or.inr ⟨rfl, hlt⟩)
            omega
          · exact ⟨rfl, rfl⟩
          · have hless := copyAt_lt hacyclic hother hslot hheld' (Or.inr ⟨rfl, hgt⟩)
            omega
        · have hless := copyAt_lt hacyclic hother hslot hheld' (Or.inl hgt)
          omega
      · rw [hc.2] at hobject
        cases hobject
    · rw [hb.2] at hobject
      cases hobject

end endless

end separated

end node_backend.stringifier

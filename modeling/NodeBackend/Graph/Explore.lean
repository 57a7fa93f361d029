import NodeBackend.Graph.Descent

namespace graph

open Relation

section loops

variable {State Item Value Error : Type} {step : State → Item → Except Error (Value × State)}
variable {items : List Item} {values : List Value} {s s' : State} {error : Error}

/-- Go through a list with a state, and collect what each step gives. -/
def mapWithState (step : State → Item → Except Error (Value × State)) :
    State → List Item → Except Error (List Value × State)
  | s, [] => .ok ([], s)
  | s, item :: rest => do
    let (value, s) ← step s item
    let (values, s) ← mapWithState step s rest
    return (value :: values, s)

theorem mapWithState_cons_of_ok {item : Item} {value : Value} {next : State} (hstep : step s item = .ok (value, next)) :
    mapWithState step s (item :: items) =
      (mapWithState step next items).map fun result => (value :: result.1, result.2) := by
  rw [mapWithState, hstep]
  rfl

theorem mapWithState_cons_of_error {item : Item} (hstep : step s item = .error error) :
    mapWithState step s (item :: items) = .error error := by
  rw [mapWithState, hstep]
  rfl

theorem mapWithState_cons_ok {item : Item} (hrun : mapWithState step s (item :: items) = .ok (values, s')) :
    ∃ value next rest, step s item = .ok (value, next) ∧ mapWithState step next items = .ok (rest, s') ∧
      values = value :: rest := by
  rw [mapWithState] at hrun
  cases hstep : step s item with
  | error error =>
    rw [hstep] at hrun
    cases hrun
  | ok result =>
    obtain ⟨value, next⟩ := result
    rw [hstep] at hrun
    cases hrest : mapWithState step next items with
    | error error =>
      change (mapWithState step next items >>= _) = _ at hrun
      rw [hrest] at hrun
      cases hrun
    | ok result =>
      change (mapWithState step next items >>= _) = _ at hrun
      rw [hrest] at hrun
      cases hrun
      exact ⟨value, next, result.1, rfl, hrest, rfl⟩

theorem mapWithState_cons_error {item : Item} (hrun : mapWithState step s (item :: items) = .error error) :
    step s item = .error error ∨
      ∃ value next, step s item = .ok (value, next) ∧ mapWithState step next items = .error error := by
  rw [mapWithState] at hrun
  cases hstep : step s item with
  | error error =>
    rw [hstep] at hrun
    cases hrun
    exact Or.inl rfl
  | ok result =>
    obtain ⟨value, next⟩ := result
    rw [hstep] at hrun
    change (mapWithState step next items >>= _) = _ at hrun
    cases hrest : mapWithState step next items with
    | error other =>
      rw [hrest] at hrun
      cases hrun
      exact Or.inr ⟨value, next, rfl, hrest⟩
    | ok result =>
      rw [hrest] at hrun
      cases hrun

/-- What holds of each item after its step, and is kept by the steps after it, holds of
all items in the end. -/
theorem mapWithState_ok (s₀ : State) {R : State → State → Prop} {P : State → Item → Prop} (hrefl : ∀ s, R s s)
    (htrans : ∀ s₁ s₂ s₃, R s₁ s₂ → R s₂ s₃ → R s₁ s₃) (hmono : ∀ s s' item, R s s' → P s item → P s' item)
    (hstep : ∀ s value s', ∀ item ∈ items, R s₀ s → step s item = .ok (value, s') → R s s' ∧ P s' item)
    (hstart : R s₀ s) (hrun : mapWithState step s items = .ok (values, s')) : R s s' ∧ ∀ item ∈ items, P s' item := by
  induction items generalizing s values with
  | nil =>
    cases hrun
    exact ⟨hrefl _, by simp⟩
  | cons item rest ih =>
    obtain ⟨value, next, more, hitem, hrest, _⟩ := mapWithState_cons_ok hrun
    obtain ⟨hnext, hdone⟩ := hstep s value next item List.mem_cons_self hstart hitem
    obtain ⟨hend, hall⟩ := ih (fun s value s' other hother => hstep s value s' other (List.mem_cons_of_mem _ hother))
      (htrans _ _ _ hstart hnext) hrest
    refine ⟨htrans _ _ _ hnext hend, ?_⟩
    rw [List.forall_mem_cons]
    exact ⟨hmono _ _ _ hend hdone, hall⟩

/-- What each step keeps, the loop keeps. -/
theorem mapWithState_keeps {step : State → Item → Except Error (Value × State)} {P : State → Prop}
    {items : List Item} {values : List Value} {s s' : State}
    (hkeep : ∀ s value s', ∀ item ∈ items, P s → step s item = .ok (value, s') → P s') (hstart : P s)
    (hrun : mapWithState step s items = .ok (values, s')) : P s' := by
  induction items generalizing s values with
  | nil =>
    cases hrun
    exact hstart
  | cons item rest ih =>
    obtain ⟨value, next, more, hitem, hrest, rfl⟩ := mapWithState_cons_ok hrun
    exact ih (fun s value s' other hother => hkeep s value s' other (List.mem_cons_of_mem _ hother))
      (hkeep s value next item List.mem_cons_self hstart hitem) hrest

/-- What each step gives a value of, all values have. -/
theorem mapWithState_values {step : State → Item → Except Error (Value × State)} {P : Item → Value → Prop}
    {items : List Item} {values : List Value} {s s' : State}
    (hstep : ∀ s value s', ∀ item ∈ items, step s item = .ok (value, s') → P item value)
    (hrun : mapWithState step s items = .ok (values, s')) : List.Forall₂ P items values := by
  induction items generalizing s values with
  | nil =>
    cases hrun
    exact .nil
  | cons item rest ih =>
    obtain ⟨value, next, more, hitem, hrest, rfl⟩ := mapWithState_cons_ok hrun
    exact .cons (hstep s value next item List.mem_cons_self hitem)
      (ih (fun s value s' other hother => hstep s value s' other (List.mem_cons_of_mem _ hother)) hrest)

theorem exists_of_mapWithState_error {P : State → Prop}
    (hstep : ∀ s value s', ∀ item ∈ items, P s → step s item = .ok (value, s') → P s') (hstart : P s)
    (hrun : mapWithState step s items = .error error) : ∃ item ∈ items, ∃ s, P s ∧ step s item = .error error := by
  induction items generalizing s with
  | nil => cases hrun
  | cons item rest ih =>
    obtain hitem | ⟨value, next, hitem, hrest⟩ := mapWithState_cons_error hrun
    · exact ⟨item, List.mem_cons_self, s, hstart, hitem⟩
    · obtain ⟨other, hother, found⟩ := ih
        (fun s value s' other hother => hstep s value s' other (List.mem_cons_of_mem _ hother))
        (hstep s value next item List.mem_cons_self hstart hitem) hrest
      exact ⟨other, List.mem_cons_of_mem _ hother, found⟩

theorem mapWithState_congr {more : State → Item → Except Error (Value × State)} {P : State → Prop}
    (hsame : ∀ s, P s → ∀ item ∈ items, more s item = step s item)
    (hstep : ∀ s value s', ∀ item ∈ items, P s → step s item = .ok (value, s') → P s') (hstart : P s) :
    mapWithState more s items = mapWithState step s items := by
  induction items generalizing s with
  | nil => rfl
  | cons item rest ih =>
    rw [mapWithState, mapWithState, hsame s hstart item List.mem_cons_self]
    cases hitem : step s item with
    | error error => rfl
    | ok result =>
      obtain ⟨value, next⟩ := result
      have hrest := ih (fun s hs other hother => hsame s hs other (List.mem_cons_of_mem _ hother))
        (fun s value s' other hother => hstep s value s' other (List.mem_cons_of_mem _ hother))
        (hstep s value next item List.mem_cons_self hstart hitem)
      change (mapWithState more next rest >>= _) = (mapWithState step next rest >>= _)
      rw [hrest]

theorem members_of_forall₂ {P : Item × Value → Prop} {members : List (Item × Value)}
    (hmembers : List.Forall₂ (fun item member => member.1 = item ∧ P member) items members) :
    members.map Prod.fst = items ∧ ∀ member ∈ members, P member := by
  induction hmembers with
  | nil => exact ⟨rfl, by simp⟩
  | cons hmember _ ih =>
    rw [List.map_cons, List.forall_mem_cons, hmember.1, ih.1]
    exact ⟨rfl, hmember.2, ih.2⟩

end loops

namespace Traversal

variable {Node Item Value Error : Type} (t : Traversal Node Item Value Error)

/-- An item with its value, where a node among the items is left to a recursion that
remembers what it has seen. -/
def settleOnce (recurse : List Node → Node → Except Error (Value × List Node)) (seen : List Node) (item : Item) :
    Except Error ((Item × Value) × List Node) :=
  match t.classify item with
  | .error error => .error error
  | .ok (.inl value) => .ok ((item, value), seen)
  | .ok (.inr inner) => (recurse seen inner).map fun result => ((item, result.1), result.2)

/-- Go down all items in order, but into each node only once. -/
def explore [DecidableEq Node] (again : Value) (spent : Error) (build : Node → List (Item × Value) → Value) :
    ℕ → List Node → Node → Except Error (Value × List Node)
  | 0, _, _ => .error spent
  | fuel + 1, seen, node =>
    if node ∈ seen then .ok (again, seen)
    else (mapWithState (t.settleOnce (explore again spent build fuel)) (node :: seen) (t.items node)).map fun result =>
      (build node result.1, result.2)

variable {t} {a b : Node} {error spent : Error} {again value : Value} {fuel : ℕ}
variable {build : Node → List (Item × Value) → Value} {sources : Finset Node} {seen seen' : List Node}

theorem settleOnce_ok {recurse : List Node → Node → Except Error (Value × List Node)} {item : Item}
    {settled : Item × Value}
    (hrun : t.settleOnce recurse seen item = .ok (settled, seen')) :
    ((∃ value, t.classify item = .ok (.inl value)) ∧ seen' = seen) ∨
      ∃ inner value, t.classify item = .ok (.inr inner) ∧ recurse seen inner = .ok (value, seen') := by
  rw [settleOnce] at hrun
  cases hclass : t.classify item with
  | error error =>
    rw [hclass] at hrun
    cases hrun
  | ok found =>
    rw [hclass] at hrun
    cases found with
    | inl value =>
      cases hrun
      exact Or.inl ⟨⟨value, rfl⟩, rfl⟩
    | inr inner =>
      dsimp only at hrun
      cases hrecurse : recurse seen inner with
      | error error =>
        rw [hrecurse] at hrun
        cases hrun
      | ok result =>
        rw [hrecurse] at hrun
        cases hrun
        exact Or.inr ⟨inner, result.1, rfl, hrecurse⟩

theorem settleOnce_error {recurse : List Node → Node → Except Error (Value × List Node)} {item : Item}
    (hrun : t.settleOnce recurse seen item = .error error) :
    t.classify item = .error error ∨
      ∃ inner, t.classify item = .ok (.inr inner) ∧ recurse seen inner = .error error := by
  rw [settleOnce] at hrun
  cases hclass : t.classify item with
  | error other =>
    rw [hclass] at hrun
    cases hrun
    exact Or.inl rfl
  | ok found =>
    rw [hclass] at hrun
    cases found with
    | inl value => cases hrun
    | inr inner => exact Or.inr ⟨inner, rfl, map_error_iff.mp hrun⟩

/-- An item that can be had, and is no node that was never seen. -/
def Settled (t : Traversal Node Item Value Error) (seen : List Node) (item : Item) : Prop :=
  (∃ value, t.classify item = .ok (.inl value)) ∨ ∃ inner ∈ seen, t.classify item = .ok (.inr inner)

/-- More is seen, and the items of whatever is newly seen are settled. -/
def Grows (t : Traversal Node Item Value Error) (seen seen' : List Node) : Prop :=
  seen ⊆ seen' ∧ ∀ node ∈ seen', node ∈ seen ∨ ∀ item ∈ t.items node, t.Settled seen' item

theorem Settled.mono {item : Item} (hsettled : t.Settled seen item) (hsub : seen ⊆ seen') : t.Settled seen' item := by
  obtain hvalue | ⟨inner, hinner, hclass⟩ := hsettled
  · exact Or.inl hvalue
  · exact Or.inr ⟨inner, hsub hinner, hclass⟩

theorem Grows.refl (seen : List Node) : t.Grows seen seen :=
  ⟨List.Subset.refl _, fun _ => Or.inl⟩

theorem Grows.trans {seen₁ seen₂ seen₃ : List Node} (h₁₂ : t.Grows seen₁ seen₂) (h₂₃ : t.Grows seen₂ seen₃) :
    t.Grows seen₁ seen₃ := by
  refine ⟨fun node hnode => h₂₃.1 (h₁₂.1 hnode), ?_⟩
  intro node hnode
  obtain hold | hnew := h₂₃.2 node hnode
  · obtain hold | hnew := h₁₂.2 node hold
    · exact Or.inl hold
    · exact Or.inr fun item hitem => (hnew item hitem).mono h₂₃.1
  · exact Or.inr hnew

/-- A step that settles its item. -/
theorem grows_of_settleOnce {recurse : List Node → Node → Except Error (Value × List Node)} {item : Item}
    {settled : Item × Value}
    (hrecurse : ∀ seen inner value seen', recurse seen inner = .ok (value, seen') → t.Grows seen seen' ∧ inner ∈ seen')
    (hrun : t.settleOnce recurse seen item = .ok (settled, seen')) : t.Grows seen seen' ∧ t.Settled seen' item := by
  obtain ⟨hvalue, rfl⟩ | ⟨inner, value, hclass, hinner⟩ := settleOnce_ok hrun
  · exact ⟨Grows.refl _, Or.inl hvalue⟩
  · obtain ⟨hgrows, hmem⟩ := hrecurse seen inner value seen' hinner
    exact ⟨hgrows, Or.inr ⟨inner, hmem, hclass⟩⟩

variable [DecidableEq Node]

/-- An exploration that comes through has settled all items of what it came to see. -/
theorem grows_of_explore (hrun : t.explore again spent build fuel seen a = .ok (value, seen')) :
    t.Grows seen seen' ∧ a ∈ seen' := by
  induction fuel generalizing seen a value seen' with
  | zero => cases hrun
  | succ fuel ih =>
    rw [explore] at hrun
    split at hrun
    case isTrue hmem =>
      cases hrun
      exact ⟨Grows.refl _, hmem⟩
    case isFalse =>
      obtain ⟨⟨values, last⟩, hloop, heq⟩ := map_eq_ok_iff.mp hrun
      cases heq
      obtain ⟨hgrows, hitems⟩ := mapWithState_ok (a :: seen) Grows.refl (fun _ _ _ => Grows.trans)
        (fun s s' item hgrows (hitem : t.Settled s item) => hitem.mono hgrows.1)
        (fun s settled s' item _ _ hstep => grows_of_settleOnce (fun _ _ _ _ => ih) hstep) (Grows.refl _) hloop
      refine ⟨⟨fun node hnode => hgrows.1 (List.mem_cons_of_mem _ hnode), ?_⟩, hgrows.1 List.mem_cons_self⟩
      intro node hnode
      obtain hold | hnew := hgrows.2 node hnode
      · obtain rfl | hold := List.mem_cons.mp hold
        · exact Or.inr hitems
        · exact Or.inl hold
      · exact Or.inr hnew

/-- An exploration that comes through has seen all that is reached. -/
theorem mem_of_explore (hrun : t.explore again spent build fuel [] a = .ok (value, seen'))
    (hreach : ReflTransGen t.Leads a b) : b ∈ seen' ∧ ∀ item ∈ t.items b, t.Settled seen' item := by
  obtain ⟨⟨_, hsettled⟩, hmem⟩ := grows_of_explore hrun
  have hitems : ∀ node ∈ seen', ∀ item ∈ t.items node, t.Settled seen' item := by
    intro node hnode
    obtain hnone | hdone := hsettled node hnode
    · cases hnone
    · exact hdone
  suffices hseen : b ∈ seen' from ⟨hseen, hitems b hseen⟩
  induction hreach with
  | refl => exact hmem
  | tail _ hleads ih =>
    obtain ⟨item, hitem, hclass⟩ := hleads
    obtain ⟨other, hother⟩ | ⟨inner, hinner, hother⟩ := hitems _ ih item hitem
    · rw [hclass] at hother
      cases hother
    · rw [hclass] at hother
      cases hother
      exact hinner

/-- What all values of items have, and what is built keeps, the value of an exploration
has. -/
theorem holds_of_explore {Q : Value → Prop} (hagain : Q again)
    (hvalue : ∀ node, ∀ item ∈ t.items node, ∀ value, t.classify item = .ok (.inl value) → Q value)
    (hbuild : ∀ node members, members.map Prod.fst = t.items node → (∀ member ∈ members, Q member.2) →
      Q (build node members))
    (hrun : t.explore again spent build fuel seen a = .ok (value, seen')) : Q value := by
  induction fuel generalizing seen a value seen' with
  | zero => cases hrun
  | succ fuel ih =>
    rw [explore] at hrun
    split at hrun
    case isTrue =>
      cases hrun
      exact hagain
    case isFalse =>
      obtain ⟨⟨members, last⟩, hloop, heq⟩ := map_eq_ok_iff.mp hrun
      cases heq
      have hmembers : List.Forall₂ (fun item member => member.1 = item ∧ Q member.2) (t.items a) members := by
        apply mapWithState_values _ hloop
        intro s member s' item hitem hstep
        rw [settleOnce] at hstep
        cases hclass : t.classify item with
        | error error =>
          rw [hclass] at hstep
          cases hstep
        | ok found =>
          rw [hclass] at hstep
          cases found with
          | inl value =>
            cases hstep
            exact ⟨rfl, hvalue a item hitem value hclass⟩
          | inr inner =>
            obtain ⟨result, hinner, heq⟩ := map_eq_ok_iff.mp hstep
            cases heq
            exact ⟨rfl, ih hinner⟩
      obtain ⟨hitems, hall⟩ := members_of_forall₂ hmembers
      exact hbuild a members hitems hall

/-- An exploration that fails has met an item that cannot be had. -/
theorem fails_of_explore (hsources : ∀ node, ∀ item ∈ t.items node, node ∈ sources) (hfuel : unseen sources seen < fuel)
    (hrun : t.explore again spent build fuel seen a = .error error) :
    ∃ b, ReflTransGen t.Leads a b ∧ t.Fails b error := by
  induction fuel generalizing seen a with
  | zero => exact absurd hfuel (Nat.not_lt_zero _)
  | succ fuel ih =>
    rw [explore] at hrun
    split at hrun
    case isTrue => cases hrun
    case isFalse hnew =>
      obtain ⟨item, hitem, s, hseen, hstep⟩ := exists_of_mapWithState_error (P := fun s => a :: seen ⊆ s)
        (fun s settled s' item _ hseen hstep =>
          List.Subset.trans hseen (grows_of_settleOnce (fun _ _ _ _ => grows_of_explore) hstep).1.1)
        (List.Subset.refl _) (map_error_iff.mp hrun)
      obtain hfails | ⟨inner, hclass, hrecurse⟩ := settleOnce_error hstep
      · exact ⟨a, .refl, item, hitem, hfails⟩
      · have hless := unseen_cons_lt (hsources a item hitem) hnew
        have hmono := unseen_mono sources hseen
        obtain ⟨b, hreach, hfails⟩ := ih (by omega) hrecurse
        exact ⟨b, hreach.head ⟨item, hitem, hclass⟩, hfails⟩

/-- An exploration comes through exactly where everything below the node can be had. -/
theorem explore_ok_iff (hsources : ∀ node, ∀ item ∈ t.items node, node ∈ sources) (hfuel : sources.card < fuel) :
    (∃ result, t.explore again spent build fuel [] a = .ok result) ↔
      ∀ b, ReflTransGen t.Leads a b → ∀ error, ¬ t.Fails b error := by
  have hunseen := unseen_lt [] hfuel
  constructor
  · intro h
    obtain ⟨⟨value, seen⟩, hrun⟩ := h
    intro b hreach error hfails
    obtain ⟨item, hitem, hclass⟩ := hfails
    obtain ⟨other, hother⟩ | ⟨inner, _, hother⟩ := (mem_of_explore hrun hreach).2 item hitem
    · rw [hclass] at hother
      cases hother
    · rw [hclass] at hother
      cases hother
  · intro hfails
    cases hrun : t.explore again spent build fuel [] a with
    | ok result => exact ⟨result, rfl⟩
    | error error =>
      obtain ⟨b, hreach, hb⟩ := fails_of_explore hsources hunseen hrun
      exact absurd hb (hfails b hreach error)

/-- With fuel to spare it makes no difference how much there is. -/
theorem explore_fuel (hsources : ∀ node, ∀ item ∈ t.items node, node ∈ sources) {more : ℕ}
    (hfuel : unseen sources seen < fuel) (hmore : unseen sources seen < more) :
    t.explore again spent build more seen a = t.explore again spent build fuel seen a := by
  induction fuel generalizing more seen a with
  | zero => exact absurd hfuel (Nat.not_lt_zero _)
  | succ fuel ih =>
    obtain ⟨more, rfl⟩ : ∃ fewer, more = fewer + 1 := ⟨more - 1, by omega⟩
    rw [explore, explore]
    split
    case isTrue => rfl
    case isFalse hnew =>
      congr 1
      apply mapWithState_congr (P := fun s => a :: seen ⊆ s)
      · intro s hseen item hitem
        rw [settleOnce, settleOnce]
        cases hclass : t.classify item with
        | error error => rfl
        | ok found =>
          cases found with
          | inl value => rfl
          | inr inner =>
            have hless := unseen_cons_lt (hsources a item hitem) hnew
            have hmono := unseen_mono sources hseen
            dsimp only
            rw [ih (by omega) (by omega)]
      · intro s settled s' item _ hseen hstep
        exact List.Subset.trans hseen (grows_of_settleOnce (fun _ _ _ _ => grows_of_explore) hstep).1.1
      · exact List.Subset.refl _

end Traversal

end graph

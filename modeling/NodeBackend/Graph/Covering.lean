import NodeBackend.Graph.Explore

namespace graph

open Relation

section loops

variable {State State' Item Item' Value Value' Error : Type}

section mapM

variable {first : Item' → Except Error Value'} {second : Item → Except Error Value} {rename : Item' → Item}
  {items : List Item'} {values' : List Value'} {values : List Value} {R : Value' → Value → Prop}

/-- Two loops that come through, with values that go together at each item. -/
theorem forall₂_of_mapM
    (hsame : ∀ item ∈ items, ∀ value' value, first item = .ok value' → second (rename item) = .ok value →
      R value' value)
    (hfirst : items.mapM first = .ok values') (hsecond : (items.map rename).mapM second = .ok values) :
    List.Forall₂ R values' values := by
  have hvalues' := forall₂_of_mapM_ok hfirst
  have hvalues := forall₂_of_mapM_ok hsecond
  clear hfirst hsecond
  induction hvalues' generalizing values with
  | nil =>
    cases hvalues
    exact .nil
  | @cons item value' rest more hitem _ ih =>
    obtain _ | ⟨hother, hrest⟩ := hvalues
    exact .cons (hsame item List.mem_cons_self _ _ hitem hother)
      (ih (fun item hitem => hsame item (List.mem_cons_of_mem _ hitem)) hrest)

theorem mapM_ok_map {g : Value' → Value}
    (hsame : ∀ item ∈ items, ∀ value' value, first item = .ok value' → second (rename item) = .ok value →
      value = g value')
    (hfirst : items.mapM first = .ok values') (hsecond : (items.map rename).mapM second = .ok values) :
    values = values'.map g := by
  have hvalues := forall₂_of_mapM hsame hfirst hsecond
  clear hfirst hsecond
  induction hvalues with
  | nil => rfl
  | cons hvalue _ ih => rw [List.map_cons, hvalue, ih]

/-- Two loops that come through give the same exactly if they do at each item. -/
theorem mapM_eq_iff {first : Item' → Except Error Value} {values' : List Value}
    (hfirst : items.mapM first = .ok values') (hsecond : (items.map rename).mapM second = .ok values) :
    values' = values ↔ ∀ item ∈ items, first item = second (rename item) := by
  have hvalues' := forall₂_of_mapM_ok hfirst
  have hvalues := forall₂_of_mapM_ok hsecond
  clear hfirst hsecond
  induction hvalues' generalizing values with
  | nil =>
    cases hvalues
    simp
  | @cons item value' rest more hitem _ ih =>
    obtain _ | ⟨hother, hrest⟩ := hvalues
    rw [List.cons.injEq, List.forall_mem_cons, hitem, hother, Except.ok.injEq]
    exact and_congr_right' (ih hrest)

end mapM

/-- Two loops whose states and values go together at each step. -/
theorem mapWithState_map {step' : State' → Item' → Except Error (Value' × State')}
    {step : State → Item → Except Error (Value × State)} {rename : Item' → Item} {f : State' → State}
    {g : Value' → Value} {P : State' → Prop} {items : List Item'} {s : State'}
    (hsame : ∀ s, P s → ∀ item ∈ items, step (f s) (rename item) = (step' s item).map (Prod.map g f))
    (hkeep : ∀ s value s', ∀ item ∈ items, P s → step' s item = .ok (value, s') → P s') (hstart : P s) :
    mapWithState step (f s) (items.map rename) =
      (mapWithState step' s items).map (Prod.map (List.map g) f) := by
  induction items generalizing s with
  | nil => rfl
  | cons item rest ih =>
    have hitem := hsame s hstart item List.mem_cons_self
    rw [List.map_cons]
    cases hstep : step' s item with
    | error error =>
      rw [hstep] at hitem
      rw [mapWithState_cons_of_error hstep, mapWithState_cons_of_error hitem]
      rfl
    | ok result =>
      obtain ⟨value, next⟩ := result
      rw [hstep] at hitem
      have hrest := ih (fun s hs other hother => hsame s hs other (List.mem_cons_of_mem _ hother))
        (fun s value s' other hother => hkeep s value s' other (List.mem_cons_of_mem _ hother))
        (hkeep s value next item List.mem_cons_self hstart hstep)
      rw [mapWithState_cons_of_ok hstep, mapWithState_cons_of_ok hitem, hrest]
      cases mapWithState step' next rest <;> rfl

/-- Two loops that come through with values that go together, where such values of a step
leave states that go together. -/
theorem mapWithState_states {step' : State' → Item' → Except Error (Value' × State')}
    {step : State → Item → Except Error (Value × State)} {rename : Item' → Item} {f : State' → State}
    {g : Value' → Value} {P : State' → Prop} {items : List Item'} {values : List Value'} {s last' : State'}
    {last : State}
    (hstep : ∀ s value s' s'', ∀ item ∈ items, P s → step' s item = .ok (value, s') →
      step (f s) (rename item) = .ok (g value, s'') → s'' = f s' ∧ P s') (hstart : P s)
    (hrun' : mapWithState step' s items = .ok (values, last'))
    (hrun : mapWithState step (f s) (items.map rename) = .ok (values.map g, last)) : last = f last' ∧ P last' := by
  induction items generalizing s values with
  | nil =>
    cases hrun'
    cases hrun
    exact ⟨rfl, hstart⟩
  | cons item rest ih =>
    obtain ⟨value, next', more, hitem', hrest', rfl⟩ := mapWithState_cons_ok hrun'
    obtain ⟨value', next, more', hitem, hrest, heq⟩ := mapWithState_cons_ok hrun
    obtain ⟨rfl, rfl⟩ := List.cons.inj heq
    obtain ⟨rfl, hnext⟩ := hstep s value next' next item List.mem_cons_self hstart hitem' hitem
    exact ih (fun s value s' s'' other hother => hstep s value s' s'' other (List.mem_cons_of_mem _ hother)) hnext
      hrest' hrest

end loops

namespace Traversal

variable {Node Node' Item Item' Value Error : Type}

/-- A traversal that does at each node what another one does at the origin of the node. -/
structure Covers (t' : Traversal Node' Item' Value Error) (t : Traversal Node Item Value Error)
    (origin : Node' → Node) (rename : Item' → Item) : Prop where
  items : ∀ node, t.items (origin node) = (t'.items node).map rename
  classify : ∀ node, ∀ item ∈ t'.items node, t.classify (rename item) = (t'.classify item).map (Sum.map id origin)

variable {t' : Traversal Node' Item' Value Error} {t : Traversal Node Item Value Error} {origin : Node' → Node}
  {rename : Item' → Item} {a b : Node'} {item : Item'} {cyclic spent error : Error} {value value' : Value}

/-- A member of what a node is built from: the value of its item, or one that is made of a
node. -/
def Fits (t : Traversal Node Item Value Error) (Made : Value → Prop) (member : Item × Value) : Prop :=
  t.classify member.1 = .ok (.inl member.2) ∨ (∃ inner, t.classify member.1 = .ok (.inr inner)) ∧ Made member.2

/-- What is built of a node tells of what members, and that the node was not met before. -/
structure Legible (t : Traversal Node Item Value Error) (build : Node → List (Item × Value) → Value) (again : Value)
    (Made : Value → Prop) : Prop where
  madeAgain : Made again
  made : ∀ node members, Made (build node members)
  ne : ∀ node members, build node members ≠ again
  inj : ∀ node (members others : List (Item × Value)), members.map Prod.fst = others.map Prod.fst →
    (∀ member ∈ members, t.Fits Made member) → (∀ other ∈ others, t.Fits Made other) →
    build node members = build node others → members = others

section made

variable [DecidableEq Node] {again : Value} {build : Node → List (Item × Value) → Value} {Made : Value → Prop}
  (hagain : Made again) (hmade : ∀ node members, Made (build node members)) {fuel : ℕ} {seen seen' : List Node}

include hagain hmade

theorem made_of_explore {node : Node} (hrun : t.explore again spent build fuel seen node = .ok (value, seen')) :
    Made value := by
  cases fuel with
  | zero => cases hrun
  | succ fuel =>
    rw [explore] at hrun
    split at hrun
    case isTrue =>
      cases hrun
      exact hagain
    case isFalse =>
      obtain ⟨_, _, heq⟩ := map_eq_ok_iff.mp hrun
      cases heq
      exact hmade _ _

/-- The members of a node, after the loop over its items. -/
theorem fits_of_loop {items : List Item} {members : List (Item × Value)}
    (hrun : mapWithState (t.settleOnce (t.explore again spent build fuel)) seen items = .ok (members, seen')) :
    members.map Prod.fst = items ∧ ∀ member ∈ members, t.Fits Made member := by
  have hmembers : List.Forall₂ (fun item member => member.1 = item ∧ t.Fits Made member) items members := by
    apply mapWithState_values _ hrun
    intro s member s' item _ hstep
    rw [settleOnce] at hstep
    cases hclass : t.classify item with
    | error error =>
      rw [hclass] at hstep
      cases hstep
    | ok found =>
      rw [hclass] at hstep
      cases found with
      | inl value =>
        cases hstep
        exact ⟨rfl, Or.inl hclass⟩
      | inr inner =>
        obtain ⟨result, hinner, heq⟩ := map_eq_ok_iff.mp hstep
        cases heq
        exact ⟨rfl, Or.inr ⟨⟨inner, hclass⟩, made_of_explore hagain hmade hinner⟩⟩
  exact members_of_forall₂ hmembers

end made

theorem mem_map_iff_of_injOn {S : Set Node'} {seen : List Node'} (hinj : Set.InjOn origin S) (ha : a ∈ S)
    (hseen : ∀ node ∈ seen, node ∈ S) : origin a ∈ seen.map origin ↔ a ∈ seen := by
  rw [List.mem_map]
  constructor
  · intro h
    obtain ⟨node, hnode, heq⟩ := h
    rwa [← hinj (hseen node hnode) ha heq]
  · intro hmem
    exact ⟨a, hmem, rfl⟩

/-- What an exploration comes to see is among some nodes that lead to no others. -/
theorem mem_of_explore_closed [DecidableEq Node] {S : Set Node} {again : Value}
    {build : Node → List (Item × Value) → Value} {fuel : ℕ} {seen seen' : List Node} {a : Node}
    (hclosed : ∀ a b, a ∈ S → t.Leads a b → b ∈ S) (ha : a ∈ S) (hseen : ∀ node ∈ seen, node ∈ S)
    (hrun : t.explore again spent build fuel seen a = .ok (value, seen')) : ∀ node ∈ seen', node ∈ S := by
  induction fuel generalizing seen a value seen' with
  | zero => cases hrun
  | succ fuel ih =>
    rw [explore] at hrun
    split at hrun
    case isTrue =>
      cases hrun
      exact hseen
    case isFalse =>
      obtain ⟨⟨members, last⟩, hloop, heq⟩ := map_eq_ok_iff.mp hrun
      cases heq
      apply mapWithState_keeps (P := fun s => ∀ node ∈ s, node ∈ S) _ _ hloop
      · intro s member s' item hitem hs hstep
        obtain ⟨_, rfl⟩ | ⟨inner, value, hclass, hrecurse⟩ := settleOnce_ok hstep
        · exact hs
        · exact ih (hclosed a inner ha ⟨item, hitem, hclass⟩) hs hrecurse
      · rw [List.forall_mem_cons]
        exact ⟨ha, hseen⟩

/-- Only nodes with items lead anywhere, so that finitely many are reached. -/
theorem finite_reach {sources : Finset Node} (hsources : ∀ node, ∀ item ∈ t.items node, node ∈ sources) (a : Node) :
    {b | ReflTransGen t.Leads a b}.Finite := by
  apply ((List.finite_toSet ((sources.toList.flatMap t.items).map t.classify)).preimage
    (f := fun node => .ok (.inr node)) (fun _ _ _ _ heq => Sum.inr.inj (Except.ok.inj heq)) |>.insert a).subset
  intro b hreach
  obtain rfl | ⟨outer, _, item, hitem, hclass⟩ := ReflTransGen.cases_tail hreach
  · exact Set.mem_insert _ _
  · apply Set.mem_insert_of_mem
    have hsource := Finset.mem_toList.mpr (hsources outer item hitem)
    exact List.mem_map.mpr ⟨item, List.mem_flatMap.mpr ⟨outer, hsource, hitem⟩, hclass⟩

namespace Covers

section steps

variable (hcovers : t'.Covers t origin rename)

include hcovers

theorem mem_items (hitem : item ∈ t'.items a) : rename item ∈ t.items (origin a) := by
  rw [hcovers.items]
  exact List.mem_map_of_mem hitem

theorem classify_inl_iff (hitem : item ∈ t'.items a) :
    t.classify (rename item) = .ok (.inl value) ↔ t'.classify item = .ok (.inl value) := by
  rw [hcovers.classify a item hitem, map_eq_ok_iff]
  constructor
  · intro h
    obtain ⟨found, hfound, heq⟩ := h
    cases found with
    | inl other =>
      cases heq
      exact hfound
    | inr inner => cases heq
  · intro hclass
    exact ⟨_, hclass, rfl⟩

theorem classify_inr_iff (hitem : item ∈ t'.items a) {inner : Node} :
    t.classify (rename item) = .ok (.inr inner) ↔ ∃ b, t'.classify item = .ok (.inr b) ∧ origin b = inner := by
  rw [hcovers.classify a item hitem, map_eq_ok_iff]
  constructor
  · intro h
    obtain ⟨found, hfound, heq⟩ := h
    cases found with
    | inl other => cases heq
    | inr b => exact ⟨b, hfound, Sum.inr.inj heq⟩
  · intro h
    obtain ⟨b, hclass, rfl⟩ := h
    exact ⟨_, hclass, rfl⟩

theorem classify_error_iff (hitem : item ∈ t'.items a) :
    t.classify (rename item) = .error error ↔ t'.classify item = .error error := by
  rw [hcovers.classify a item hitem, map_error_iff]

theorem leads (hleads : t'.Leads a b) : t.Leads (origin a) (origin b) := by
  obtain ⟨item, hitem, hclass⟩ := hleads
  exact ⟨rename item, hcovers.mem_items hitem, (hcovers.classify_inr_iff hitem).mpr ⟨b, hclass, rfl⟩⟩

theorem exists_leads {inner : Node} (hleads : t.Leads (origin a) inner) : ∃ b, t'.Leads a b ∧ origin b = inner := by
  obtain ⟨found, hfound, hclass⟩ := hleads
  rw [hcovers.items] at hfound
  obtain ⟨item, hitem, rfl⟩ := List.mem_map.mp hfound
  obtain ⟨b, hb, rfl⟩ := (hcovers.classify_inr_iff hitem).mp hclass
  exact ⟨b, ⟨item, hitem, hb⟩, rfl⟩

theorem fails_iff : t.Fails (origin a) error ↔ t'.Fails a error := by
  constructor
  · intro hfails
    obtain ⟨found, hfound, hclass⟩ := hfails
    rw [hcovers.items] at hfound
    obtain ⟨item, hitem, rfl⟩ := List.mem_map.mp hfound
    exact ⟨item, hitem, (hcovers.classify_error_iff hitem).mp hclass⟩
  · intro hfails
    obtain ⟨item, hitem, hclass⟩ := hfails
    exact ⟨rename item, hcovers.mem_items hitem, (hcovers.classify_error_iff hitem).mpr hclass⟩

theorem fits_rename {Made : Value → Prop} {member : Item' × Value} (hitem : member.1 ∈ t'.items a)
    (hfits : t'.Fits Made member) : t.Fits Made (Prod.map rename id member) := by
  obtain hvalue | ⟨⟨inner, hclass⟩, hmade⟩ := hfits
  · exact Or.inl ((hcovers.classify_inl_iff hitem).mpr hvalue)
  · exact Or.inr ⟨⟨origin inner, (hcovers.classify_inr_iff hitem).mpr ⟨inner, hclass, rfl⟩⟩, hmade⟩

theorem reach (hreach : ReflTransGen t'.Leads a b) : ReflTransGen t.Leads (origin a) (origin b) :=
  ReflTransGen.lift origin (fun _ _ => hcovers.leads) _ _ hreach

theorem exists_reach {inner : Node} (hreach : ReflTransGen t.Leads (origin a) inner) :
    ∃ b, ReflTransGen t'.Leads a b ∧ origin b = inner := by
  induction hreach with
  | refl => exact ⟨a, .refl, rfl⟩
  | tail _ hleads ih =>
    obtain ⟨b, hb, rfl⟩ := ih
    obtain ⟨c, hc, rfl⟩ := hcovers.exists_leads hleads
    exact ⟨c, hb.tail hc, rfl⟩

theorem grounded (hground : Grounded t'.Leads a) : Grounded t.Leads (origin a) := by
  induction hground with
  | intro a _ ih =>
    apply Grounded.intro
    intro inner hleads
    obtain ⟨b, hb, rfl⟩ := hcovers.exists_leads hleads
    exact ih b hb

end steps

section finite

variable (hcovers : t'.Covers t origin rename) {sources' : Finset Node'}
  (hsources' : ∀ node, ∀ item ∈ t'.items node, node ∈ sources')

include hcovers hsources'

theorem clean_iff : t.Clean (origin a) ↔ t'.Clean a := by
  constructor
  · intro hclean inner hreach
    obtain ⟨hfails, hcycle⟩ := hclean (origin inner) (hcovers.reach hreach)
    refine ⟨fun error hfail => hfails error (hcovers.fails_iff.mpr hfail), ?_⟩
    intro h
    exact hcycle (TransGen.lift origin (fun _ _ => hcovers.leads) _ _ h)
  · intro hclean
    -- Above a cycle there might be a way without an end, but no finite graph has one.
    have hacyclic : Acyclic t'.Leads a := fun b hb => (hclean b hb).2
    have hground := hcovers.grounded (hacyclic.grounded (finite_reach hsources' a))
    intro inner hreach
    obtain ⟨b, hb, rfl⟩ := hcovers.exists_reach hreach
    exact ⟨fun error hfail => (hclean b hb).1 error (hcovers.fails_iff.mp hfail), hground.acyclic _ hreach⟩

theorem passes_iff (hitem : item ∈ t'.items a) : t.Passes (rename item) ↔ t'.Passes item := by
  apply or_congr
  · apply exists_congr
    intro value
    exact hcovers.classify_inl_iff hitem
  · constructor
    · intro h
      obtain ⟨inner, hclass, hclean⟩ := h
      obtain ⟨b, hb, rfl⟩ := (hcovers.classify_inr_iff hitem).mp hclass
      exact ⟨b, hb, (hcovers.clean_iff hsources').mp hclean⟩
    · intro h
      obtain ⟨b, hb, hclean⟩ := h
      exact ⟨origin b, (hcovers.classify_inr_iff hitem).mpr ⟨b, hb, rfl⟩, (hcovers.clean_iff hsources').mpr hclean⟩

theorem troubled (htrouble : t'.Troubled a item) : t.Troubled (origin a) (rename item) := by
  obtain ⟨before, after, heq, hbefore, hstuck⟩ := htrouble
  have hmem : ∀ other ∈ before, other ∈ t'.items a := fun other hother => by simp [heq, hother]
  refine ⟨before.map rename, after.map rename, by simp [hcovers.items, heq], ?_, ?_⟩
  · intro found hfound
    obtain ⟨other, hother, rfl⟩ := List.mem_map.mp hfound
    exact (hcovers.passes_iff hsources' (hmem other hother)).mpr (hbefore other hother)
  · rw [hcovers.passes_iff hsources' (a := a) (by simp [heq])]
    exact hstuck

theorem follows (hfollows : t'.Follows a b) : t.Follows (origin a) (origin b) := by
  obtain ⟨item, htrouble, hclass⟩ := hfollows
  exact ⟨rename item, hcovers.troubled hsources' htrouble,
    (hcovers.classify_inr_iff htrouble.mem).mpr ⟨b, hclass, rfl⟩⟩

theorem endsIn (hends : t'.EndsIn cyclic a error) : t.EndsIn cyclic (origin a) error := by
  obtain ⟨last, hlast, hend⟩ := hends
  refine ⟨origin last, ReflTransGen.lift origin (fun _ _ => hcovers.follows hsources') _ _ hlast, ?_⟩
  obtain ⟨hcycle, rfl⟩ | ⟨item, htrouble, hclass⟩ := hend
  · exact Or.inl ⟨TransGen.lift origin (fun _ _ => hcovers.follows hsources') _ _ hcycle, rfl⟩
  · exact Or.inr ⟨rename item, hcovers.troubled hsources' htrouble,
      (hcovers.classify_error_iff htrouble.mem).mpr hclass⟩

end finite

section descents

variable [DecidableEq Node] [DecidableEq Node'] (hcovers : t'.Covers t origin rename)
  {build' : Node' → List (Item' × Value) → Value} {build : Node → List (Item × Value) → Value}
  (hbuild : ∀ node members, build (origin node) (members.map (Prod.map rename id)) = build' node members)
  {sources' : Finset Node'} {sources : Finset Node} (hsources' : ∀ node, ∀ item ∈ t'.items node, node ∈ sources')
  (hsources : ∀ node, ∀ item ∈ t.items node, node ∈ sources) {fuel more : ℕ}

include hcovers hbuild

/-- Two descents that come through come to the same, on whatever paths. -/
theorem descend_value {path' : List Node'} {path : List Node}
    (hrun' : t'.descend cyclic spent build' fuel path' a = .ok value')
    (hrun : t.descend cyclic spent build more path (origin a) = .ok value) : value = value' := by
  induction fuel generalizing more path' path a value' value with
  | zero => cases hrun'
  | succ fuel ih =>
    cases more with
    | zero => cases hrun
    | succ more =>
      rw [Traversal.descend] at hrun' hrun
      split at hrun'
      case isTrue => cases hrun'
      case isFalse =>
        split at hrun
        case isTrue => cases hrun
        case isFalse =>
          obtain ⟨members', hloop', rfl⟩ := map_eq_ok_iff.mp hrun'
          obtain ⟨members, hloop, rfl⟩ := map_eq_ok_iff.mp hrun
          rw [hcovers.items] at hloop
          rw [← hbuild, mapM_ok_map (g := Prod.map rename id) _ hloop' hloop]
          intro item hitem member' member hsettle' hsettle
          rw [settle] at hsettle' hsettle
          rw [hcovers.classify a item hitem] at hsettle
          cases hclass : t'.classify item with
          | error error =>
            rw [hclass] at hsettle'
            cases hsettle'
          | ok found =>
            rw [hclass] at hsettle' hsettle
            cases found with
            | inl other =>
              cases hsettle'
              cases hsettle
              rfl
            | inr inner =>
              obtain ⟨_, hinner', rfl⟩ := map_eq_ok_iff.mp hsettle'
              obtain ⟨_, hinner, rfl⟩ := map_eq_ok_iff.mp hsettle
              rw [ih hinner' hinner]
              rfl

include hsources' hsources

/-- A descent comes to the same as one from the origin, with fuel to spare. -/
theorem descend (hfuel : sources'.card < fuel) (hmore : sources.card < more) :
    t.descend cyclic spent build more [] (origin a) = t'.descend cyclic spent build' fuel [] a := by
  cases hrun' : t'.descend cyclic spent build' fuel [] a with
  | error error =>
    rw [descend_error_iff hsources' hfuel] at hrun'
    exact (descend_error_iff hsources hmore).mpr (hcovers.endsIn hsources' hrun')
  | ok value' =>
    cases hrun : t.descend cyclic spent build more [] (origin a) with
    | error error =>
      have hclean := ((descend_ok_iff hsources' (unseen_lt [] hfuel)).mp ⟨value', hrun'⟩).1
      rw [descend_error_iff hsources hmore] at hrun
      exact absurd ((hcovers.clean_iff hsources').mpr hclean) (not_clean_of_endsIn hrun)
    | ok value => rw [hcovers.descend_value hbuild hrun' hrun]

end descents

section explorations

variable [DecidableEq Node] [DecidableEq Node'] (hcovers : t'.Covers t origin rename)
  {build' : Node' → List (Item' × Value) → Value} {build : Node → List (Item × Value) → Value} {again : Value}
  (hbuild : ∀ node members, build (origin node) (members.map (Prod.map rename id)) = build' node members)
  {seen seen' : List Node'} {last : List Node} {fuel more : ℕ} {S : Set Node'} {Made : Value → Prop}

include hcovers hbuild

/-- Among nodes of different origins an exploration meets those again that one from the
origin does. -/
theorem explore_of_injOn (hinj : Set.InjOn origin S) (hclosed : ∀ a b, a ∈ S → t'.Leads a b → b ∈ S) (ha : a ∈ S)
    (hseen : ∀ node ∈ seen, node ∈ S) :
    t.explore again spent build fuel (seen.map origin) (origin a) =
      (t'.explore again spent build' fuel seen a).map (Prod.map id (List.map origin)) := by
  induction fuel generalizing seen a with
  | zero => rfl
  | succ fuel ih =>
    rw [explore, explore]
    by_cases hmem : a ∈ seen
    · rw [if_pos hmem, if_pos ((mem_map_iff_of_injOn hinj ha hseen).mpr hmem)]
      rfl
    · rw [if_neg hmem, if_neg fun hmet => hmem ((mem_map_iff_of_injOn hinj ha hseen).mp hmet), hcovers.items]
      have hloop : mapWithState (t.settleOnce (t.explore again spent build fuel)) ((a :: seen).map origin)
          ((t'.items a).map rename) =
            (mapWithState (t'.settleOnce (t'.explore again spent build' fuel)) (a :: seen) (t'.items a)).map
              (Prod.map (List.map (Prod.map rename id)) (List.map origin)) := by
        apply mapWithState_map (P := fun s => ∀ node ∈ s, node ∈ S)
        · intro s hs item hitem
          rw [settleOnce, settleOnce, hcovers.classify a item hitem]
          cases hclass : t'.classify item with
          | error error => rfl
          | ok found =>
            cases found with
            | inl value => rfl
            | inr inner =>
              dsimp only [Except.map, Sum.map_inr]
              rw [ih (hclosed a inner ha ⟨item, hitem, hclass⟩) hs]
              cases t'.explore again spent build' fuel s inner <;> rfl
        · intro s member s' item hitem hs hstep
          obtain ⟨_, rfl⟩ | ⟨inner, value, hclass, hrecurse⟩ := settleOnce_ok hstep
          · exact hs
          · exact mem_of_explore_closed hclosed (hclosed a inner ha ⟨item, hitem, hclass⟩) hs hrecurse
        · rw [List.forall_mem_cons]
          exact ⟨ha, hseen⟩
      rw [List.map_cons] at hloop
      rw [hloop]
      cases mapWithState (t'.settleOnce (t'.explore again spent build' fuel)) (a :: seen) (t'.items a) with
      | error error => rfl
      | ok result =>
        dsimp only [Except.map]
        rw [Prod.map_fst, hbuild]
        rfl

omit [DecidableEq Node] [DecidableEq Node'] hbuild in
/-- A step keeps what its recursion keeps. -/
theorem nodup_of_settleOnce {recurse' : List Node' → Node' → Except Error (Value × List Node')}
    {recurse : List Node → Node → Except Error (Value × List Node)} {item : Item'} (hitem : item ∈ t'.items a)
    {member : Item' × Value}
    (hrecurse : ∀ inner, recurse' seen inner = .ok (member.2, seen') →
      recurse (seen.map origin) (origin inner) = .ok (member.2, last) →
        last = seen'.map origin ∧ (seen'.map origin).Nodup)
    (hstep' : t'.settleOnce recurse' seen item = .ok (member, seen'))
    (hstep : t.settleOnce recurse (seen.map origin) (rename item) = .ok (Prod.map rename id member, last))
    (hnodup : (seen.map origin).Nodup) : last = seen'.map origin ∧ (seen'.map origin).Nodup := by
  rw [settleOnce] at hstep' hstep
  rw [hcovers.classify a item hitem] at hstep
  cases hclass : t'.classify item with
  | error error =>
    rw [hclass] at hstep'
    cases hstep'
  | ok found =>
    rw [hclass] at hstep' hstep
    cases found with
    | inl other =>
      cases hstep'
      cases hstep
      exact ⟨rfl, hnodup⟩
    | inr inner =>
      obtain ⟨⟨value', next'⟩, hinner', heq'⟩ := map_eq_ok_iff.mp hstep'
      obtain ⟨⟨value, next⟩, hinner, heq⟩ := map_eq_ok_iff.mp hstep
      cases heq'
      cases heq
      exact hrecurse inner hinner' hinner

/-- Explorations that come to the same have settled their items alike. -/
theorem members_of_explore (hlegible : t.Legible build again Made) {members' : List (Item' × Value)}
    {members : List (Item × Value)} {start' end' : List Node'} {start finish : List Node}
    (hloop' : mapWithState (t'.settleOnce (t'.explore again spent build' fuel)) start' (t'.items a) =
      .ok (members', end'))
    (hloop : mapWithState (t.settleOnce (t.explore again spent build more)) start ((t'.items a).map rename) =
      .ok (members, finish))
    (hvalue : build (origin a) members = build' a members') : members = members'.map (Prod.map rename id) := by
  obtain ⟨hitems', hfits'⟩ := fits_of_loop hlegible.madeAgain (fun node members => by
    rw [← hbuild]; exact hlegible.made _ _) hloop'
  obtain ⟨hitems, hfits⟩ := fits_of_loop hlegible.madeAgain hlegible.made hloop
  apply hlegible.inj (origin a) _ _ _ hfits
  · intro other hother
    obtain ⟨member, hmember, rfl⟩ := List.mem_map.mp hother
    apply hcovers.fits_rename (a := a) _ (hfits' member hmember)
    rw [← hitems']
    exact List.mem_map_of_mem hmember
  · rw [hvalue]
    exact (hbuild a members').symm
  · rw [hitems, ← hitems', List.map_map, List.map_map]
    rfl

/-- An exploration that comes to the same as one from the origin has come to see different
origins only. -/
theorem nodup_of_explore (hlegible : t.Legible build again Made)
    (hrun' : t'.explore again spent build' fuel seen a = .ok (value, seen'))
    (hrun : t.explore again spent build more (seen.map origin) (origin a) = .ok (value, last))
    (hnodup : (seen.map origin).Nodup) : last = seen'.map origin ∧ (seen'.map origin).Nodup := by
  induction fuel generalizing more seen a value seen' last with
  | zero => cases hrun'
  | succ fuel ih =>
    cases more with
    | zero => cases hrun
    | succ more =>
      rw [explore] at hrun' hrun
      by_cases hmem : a ∈ seen
      · rw [if_pos hmem] at hrun'
        rw [if_pos (List.mem_map_of_mem hmem)] at hrun
        cases hrun'
        cases hrun
        exact ⟨rfl, hnodup⟩
      · rw [if_neg hmem] at hrun'
        obtain ⟨⟨members', end'⟩, hloop', heq'⟩ := map_eq_ok_iff.mp hrun'
        cases heq'
        by_cases hmet : origin a ∈ seen.map origin
        · rw [if_pos hmet] at hrun
          have hagain : again = build' a members' := (Prod.mk.inj (Except.ok.inj hrun)).1
          rw [← hbuild] at hagain
          exact absurd hagain.symm (hlegible.ne _ _)
        · rw [if_neg hmet, hcovers.items] at hrun
          obtain ⟨⟨members, end'⟩, hloop, heq⟩ := map_eq_ok_iff.mp hrun
          obtain ⟨hvalue, rfl⟩ := Prod.mk.inj heq
          obtain rfl := hcovers.members_of_explore hbuild hlegible hloop' hloop hvalue
          apply mapWithState_states (P := fun s => (List.map origin s).Nodup) _ _ hloop' hloop
          · intro s member s' s'' item hitem hs hstep' hstep
            exact hcovers.nodup_of_settleOnce hitem (fun inner hinner' hinner => ih hinner' hinner hs) hstep' hstep hs
          · rw [List.map_cons, List.nodup_cons]
            exact ⟨hmet, hnodup⟩

section finite

variable {sources' : Finset Node'} {sources : Finset Node} (hsources' : ∀ node, ∀ item ∈ t'.items node, node ∈ sources')
  (hsources : ∀ node, ∀ item ∈ t.items node, node ∈ sources) (hfuel : sources'.card < fuel)
  (hmore : sources.card < more)

include hsources' hsources hfuel hmore

omit hbuild in
theorem explore_ok_iff : (∃ result, t.explore again spent build more [] (origin a) = .ok result) ↔
    ∃ result, t'.explore again spent build' fuel [] a = .ok result := by
  rw [Traversal.explore_ok_iff hsources hmore, Traversal.explore_ok_iff hsources' hfuel]
  constructor
  · intro hnone b hreach error hfails
    exact hnone (origin b) (hcovers.reach hreach) error (hcovers.fails_iff.mpr hfails)
  · intro hnone inner hreach error hfails
    obtain ⟨b, hb, rfl⟩ := hcovers.exists_reach hreach
    exact hnone b hb error (hcovers.fails_iff.mp hfails)

/-- Two explorations that come through come to the same exactly if all nodes that are
reached have different origins. -/
theorem explore_value_iff (hlegible : t.Legible build again Made)
    (hrun' : t'.explore again spent build' fuel [] a = .ok (value', seen'))
    (hrun : t.explore again spent build more [] (origin a) = .ok (value, last)) :
    value' = value ↔ Set.InjOn origin {b | ReflTransGen t'.Leads a b} := by
  constructor
  · intro heq
    subst heq
    obtain ⟨_, hnodup⟩ := hcovers.nodup_of_explore hbuild hlegible hrun' hrun List.nodup_nil
    intro b hb c hc heq
    exact List.inj_on_of_nodup_map hnodup (mem_of_explore hrun' hb).1 (mem_of_explore hrun' hc).1 heq
  · intro hinj
    have hmost := unseen_lt [] (lt_max_of_lt_left (c := more) hfuel)
    have hmost' := unseen_lt [] (lt_max_of_lt_right (b := fuel) hmore)
    have hsame : t.explore again spent build (max fuel more) [] (origin a) =
        (t'.explore again spent build' (max fuel more) [] a).map (Prod.map id (List.map origin)) :=
      hcovers.explore_of_injOn hbuild hinj (fun _ _ hreach hleads => hreach.tail hleads) .refl (List.forall_mem_nil _)
    rw [explore_fuel hsources (unseen_lt [] hmore) hmost', explore_fuel hsources' (unseen_lt [] hfuel) hmost, hrun,
      hrun'] at hsame
    exact (Prod.mk.inj (Except.ok.inj hsame)).1.symm

end finite

end explorations

end Covers

end Traversal

end graph

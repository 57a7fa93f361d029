import NodeBackend.Graph.Cycles

namespace graph

open Relation

/-- A graph whose nodes hold items. An item is a value, or another node, or it cannot be
had. -/
structure Traversal (Node Item Value Error : Type) where
  items : Node → List Item
  classify : Item → Except Error (Value ⊕ Node)

/-- How many of some nodes a list leaves out. -/
def unseen {Node : Type} [DecidableEq Node] (sources : Finset Node) (seen : List Node) : ℕ :=
  (sources.filter (· ∉ seen)).card

theorem unseen_mono {Node : Type} [DecidableEq Node] (sources : Finset Node) {seen more : List Node}
    (hsub : seen ⊆ more) : unseen sources more ≤ unseen sources seen := by
  apply Finset.card_le_card
  intro node hnode
  rw [Finset.mem_filter] at hnode ⊢
  exact ⟨hnode.1, fun hseen => hnode.2 (hsub hseen)⟩

theorem unseen_cons_lt {Node : Type} [DecidableEq Node] {sources : Finset Node} {seen : List Node} {node : Node}
    (hsource : node ∈ sources) (hnew : node ∉ seen) : unseen sources (node :: seen) < unseen sources seen := by
  apply Finset.card_lt_card
  rw [Finset.ssubset_iff_of_subset]
  · exact ⟨node, Finset.mem_filter.mpr ⟨hsource, hnew⟩, by simp⟩
  · intro other hother
    rw [Finset.mem_filter] at hother ⊢
    exact ⟨hother.1, fun hseen => hother.2 (List.mem_cons_of_mem _ hseen)⟩

theorem unseen_lt {Node : Type} [DecidableEq Node] {sources : Finset Node} (seen : List Node) {fuel : ℕ}
    (hfuel : sources.card < fuel) : unseen sources seen < fuel :=
  (Finset.card_filter_le _ _).trans_lt hfuel

theorem mapM_ok_iff {Item Value Error : Type} {f : Item → Except Error Value} {items : List Item} :
    (∃ values, items.mapM f = .ok values) ↔ ∀ item ∈ items, ∃ value, f item = .ok value := by
  induction items with
  | nil => simp [pure, Except.pure]
  | cons item rest ih =>
    rw [List.mapM_cons, List.forall_mem_cons, ← ih]
    cases f item with
    | error error => simp [bind, Except.bind]
    | ok value =>
      cases rest.mapM f with
      | error error => simp [bind, Except.bind]
      | ok values => simp [bind, Except.bind, pure, Except.pure]

theorem forall₂_of_mapM_ok {Item Value Error : Type} {f : Item → Except Error Value} {items : List Item}
    {values : List Value} (hrun : items.mapM f = .ok values) :
    List.Forall₂ (fun item value => f item = .ok value) items values := by
  induction items generalizing values with
  | nil =>
    cases hrun
    exact .nil
  | cons item rest ih =>
    rw [List.mapM_cons] at hrun
    cases hitem : f item with
    | error error =>
      rw [hitem] at hrun
      cases hrun
    | ok value =>
      rw [hitem] at hrun
      cases hrest : rest.mapM f with
      | error error =>
        rw [hrest] at hrun
        cases hrun
      | ok more =>
        rw [hrest] at hrun
        cases hrun
        exact .cons hitem (ih hrest)

theorem mapM_ok_of_forall₂ {Item Value Error : Type} {f : Item → Except Error Value} {items : List Item}
    {values : List Value} (h : List.Forall₂ (fun item value => f item = .ok value) items values) :
    items.mapM f = .ok values := by
  induction h with
  | nil => rfl
  | cons hitem _ ih =>
    rw [List.mapM_cons, hitem, ih]
    rfl

theorem exists_of_mem_mapM {Item Value Error : Type} {f : Item → Except Error Value} {items : List Item}
    {values : List Value} {value : Value} (hrun : items.mapM f = .ok values) (hmem : value ∈ values) :
    ∃ item ∈ items, f item = .ok value := by
  have hpairs := forall₂_of_mapM_ok hrun
  obtain ⟨place, hplace, rfl⟩ := List.getElem_of_mem hmem
  have hitem : place < items.length := by
    rw [hpairs.length_eq]
    exact hplace
  exact ⟨items[place], List.getElem_mem hitem, hpairs.get hitem hplace⟩

theorem mapM_congr {Item Value Error : Type} {f g : Item → Except Error Value} {items : List Item}
    (hsame : ∀ item ∈ items, f item = g item) : items.mapM f = items.mapM g := by
  induction items with
  | nil => rfl
  | cons item rest ih =>
    rw [List.mapM_cons, List.mapM_cons, hsame item List.mem_cons_self,
      ih fun other hother => hsame other (List.mem_cons_of_mem _ hother)]

/-- The first item that fails is what a loop fails with. -/
theorem exists_of_mapM_error {Item Value Error : Type} {f : Item → Except Error Value} {items : List Item}
    {error : Error} (herror : items.mapM f = .error error) :
    ∃ before item after, items = before ++ item :: after ∧ (∀ other ∈ before, ∃ value, f other = .ok value) ∧
      f item = .error error := by
  induction items with
  | nil => cases herror
  | cons item rest ih =>
    rw [List.mapM_cons] at herror
    cases hitem : f item with
    | error first =>
      rw [hitem] at herror
      cases herror
      exact ⟨[], item, rest, rfl, by simp, hitem⟩
    | ok value =>
      rw [hitem] at herror
      cases hrest : rest.mapM f with
      | error first =>
        rw [hrest] at herror
        cases herror
        obtain ⟨before, other, after, rfl, hbefore, hother⟩ := ih hrest
        refine ⟨item :: before, other, after, rfl, ?_, hother⟩
        rw [List.forall_mem_cons]
        exact ⟨⟨value, hitem⟩, hbefore⟩
      | ok values =>
        rw [hrest] at herror
        cases herror

namespace Traversal

variable {Node Item Value Error : Type} (t : Traversal Node Item Value Error)

/-- An item with its value, where a node among the items is left to a recursion. -/
def settle (recurse : Node → Except Error Value) (item : Item) : Except Error (Item × Value) :=
  match t.classify item with
  | .error error => .error error
  | .ok (.inl value) => .ok (item, value)
  | .ok (.inr inner) => (recurse inner).map fun value => (item, value)

/-- Go down all items in order, and fail where a node is below itself. -/
def descend [DecidableEq Node] (cyclic spent : Error) (build : Node → List (Item × Value) → Value) :
    ℕ → List Node → Node → Except Error Value
  | 0, _, _ => .error spent
  | fuel + 1, path, node =>
    if node ∈ path then .error cyclic
    else ((t.items node).mapM (t.settle (descend cyclic spent build fuel (node :: path)))).map (build node)

/-- One node is an item of another. -/
def Leads (outer inner : Node) : Prop :=
  ∃ item ∈ t.items outer, t.classify item = .ok (.inr inner)

/-- An item of a node cannot be had. -/
def Fails (node : Node) (error : Error) : Prop :=
  ∃ item ∈ t.items node, t.classify item = .error error

/-- Everything below a node can be had, and nothing is below itself. -/
def Clean (node : Node) : Prop :=
  ∀ inner, ReflTransGen t.Leads node inner → (∀ error, ¬ t.Fails inner error) ∧ ¬ TransGen t.Leads inner inner

/-- An item that a descent gets past. -/
def Passes (item : Item) : Prop :=
  (∃ value, t.classify item = .ok (.inl value)) ∨ ∃ inner, t.classify item = .ok (.inr inner) ∧ t.Clean inner

/-- The first item of a node that a descent does not get past. -/
def Troubled (node : Node) (item : Item) : Prop :=
  ∃ before after, t.items node = before ++ item :: after ∧ (∀ other ∈ before, t.Passes other) ∧ ¬ t.Passes item

def Follows (outer inner : Node) : Prop :=
  ∃ item, t.Troubled outer item ∧ t.classify item = .ok (.inr inner)

def Stops (node : Node) (error : Error) : Prop :=
  ∃ item, t.Troubled node item ∧ t.classify item = .error error

/-- What comes of going down from a node, always to the first item that is not passed: a
node that is below itself, or an item that cannot be had. -/
def EndsIn (cyclic : Error) (node : Node) (error : Error) : Prop :=
  ∃ last, ReflTransGen t.Follows node last ∧ (TransGen t.Follows last last ∧ error = cyclic ∨ t.Stops last error)

variable {t} {a b : Node} {item other : Item} {cyclic spent error error' : Error}
variable {build : Node → List (Item × Value) → Value}

theorem Clean.step (hclean : t.Clean a) (hleads : t.Leads a b) : t.Clean b :=
  fun inner hreach => hclean inner (hreach.head hleads)

theorem Troubled.mem (htrouble : t.Troubled a item) : item ∈ t.items a := by
  obtain ⟨before, after, heq, _⟩ := htrouble
  simp [heq]

theorem Follows.leads (hfollows : t.Follows a b) : t.Leads a b := by
  obtain ⟨item, htrouble, hitem⟩ := hfollows
  exact ⟨item, htrouble.mem, hitem⟩

theorem Stops.fails (hstops : t.Stops a error) : t.Fails a error := by
  obtain ⟨item, htrouble, hitem⟩ := hstops
  exact ⟨item, htrouble.mem, hitem⟩

theorem troubled_unique (hitem : t.Troubled a item) (hother : t.Troubled a other) : item = other := by
  obtain ⟨before, after, heq, hbefore, hstuck⟩ := hitem
  obtain ⟨before', after', heq', hbefore', hstuck'⟩ := hother
  rw [heq] at heq'
  clear heq
  induction before generalizing before' with
  | nil =>
    cases before' with
    | nil => exact (List.cons.inj heq').1
    | cons first rest =>
      obtain ⟨rfl, _⟩ := List.cons.inj heq'
      exact absurd (hbefore' _ List.mem_cons_self) hstuck
  | cons first rest ih =>
    cases before' with
    | nil =>
      obtain ⟨rfl, _⟩ := List.cons.inj heq'
      exact absurd (hbefore _ List.mem_cons_self) hstuck'
    | cons first' rest' =>
      obtain ⟨rfl, hrest⟩ := List.cons.inj heq'
      exact ih (fun other hother => hbefore other (List.mem_cons_of_mem _ hother)) rest' hrest
        fun other hother => hbefore' other (List.mem_cons_of_mem _ hother)

theorem follows_unique : Relator.RightUnique t.Follows := by
  intro a b c hb hc
  obtain ⟨item, hitem, hinner⟩ := hb
  obtain ⟨other, hother, houter⟩ := hc
  rw [troubled_unique hitem hother, houter] at hinner
  exact (Sum.inr.inj (Except.ok.inj hinner)).symm

theorem not_follows_of_stops (hstops : t.Stops a error) : ¬ t.Follows a b := by
  intro hfollows
  obtain ⟨item, hitem, hfails⟩ := hstops
  obtain ⟨other, hother, hinner⟩ := hfollows
  rw [troubled_unique hitem hother, hinner] at hfails
  cases hfails

theorem eq_of_stops (hstops : t.Stops a error) (hreach : ReflTransGen t.Follows a b) : b = a := by
  obtain rfl | ⟨c, hfollows, _⟩ := ReflTransGen.cases_head hreach
  · rfl
  · exact absurd hfollows (not_follows_of_stops hstops)

/-- Whoever follows from a node below itself is below itself too. -/
theorem cycle_of_reach (hcycle : TransGen t.Follows a a) (hreach : ReflTransGen t.Follows a b) :
    TransGen t.Follows b b := by
  induction hreach with
  | refl => exact hcycle
  | @tail b c _ hstep ih =>
    obtain ⟨d, hd, hback⟩ := TransGen.head'_iff.mp ih
    rw [follows_unique hd hstep] at hback
    exact TransGen.tail' hback hstep

theorem not_stops_of_cycle (hcycle : TransGen t.Follows a a) : ¬ t.Stops a error := by
  intro hstops
  obtain ⟨b, hfollows, _⟩ := TransGen.head'_iff.mp hcycle
  exact not_follows_of_stops hstops hfollows

theorem endsIn_unique (hends : t.EndsIn cyclic a error) (hends' : t.EndsIn cyclic a error') : error = error' := by
  obtain ⟨last, hlast, hcycle | hstops⟩ := hends
  · obtain ⟨last', hlast', hcycle' | hstops'⟩ := hends'
    · rw [hcycle.2, hcycle'.2]
    · obtain hreach | hreach := ReflTransGen.total_of_right_unique follows_unique hlast hlast'
      · exact absurd hstops' (not_stops_of_cycle (cycle_of_reach hcycle.1 hreach))
      · rw [← eq_of_stops hstops' hreach] at hstops'
        exact absurd hstops' (not_stops_of_cycle hcycle.1)
  · obtain ⟨last', hlast', hcycle' | hstops'⟩ := hends'
    · obtain hreach | hreach := ReflTransGen.total_of_right_unique follows_unique hlast hlast'
      · rw [← eq_of_stops hstops hreach] at hstops
        exact absurd hstops (not_stops_of_cycle hcycle'.1)
      · exact absurd hstops (not_stops_of_cycle (cycle_of_reach hcycle'.1 hreach))
    · have hsame : last' = last := by
        obtain hreach | hreach := ReflTransGen.total_of_right_unique follows_unique hlast hlast'
        · exact eq_of_stops hstops hreach
        · exact (eq_of_stops hstops' hreach).symm
      rw [hsame] at hstops'
      obtain ⟨item, hitem, hfails⟩ := hstops
      obtain ⟨other, hother, hfails'⟩ := hstops'
      rw [troubled_unique hitem hother, hfails'] at hfails
      exact (Except.error.inj hfails).symm

theorem not_clean_of_endsIn (hends : t.EndsIn cyclic a error) : ¬ t.Clean a := by
  intro hclean
  obtain ⟨last, hlast, hend⟩ := hends
  have hreach : ReflTransGen t.Leads a last := ReflTransGen.mono (fun _ _ => Follows.leads) _ _ hlast
  obtain hcycle | hstops := hend
  · exact (hclean last hreach).2 (TransGen.mono (fun _ _ => Follows.leads) _ _ hcycle.1)
  · exact (hclean last hreach).1 error hstops.fails

/-- An item that is settled by a recursion is one that the recursion gets past. -/
theorem settle_ok_iff {recurse : Node → Except Error Value} (item : Item) :
    (∃ settled, t.settle recurse item = .ok settled) ↔
      (∃ value, t.classify item = .ok (.inl value)) ∨
        ∃ inner, t.classify item = .ok (.inr inner) ∧ ∃ value, recurse inner = .ok value := by
  rw [settle]
  cases t.classify item with
  | error error => simp
  | ok found =>
    cases found with
    | inl value => simp
    | inr inner => cases hrecurse : recurse inner <;> simp [hrecurse, Except.map]

theorem settle_error_iff {recurse : Node → Except Error Value} (item : Item) :
    t.settle recurse item = .error error ↔
      t.classify item = .error error ∨
        ∃ inner, t.classify item = .ok (.inr inner) ∧ recurse inner = .error error := by
  rw [settle]
  cases t.classify item with
  | error error => simp
  | ok found =>
    cases found with
    | inl value => simp
    | inr inner => cases hrecurse : recurse inner <;> simp [hrecurse, Except.map]

theorem map_ok_iff {First Second : Type} {outcome : Except Error First} {f : First → Second} :
    (∃ value, outcome.map f = .ok value) ↔ ∃ value, outcome = .ok value := by
  cases outcome <;> simp [Except.map]

theorem map_eq_ok_iff {First Second : Type} {outcome : Except Error First} {f : First → Second} {value : Second} :
    outcome.map f = .ok value ↔ ∃ first, outcome = .ok first ∧ f first = value := by
  cases outcome <;> simp [Except.map]

theorem map_error_iff {First Second : Type} {outcome : Except Error First} {f : First → Second} :
    outcome.map f = .error error ↔ outcome = .error error := by
  cases outcome <;> simp [Except.map]

/-- A node is clean and leads to nothing on a path, itself included, if that holds of what
it leads to. -/
theorem clean_and_avoids_iff {path : List Node} (hnew : a ∉ path) :
    (t.Clean a ∧ ∀ node ∈ path, ¬ ReflTransGen t.Leads a node) ↔
      (∀ error, ¬ t.Fails a error) ∧ ∀ inner, t.Leads a inner →
        t.Clean inner ∧ ∀ node ∈ a :: path, ¬ ReflTransGen t.Leads inner node := by
  constructor
  · intro h
    obtain ⟨hclean, hpath⟩ := h
    refine ⟨(hclean a .refl).1, fun inner hleads => ⟨hclean.step hleads, ?_⟩⟩
    intro node hnode hreach
    obtain rfl | hnode := List.mem_cons.mp hnode
    · exact (hclean node .refl).2 (TransGen.head' hleads hreach)
    · exact hpath node hnode (hreach.head hleads)
  · intro h
    obtain ⟨hfails, hbelow⟩ := h
    constructor
    · intro inner hreach
      obtain rfl | ⟨next, hleads, hreach⟩ := ReflTransGen.cases_head hreach
      · refine ⟨hfails, fun hcycle => ?_⟩
        obtain ⟨next, hleads, hback⟩ := TransGen.head'_iff.mp hcycle
        exact (hbelow next hleads).2 _ List.mem_cons_self hback
      · exact (hbelow next hleads).1 inner hreach
    · intro node hnode hreach
      obtain rfl | ⟨next, hleads, hreach⟩ := ReflTransGen.cases_head hreach
      · exact hnew hnode
      · exact (hbelow next hleads).2 node (List.mem_cons_of_mem _ hnode) hreach

section finite

variable [DecidableEq Node] {sources : Finset Node} {fuel : ℕ} {path : List Node}

/-- A descent builds of a node what all its items are settled to. -/
theorem descend_of_forall₂ {members : List (Item × Value)} (hnew : a ∉ path)
    (hitems : List.Forall₂ (fun item member => t.settle (t.descend cyclic spent build fuel (a :: path)) item =
      .ok member) (t.items a) members) :
    t.descend cyclic spent build (fuel + 1) path a = .ok (build a members) := by
  rw [descend, if_neg hnew, mapM_ok_of_forall₂ hitems]
  rfl

/-- A descent comes through exactly where all is clean below the node and nothing there
is on the path. -/
theorem descend_ok_iff (hsources : ∀ node, ∀ item ∈ t.items node, node ∈ sources) (hfuel : unseen sources path < fuel) :
    (∃ value, t.descend cyclic spent build fuel path a = .ok value) ↔
      t.Clean a ∧ ∀ node ∈ path, ¬ ReflTransGen t.Leads a node := by
  induction fuel generalizing path a with
  | zero => exact absurd hfuel (Nat.not_lt_zero _)
  | succ fuel ih =>
    rw [descend]
    split
    case isTrue hmem =>
      constructor
      · intro h
        obtain ⟨value, hvalue⟩ := h
        cases hvalue
      · intro h
        exact absurd .refl (h.2 a hmem)
    case isFalse hnew =>
      have hrecurse : ∀ item ∈ t.items a, ∀ inner,
          (∃ value, t.descend cyclic spent build fuel (a :: path) inner = .ok value) ↔
            t.Clean inner ∧ ∀ node ∈ a :: path, ¬ ReflTransGen t.Leads inner node := by
        intro item hitem inner
        have hless := unseen_cons_lt (hsources a item hitem) hnew
        exact ih (by omega)
      rw [map_ok_iff, mapM_ok_iff, clean_and_avoids_iff hnew]
      constructor
      · intro hitems
        constructor
        · intro error hfails
          obtain ⟨item, hitem, hclass⟩ := hfails
          have hsettled := (settle_ok_iff item).mp (hitems item hitem)
          simp [hclass] at hsettled
        · intro inner hleads
          obtain ⟨item, hitem, hclass⟩ := hleads
          have hsettled := (settle_ok_iff item).mp (hitems item hitem)
          apply (hrecurse item hitem inner).mp
          simpa [hclass] using hsettled
      · intro h item hitem
        obtain ⟨hfails, hbelow⟩ := h
        rw [settle_ok_iff]
        cases hclass : t.classify item with
        | error error => exact absurd ⟨item, hitem, hclass⟩ (hfails error)
        | ok found =>
          cases found with
          | inl value => exact Or.inl ⟨value, rfl⟩
          | inr inner => exact Or.inr ⟨inner, rfl, (hrecurse item hitem inner).mpr (hbelow inner ⟨item, hitem, hclass⟩)⟩

/-- What fails below a path whose nodes all lead here, by first troubles only. -/
theorem endsIn_of_descend (hsources : ∀ node, ∀ item ∈ t.items node, node ∈ sources)
    (hfuel : unseen sources path < fuel) (hpath : ∀ node ∈ path, TransGen t.Follows node a)
    (herror : t.descend cyclic spent build fuel path a = .error error) : t.EndsIn cyclic a error := by
  induction fuel generalizing path a with
  | zero => exact absurd hfuel (Nat.not_lt_zero _)
  | succ fuel ih =>
    rw [descend] at herror
    split at herror
    case isTrue hmem =>
      cases herror
      exact ⟨a, .refl, Or.inl ⟨hpath a hmem, rfl⟩⟩
    case isFalse hnew =>
      obtain ⟨before, item, after, hitems, hbefore, hitem⟩ := exists_of_mapM_error (map_error_iff.mp herror)
      have hmem : item ∈ t.items a := by simp [hitems]
      have hless := unseen_cons_lt (hsources a item hmem) hnew
      have hpasses : ∀ other ∈ before, t.Passes other := by
        intro other hother
        obtain hvalue | ⟨inner, hclass, hdescend⟩ := (settle_ok_iff other).mp (hbefore other hother)
        · exact Or.inl hvalue
        · exact Or.inr ⟨inner, hclass, ((descend_ok_iff hsources (by omega)).mp hdescend).1⟩
      obtain hfails | ⟨inner, hclass, hdescend⟩ := (settle_error_iff item).mp hitem
      · refine ⟨a, .refl, Or.inr ⟨item, ⟨before, after, hitems, hpasses, ?_⟩, hfails⟩⟩
        simp [Passes, hfails]
      · -- a clean node would lead back to the path, and be below itself
        have hstuck : ¬ t.Passes item := by
          intro hpass
          obtain ⟨value, hvalue⟩ | ⟨other, hother, hclean⟩ := hpass
          · rw [hclass] at hvalue
            cases hvalue
          · rw [hclass] at hother
            cases hother
            have hfail : ¬ ∃ value, t.descend cyclic spent build fuel (a :: path) inner = .ok value := by
              simp [hdescend]
            rw [descend_ok_iff hsources (by omega)] at hfail
            push Not at hfail
            obtain ⟨node, hnode, hreach⟩ := hfail hclean
            have hfrom : ReflTransGen t.Leads node a := by
              obtain rfl | hnode := List.mem_cons.mp hnode
              · exact .refl
              · exact (TransGen.mono (fun _ _ => Follows.leads) _ _ (hpath node hnode)).to_reflTransGen
            have hleads : t.Leads a inner := ⟨item, hmem, hclass⟩
            exact (hclean inner .refl).2 (TransGen.tail' (hreach.trans hfrom) hleads)
        have hfollows : t.Follows a inner := ⟨item, ⟨before, after, hitems, hpasses, hstuck⟩, hclass⟩
        have hmore : ∀ node ∈ a :: path, TransGen t.Follows node inner := by
          intro node hnode
          obtain rfl | hnode := List.mem_cons.mp hnode
          · exact .single hfollows
          · exact (hpath node hnode).tail hfollows
        obtain ⟨last, hlast, hend⟩ := ih (by omega) hmore hdescend
        exact ⟨last, hlast.head hfollows, hend⟩

/-- A descent fails with what its first troubles end in. -/
theorem descend_error_iff (hsources : ∀ node, ∀ item ∈ t.items node, node ∈ sources) (hfuel : sources.card < fuel) :
    t.descend cyclic spent build fuel [] a = .error error ↔ t.EndsIn cyclic a error := by
  have hunseen := unseen_lt [] hfuel
  constructor
  · exact endsIn_of_descend hsources hunseen (by simp)
  · intro hends
    cases hdescend : t.descend cyclic spent build fuel [] a with
    | ok value => exact absurd ((descend_ok_iff hsources hunseen).mp ⟨value, hdescend⟩).1 (not_clean_of_endsIn hends)
    | error other =>
      rw [endsIn_unique hends (endsIn_of_descend hsources hunseen (by simp) hdescend)]

end finite

end Traversal

end graph

import NodeBackend.Program.Ensures
import NodeBackend.Program.Pool

namespace program

/-- A call that was made, with what it replied. -/
structure Entry (Call : Type) (Reply : Call → Type) (Error : Type) where
  call : Call
  reply : Except Error (Reply call)

variable {Call : Type} {Reply : Call → Type} {Error A B S : Type}

/-- What a computation becomes by a list of replies to its calls. -/
inductive Leads : Program Call Reply Error A → List (Entry Call Reply Error) → Program Call Reply Error A → Prop
  | nil (p : Program Call Reply Error A) : Leads p [] p
  | cons {call : Call} {next : Except Error (Reply call) → Program Call Reply Error A}
    {reply : Except Error (Reply call)}
      {history : List (Entry Call Reply Error)} {q : Program Call Reply Error A} (h : Leads (next reply) history q) :
      Leads (.await call next) (⟨call, reply⟩ :: history) q

/-- Every call replies as it likes, where that is possible after what came before,
and the history of the calls is the state. -/
def record (possible : List (Entry Call Reply Error) → Entry Call Reply Error → Prop) :
    Step Call Reply Error (List (Entry Call Reply Error)) := fun call history reply history' =>
  possible history ⟨call, reply⟩ ∧ history' = history ++ [⟨call, reply⟩]

/-- Every entry of a list is related to the entries before it. -/
def Stepwise {Item : Type} (R : List Item → Item → Prop) (items : List Item) : Prop :=
  ∀ before item after, items = before ++ item :: after → R before item

theorem stepwise_snoc {Item : Type} {R : List Item → Item → Prop} {items : List Item} {item : Item} :
    Stepwise R (items ++ [item]) ↔ Stepwise R items ∧ R items item := by
  constructor
  · intro h
    refine ⟨fun before other after heq => h before other (after ++ [item]) (by simp [heq]), h items item [] rfl⟩
  · rintro ⟨hitems, hitem⟩ before other after heq
    obtain rfl | ⟨front, last, rfl⟩ := List.eq_nil_or_concat after
    · obtain ⟨rfl, hlast⟩ := List.append_inj' heq rfl
      cases hlast
      exact hitem
    · rw [List.concat_eq_append, ← List.cons_append, ← List.append_assoc] at heq
      exact hitems before other front (List.append_inj' heq rfl).1

theorem Stepwise.of_forall {Item : Type} {R : List Item → Item → Prop} {items : List Item}
    (h : ∀ item ∈ items, ∀ before, R before item) : Stepwise R items := by
  rintro before item after rfl
  exact h item (by simp) before

theorem Stepwise.left {Item : Type} {R : List Item → Item → Prop} {items more : List Item}
    (h : Stepwise R (items ++ more)) : Stepwise R items := by
  intro before item after heq
  exact h before item (after ++ more) (by simp [heq])

/-- What items yield one after another, each with the items before it in view. -/
def yieldsFrom {Item : Type} (f : List Item → Item → Option B) : List Item → List Item → List B
  | _, [] => []
  | before, item :: rest => (f before item).toList ++ yieldsFrom f (before ++ [item]) rest

def yields {Item : Type} (f : List Item → Item → Option B) (items : List Item) : List B :=
  yieldsFrom f [] items

theorem yieldsFrom_snoc {Item : Type} (f : List Item → Item → Option B) (before items : List Item) (item : Item) :
    yieldsFrom f before (items ++ [item]) =
      yieldsFrom f before items ++ (f (before ++ items) item).toList := by
  induction items generalizing before with
  | nil => simp [yieldsFrom]
  | cons first rest ih => simp [yieldsFrom, ih]

theorem yields_snoc {Item : Type} (f : List Item → Item → Option B) (items : List Item) (item : Item) :
    yields f (items ++ [item]) = yields f items ++ (f items item).toList :=
  yieldsFrom_snoc f [] items item

namespace Leads

variable {p q r : Program Call Reply Error A} {history later : List (Entry Call Reply Error)}

theorem append (h : Leads p history q) (hlater : Leads q later r) : Leads p (history ++ later) r := by
  induction h with
  | nil p => exact hlater
  | cons _ ih => exact .cons (ih hlater)

theorem snoc {call : Call} {next : Except Error (Reply call) → Program Call Reply Error A}
    (h : Leads p history (.await call next)) (reply : Except Error (Reply call)) :
    Leads p (history ++ [⟨call, reply⟩]) (next reply) :=
  h.append (.cons (.nil _))

/-- A computation that has ended is led no further. -/
theorem eq_of_ended (h : Leads p history q) (hended : p.Ended) : history = [] ∧ q = p := by
  cases h with
  | nil p => exact ⟨rfl, rfl⟩
  | cons h => exact hended.elim

/-- The replies decide how a computation ends. -/
theorem ended_unique {history' : List (Entry Call Reply Error)} (h : Leads p history q) (hq : q.Ended)
    (h' : Leads p history' r) (hr : r.Ended) (hinitial : ∃ whole, history <+: whole ∧ history' <+: whole) : q = r := by
  obtain ⟨whole, hfirst, hsecond⟩ := hinitial
  induction h generalizing history' whole with
  | nil p => exact (h'.eq_of_ended hq).2.symm
  | @cons call next reply history q h ih =>
    cases h' with
    | nil p => exact hr.elim
    | @cons _ _ reply' history' _ h' =>
      obtain ⟨rest, rfl⟩ := hfirst
      rw [List.cons_append] at hsecond
      obtain ⟨hentry, hrest⟩ := List.cons_prefix_cons.mp hsecond
      cases hentry
      exact ih hq h' _ (List.prefix_append _ _) hrest

end Leads

namespace Program

variable {possible : List (Entry Call Reply Error) → Entry Call Reply Error → Prop}

/-- A computation whose calls are of one kind adds only such calls to the history. -/
theorem ensures_leads {Kind : Call → Prop} {p : Program Call Reply Error A} (hp : p.Only Kind)
    (history : List (Entry Call Reply Error)) :
    p.Ensures (record possible) history
      (fun a history' => ∃ added, history' = history ++ added ∧ Leads p added (done a) ∧
        ∀ entry ∈ added, Kind entry.call)
      fun e history' => ∃ added, history' = history ++ added ∧ Leads p added (throw e) ∧
        ∀ entry ∈ added, Kind entry.call := by
  induction p generalizing history with
  | done a => exact ⟨[], by simp, .nil _, by simp⟩
  | throw e => exact ⟨[], by simp, .nil _, by simp⟩
  | await call next ih =>
    intro reply history' h
    obtain ⟨_, rfl⟩ := h
    refine (ih reply (hp.2 reply) (history ++ [⟨call, reply⟩])).mono ?_ ?_
    · rintro a _ ⟨added, rfl, hadded, hkind⟩
      refine ⟨⟨call, reply⟩ :: added, by simp, .cons hadded, ?_⟩
      rintro entry (_ | ⟨_, hentry⟩)
      · exact hp.1
      · exact hkind entry hentry
    · rintro e _ ⟨added, rfl, hadded, hkind⟩
      refine ⟨⟨call, reply⟩ :: added, by simp, .cons hadded, ?_⟩
      rintro entry (_ | ⟨_, hentry⟩)
      · exact hp.1
      · exact hkind entry hentry

/-- What is ensured of a computation is ensured of what it becomes. -/
theorem Ensures.leads {p q : Program Call Reply Error A} {before history : List (Entry Call Reply Error)}
    {returned : A → List (Entry Call Reply Error) → Prop} {thrown : Error → List (Entry Call Reply Error) → Prop}
    (h : p.Ensures (record possible) before returned thrown) (hleads : Leads p history q)
    (hpossible : Stepwise possible (before ++ history)) :
    q.Ensures (record possible) (before ++ history) returned thrown := by
  induction hleads generalizing before with
  | nil p => simpa using h
  | @cons call next reply history q _ ih =>
    have hentry : possible before ⟨call, reply⟩ := hpossible before _ history rfl
    rw [List.append_cons] at hpossible ⊢
    exact ih (h reply _ ⟨hentry, rfl⟩) hpossible

/-- A condition that holds at every end, and at no end without holding before,
holds all the way. -/
theorem Ensures.now {step : Step Call Reply Error S} {G : S → Prop} {p : Program Call Reply Error A} {s : S}
    (h : p.Ensures step s (fun _ => G) fun _ => G) (htotal : ∀ call s, ∃ reply s', step call s reply s')
    (hback : ∀ call s reply s', step call s reply s' → G s' → G s) : G s := by
  induction p generalizing s with
  | done a => exact h
  | throw e => exact h
  | await call next ih =>
    obtain ⟨reply, s', hstep⟩ := htotal call s
    exact hback call s reply s' hstep (ih reply (h reply s' hstep))

end Program

end program

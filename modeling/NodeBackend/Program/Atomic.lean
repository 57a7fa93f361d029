import NodeBackend.Program.Turns

namespace program

variable {Call : Type} {Reply : Call → Type} {Error A S : Type}

/-- A computation of one call, or of none. -/
def Program.Atomic : Program Call Reply Error A → Prop
  | .await _ next => ∀ reply, (next reply).Ended
  | _ => True

/-- The state that calls lead to, one after another. -/
def replayed (world : Nat → Exec Call Reply Error S) (s : S) (history : List (Nat × Call)) : Nat × S :=
  history.foldl (fun before entry => (numbered world entry.2 before).2) (0, s)

theorem replayed_snoc (world : Nat → Exec Call Reply Error S) (s : S) (history : List (Nat × Call))
    (entry : Nat × Call) : replayed world s (history ++ [entry]) =
      (numbered world entry.2 (replayed world s history)).2 := by
  rw [replayed, List.foldl_concat, ← replayed]

/-- As many calls were made as there are entries. -/
theorem replayed_fst (world : Nat → Exec Call Reply Error S) (s : S) (history : List (Nat × Call)) :
    (replayed world s history).1 = history.length := by
  induction history using List.reverseRecOn with
  | nil => rfl
  | append_singleton history entry ih =>
    rw [replayed_snoc, List.length_append, List.length_singleton, ← ih]
    rfl

/-- The call of a computation stands in a history, and the computation has become what the
reply to it made of it. -/
def MadeCall (world : Nat → Exec Call Reply Error S) (s : S) (history : List (Nat × Call)) (thread : Nat)
    (p q : Program Call Reply Error A) : Prop :=
  ∃ before call next after, history = before ++ (thread, call) :: after ∧ p = .await call next ∧
    q = next (numbered world call (replayed world s before)).1

theorem MadeCall.more {world : Nat → Exec Call Reply Error S} {s : S} {history : List (Nat × Call)} {thread : Nat}
    {p q : Program Call Reply Error A} (h : MadeCall world s history thread p q) (entry : Nat × Call) :
    MadeCall world s (history ++ [entry]) thread p q := by
  obtain ⟨before, call, next, after, rfl, hp, hq⟩ := h
  exact ⟨before, call, next, after ++ [entry], by simp, hp, hq⟩

theorem MadeCall.of_await {world : Nat → Exec Call Reply Error S} {s : S} {history : List (Nat × Call)} {thread : Nat}
    {call : Call} {next : Except Error (Reply call) → Program Call Reply Error A} {q : Program Call Reply Error A}
    (h : MadeCall world s history thread (.await call next) q) : ∃ before after,
      history = before ++ (thread, call) :: after ∧
        q = next (world before.length call (replayed world s before).2).1 := by
  obtain ⟨before, _, _, after, hhistory, hawait, hq⟩ := h
  cases hawait
  rw [numbered, replayed_fst] at hq
  exact ⟨before, after, hhistory, hq⟩

namespace Pool

/-- How far computations of one call each have come. -/
structure Replays (world : Nat → Exec Call Reply Error S) (threads : List (Program Call Reply Error A)) (s : S)
    (pool : Pool Call Reply Error A (Nat × S)) : Prop where
  state : pool.state = replayed world s pool.history
  length : pool.threads.length = threads.length
  made : ∀ i (p q : Program Call Reply Error A), threads[i]? = some p → pool.threads[i]? = some q →
    q = p ∨ MadeCall world s pool.history i p q
  own : ∀ entry ∈ pool.history, ∃ next, threads[entry.1]? = some (.await entry.2 next)

variable {world : Nat → Exec Call Reply Error S} {threads : List (Program Call Reply Error A)} {s : S}

theorem Replays.advance (hatomic : ∀ p ∈ threads, p.Atomic) {pool : Pool Call Reply Error A (Nat × S)}
    (h : Replays world threads s pool) {thread : Nat} {call : Call}
    {next : Except Error (Reply call) → Program Call Reply Error A}
    (hthread : pool.threads[thread]? = some (.await call next)) :
    Replays world threads s (pool.advance (numbered world) thread call next) := by
  -- A computation that still waits has not made its call.
  obtain ⟨p, hp⟩ : ∃ p, threads[thread]? = some p := by
    have hlt := (List.getElem?_eq_some_iff.mp hthread).1
    rw [h.length] at hlt
    exact ⟨_, List.getElem?_eq_getElem hlt⟩
  have hwaits : p = .await call next := by
    obtain hsame | ⟨before, call', next', after, _, rfl, hnext⟩ := h.made thread p _ hp hthread
    · exact hsame.symm
    · have hended := hatomic _ (List.mem_of_getElem? hp) (numbered world call' (replayed world s before)).1
      rw [← hnext] at hended
      exact hended.elim
  subst hwaits
  refine ⟨?_, ?_, fun i q r hq hr => ?_, fun entry hentry => ?_⟩
  · rw [Pool.advance, replayed_snoc, ← h.state]
  · rw [Pool.advance, List.length_set, h.length]
  · rw [getElem?_advance _ hthread] at hr
    by_cases hsame : i = thread
    · subst hsame
      rw [if_pos rfl] at hr
      cases hr
      cases hp.symm.trans hq
      exact Or.inr ⟨pool.history, call, next, [], rfl, rfl, by rw [h.state]⟩
    · rw [if_neg hsame] at hr
      exact (h.made i q r hq hr).imp_right fun hmade => hmade.more _
  · obtain hold | hnew := List.mem_append.mp hentry
    · exact h.own entry hold
    · cases List.mem_singleton.mp hnew
      exact ⟨next, hp⟩

/-- Computations of one call each behave as if each had run at once when its call was made,
in whatever order they take their turns. -/
theorem afterTurns_replays (hatomic : ∀ p ∈ threads, p.Atomic) (turns : List Nat) :
    Replays world threads s (afterTurns world threads s turns) := by
  refine afterTurns_invariant ⟨rfl, rfl, fun i p q hp hq => ?_, ?_⟩
    (fun pool thread call next h hthread => h.advance hatomic hthread) turns
  · exact Or.inl (Option.some.inj (hq.symm.trans hp))
  · intro entry hentry
    cases hentry

end Pool

end program

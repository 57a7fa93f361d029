import NodeBackend.Program.Simulation

namespace program

variable {Call : Type} {Reply : Call → Type} {Error A B S Event : Type}

namespace Program

/-- As long as every reply is a possible one, all calls are of one kind and a result
meets a condition. Whatever happens between the calls shows in the replies only. -/
def Confined (possible : (call : Call) → Except Error (Reply call) → Prop) (Kind : Call → Prop) (returned : A → Prop) :
    Program Call Reply Error A → Prop
  | done result => returned result
  | throw _ => True
  | await call next => Kind call ∧ ∀ reply, possible call reply → (next reply).Confined possible Kind returned

/-- No result without a call of the kind that took effect. -/
def Needs (Kind : Call → Prop) : Program Call Reply Error A → Prop
  | done _ => False
  | throw _ => True
  | await call next => (∀ error, (next (.error error)).Needs Kind) ∧
    (¬ Kind call → ∀ reply, (next (.ok reply)).Needs Kind)

variable {possible : (call : Call) → Except Error (Reply call) → Prop} {Kind Wider : Call → Prop} {returned : A → Prop}
  {p : Program Call Reply Error A}

theorem Confined.mono {returned' : A → Prop} (h : p.Confined possible Kind returned)
    (hkind : ∀ call, Kind call → Wider call) (hreturned : ∀ result, returned result → returned' result) :
    p.Confined possible Wider returned' := by
  induction p with
  | done result => exact hreturned result h
  | throw error => trivial
  | await call next ih => exact ⟨hkind call h.1, fun reply hreply => ih reply (h.2 reply hreply)⟩

theorem Confined.bind {p : Program Call Reply Error B} {f : B → Program Call Reply Error A} {R : B → Prop}
    (hp : p.Confined possible Kind R) (hf : ∀ b, R b → (f b).Confined possible Kind returned) :
    (p >>= f).Confined possible Kind returned := by
  induction p with
  | done result => exact hf result hp
  | throw error => trivial
  | await call next ih => exact ⟨hp.1, fun reply hreply => ih reply (hp.2 reply hreply)⟩

theorem Only.confined (h : p.Only Kind) : p.Confined possible Kind fun _ => True := by
  induction p with
  | done result => trivial
  | throw error => trivial
  | await call next ih => exact ⟨h.1, fun reply _ => ih reply (h.2 reply)⟩

theorem Ended.bind {p : Program Call Reply Error B} {f : B → Program Call Reply Error A} (hp : p.Ended)
    (hf : ∀ b, (f b).Ended) : (p >>= f).Ended := by
  cases p with
  | done result => exact hf result
  | throw error => trivial
  | await call next => exact hp.elim

theorem Ended.tryCatch {handler : Error → Program Call Reply Error A} (hp : p.Ended)
    (hhandler : ∀ error, (handler error).Ended) : (p.tryCatch handler).Ended := by
  cases p with
  | done result => trivial
  | throw error => exact hhandler error
  | await call next => exact hp.elim

theorem ended_ofExcept (outcome : Except Error A) : (ofExcept outcome : Program Call Reply Error A).Ended := by
  cases outcome <;> trivial

/-- One call whose outcome is ensured on every state that it may meet. -/
theorem Ensures.confined (step : Step Call Reply Error S) (Inv : S → Prop) {call : Call}
    {next : Except Error (Reply call) → Program Call Reply Error A} (hcall : Kind call)
    (hended : ∀ reply, (next reply).Ended)
    (hpossible : ∀ reply, possible call reply → ∃ s s', Inv s ∧ step call s reply s')
    (h : ∀ s, Inv s → (await call next).Ensures step s (fun result _ => returned result) fun _ _ => True) :
    (await call next).Confined possible Kind returned := by
  refine ⟨hcall, fun reply hreply => ?_⟩
  obtain ⟨s, s', hs, hstep⟩ := hpossible reply hreply
  have hend := h s hs reply s' hstep
  have hnext := hended reply
  cases hcase : next reply with
  | done result =>
    rw [hcase] at hend
    exact hend
  | throw error => trivial
  | await call' next' =>
    rw [hcase] at hnext
    exact hnext.elim

theorem Needs.bind {p : Program Call Reply Error B} {f : B → Program Call Reply Error A} (h : p.Needs Kind) :
    (p >>= f).Needs Kind := by
  induction p with
  | done result => exact h.elim
  | throw error => trivial
  | await call next ih => exact ⟨fun error => ih _ (h.1 error), fun hkind reply => ih _ (h.2 hkind reply)⟩

/-- It may be what follows that makes the call. -/
theorem needs_bind {p : Program Call Reply Error B} {f : B → Program Call Reply Error A} (h : ∀ b, (f b).Needs Kind) :
    (p >>= f).Needs Kind := by
  induction p with
  | done result => exact h result
  | throw error => trivial
  | await call next ih => exact ⟨fun error => ih _, fun _ reply => ih _⟩

/-- A handler that throws gives no result. -/
theorem Needs.rethrow (h : p.Needs Kind) (f : Error → Error) :
    (p.tryCatch fun error => throw (f error)).Needs Kind := by
  induction p with
  | done result => exact h.elim
  | throw error => trivial
  | await call next ih => exact ⟨fun error => ih _ (h.1 error), fun hkind reply => ih _ (h.2 hkind reply)⟩

theorem needs_perform {call : Call} (h : Kind call) :
    (perform call : Program Call Reply Error (Reply call)).Needs Kind :=
  ⟨fun _ => trivial, fun hnot => (hnot h).elim⟩

end Program

namespace Pool

/-- An invariant of the state, and every computation confined to calls of its own. -/
structure Orderly (possible : (call : Call) → Except Error (Reply call) → Prop) (Kind : Nat → Call → Prop)
    (Inv : S → Prop) (pool : Pool Call Reply Error A S) : Prop where
  state : Inv pool.state
  confined : ∀ thread (p : Program Call Reply Error A), pool.threads[thread]? = some p →
    p.Confined possible (Kind thread) fun _ => True

variable {possible : (call : Call) → Except Error (Reply call) → Prop} {Kind : Nat → Call → Prop} {Inv : S → Prop}
  {pool : Pool Call Reply Error A S}

theorem Orderly.kind (h : pool.Orderly possible Kind Inv) {thread : Nat} {call : Call}
    {next : Except Error (Reply call) → Program Call Reply Error A}
    (hthread : pool.threads[thread]? = some (.await call next)) : Kind thread call :=
  (h.confined thread _ hthread).1

/-- The calls keep the invariant and reply as is possible, so the computations stay
confined. -/
theorem Orderly.advance {exec : Exec Call Reply Error S} (h : pool.Orderly possible Kind Inv)
    (hexec : ∀ thread call s, Kind thread call → Inv s → possible call (exec call s).1 ∧ Inv (exec call s).2)
    {thread : Nat} {call : Call} {next : Except Error (Reply call) → Program Call Reply Error A}
    (hthread : pool.threads[thread]? = some (.await call next)) :
    (pool.advance exec thread call next).Orderly possible Kind Inv := by
  obtain ⟨hkind, hnext⟩ := h.confined thread _ hthread
  obtain ⟨hreply, hstate⟩ := hexec thread call pool.state hkind h.state
  refine ⟨hstate, fun other p hother => ?_⟩
  rw [getElem?_advance exec hthread] at hother
  split at hother
  · next hsame =>
    subst hsame
    cases hother
    exact hnext _ hreply
  · exact h.confined other p hother

/-- A computation that needs a call still needs it after a turn, unless the call was
made then and took effect. -/
theorem needs_advance {exec : Exec Call Reply Error S} {Kind : Call → Prop} {needy thread : Nat} {call : Call}
    {next : Except Error (Reply call) → Program Call Reply Error A}
    (h : ∀ p, pool.threads[needy]? = some p → p.Needs Kind)
    (hthread : pool.threads[thread]? = some (.await call next)) :
    (∀ p, (pool.advance exec thread call next).threads[needy]? = some p → p.Needs Kind) ∨
      thread = needy ∧ Kind call ∧ ∃ reply, (exec call pool.state).1 = .ok reply := by
  by_cases hsame : thread = needy
  · subst hsame
    obtain ⟨herror, hok⟩ := h _ hthread
    have hnext : ∀ p, (pool.advance exec thread call next).threads[thread]? = some p →
        p = next (exec call pool.state).1 := by
      intro p hp
      rw [getElem?_advance exec hthread, if_pos rfl] at hp
      exact (Option.some.inj hp).symm
    cases hreply : (exec call pool.state).1 with
    | error error =>
      apply Or.inl
      intro p hp
      rw [hnext p hp, hreply]
      exact herror error
    | ok reply =>
      by_cases hkind : Kind call
      · exact Or.inr ⟨rfl, hkind, reply, rfl⟩
      · apply Or.inl
        intro p hp
        rw [hnext p hp, hreply]
        exact hok hkind reply
  · refine Or.inl fun p hp => h p ?_
    rw [getElem?_advance exec hthread, if_neg (Ne.symm hsame)] at hp
    exact hp

end Pool

end program

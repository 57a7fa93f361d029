import NodeBackend.Program.Pool

namespace program

variable {Call : Type} {Reply : Call → Type} {Error A B S Event : Type}

namespace Program

/-- No result without a call that is replied to as is demanded. -/
def Demands (Granted : (call : Call) → Except Error (Reply call) → Prop) : Program Call Reply Error A → Prop
  | done _ => False
  | throw _ => True
  | await call next => ∀ reply, ¬ Granted call reply → (next reply).Demands Granted

variable {Granted : (call : Call) → Except Error (Reply call) → Prop}

theorem Demands.bind {p : Program Call Reply Error B} {f : B → Program Call Reply Error A} (h : p.Demands Granted) :
    (p >>= f).Demands Granted := by
  induction p with
  | done result => exact h.elim
  | throw error => trivial
  | await call next ih => exact fun reply hreply => ih reply (h reply hreply)

/-- It may be what follows that demands the call. -/
theorem demands_bind {p : Program Call Reply Error B} {f : B → Program Call Reply Error A}
    (h : ∀ b, (f b).Demands Granted) : (p >>= f).Demands Granted := by
  induction p with
  | done result => exact h result
  | throw error => trivial
  | await call next ih => exact fun reply _ => ih reply

end Program

namespace Pool

variable (Granted : (call : Call) → Except Error (Reply call) → Prop) (asking : Nat → Prop) (count : S → Nat)
  (start limit : Nat)

/-- Computations that were granted a call are counted, up to a limit, and those that were
not have none to return with. -/
def Admits (pool : Pool Call Reply Error A S) : Prop :=
  ∃ granted : List Nat, granted.length + start ≤ count pool.state ∧ granted.length ≤ limit - start ∧
    ∀ i (p : Program Call Reply Error A), asking i → pool.threads[i]? = some p → p.Demands Granted ∨ i ∈ granted

variable {Granted asking count start limit} {exec : Exec Call Reply Error S} {apply : Event → S → S}
  {pool : Pool Call Reply Error A S}

/-- No more have a result than were granted a call. -/
theorem Admits.length_le (h : pool.Admits Granted asking count start limit) {passed : List Nat} (hnodup : passed.Nodup)
    (hpassed : ∀ i ∈ passed, asking i ∧ ∃ result, pool.threads[i]? = some (.done result)) :
    passed.length ≤ limit - start := by
  obtain ⟨granted, _, hlimit, hasking⟩ := h
  have hsubset : passed ⊆ granted := by
    intro i hi
    obtain ⟨hask, result, hthread⟩ := hpassed i hi
    obtain hdemands | hgranted := hasking i _ hask hthread
    · exact hdemands.elim
    · exact hgranted
  exact (hnodup.subperm hsubset).length_le.trans hlimit

/-- What a call and its reply do to the count of those that were granted one. -/
theorem Admits.advance (h : pool.Admits Granted asking count start limit) {thread : Nat} {call : Call}
    {next : Except Error (Reply call) → Program Call Reply Error A}
    (hthread : pool.threads[thread]? = some (.await call next))
    (hkept : count pool.state ≤ count (exec call pool.state).2)
    (hgranted : Granted call (exec call pool.state).1 →
      count pool.state < count (exec call pool.state).2 ∧ count (exec call pool.state).2 ≤ limit) :
    (pool.advance exec thread call next).Admits Granted asking count start limit := by
  obtain ⟨granted, hcount, hlimit, hasking⟩ := h
  by_cases hreply : Granted call (exec call pool.state).1
  · obtain ⟨hmore, hbound⟩ := hgranted hreply
    refine ⟨thread :: granted, ?_, ?_, fun i p hask hp => ?_⟩
    · rw [List.length_cons]
      change granted.length + 1 + start ≤ count (exec call pool.state).2
      omega
    · rw [List.length_cons]
      omega
    · rw [getElem?_advance exec hthread] at hp
      split at hp
      · next hsame => exact Or.inr (by rw [hsame]; exact List.mem_cons_self)
      · exact (hasking i p hask hp).imp_right (List.mem_cons_of_mem _)
  · refine ⟨granted, hcount.trans hkept, hlimit, fun i p hask hp => ?_⟩
    rw [getElem?_advance exec hthread] at hp
    split at hp
    · next hsame =>
      subst hsame
      cases hp
      exact (hasking i _ hask hthread).imp_left fun hdemands => hdemands _ hreply
    · exact hasking i p hask hp

/-- As long as the count is not set back, no more computations come to a result that a
call must be granted for than the limit allows. -/
theorem run_admits (Current : S → Prop) (hkept : ∀ call s, Current (exec call s).2 → count s ≤ count (exec call s).2)
    (hgranted : ∀ call s, Current (exec call s).2 → Granted call (exec call s).1 →
      count s < count (exec call s).2 ∧ count (exec call s).2 ≤ limit)
    (hevent : ∀ e s, Current (apply e s) → count s ≤ count (apply e s))
    (hdemands : ∀ i (p : Program Call Reply Error A), asking i → pool.threads[i]? = some p → p.Demands Granted)
    (schedule : List (Move Event))
    (hcurrent : ∀ front, front <+: schedule → Current (pool.run exec apply front).state) :
    (pool.run exec apply schedule).Admits Granted asking count (count pool.state) limit := by
  refine run_invariant exec apply (C := fun pool => Current pool.state) schedule ?_ ?_ hcurrent
  · exact ⟨[], by simp, by simp, fun i p hask hp => Or.inl (hdemands i p hask hp)⟩
  · intro q move _ hq hcur
    obtain hsame | ⟨thread, call, next, _, hthread, heq⟩ | ⟨e, _, heq⟩ := q.step_cases exec apply move
    · rwa [hsame]
    · rw [heq] at hcur ⊢
      exact hq.advance hthread (hkept call _ hcur) (hgranted call _ hcur)
    · rw [heq] at hcur ⊢
      obtain ⟨granted, hcount, hlimit, hasking⟩ := hq
      exact ⟨granted, hcount.trans (hevent e _ hcur), hlimit, hasking⟩

end Pool

end program

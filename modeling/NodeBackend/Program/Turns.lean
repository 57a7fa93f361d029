import NodeBackend.Program.Pool

namespace program

variable {Call : Type} {Reply : Call → Type} {Error A S : Type}

/-- Calls that one executor after another serves, with how many there were. -/
def numbered (world : Nat → Exec Call Reply Error S) : Exec Call Reply Error (Nat × S) := fun call s =>
  ((world s.1 call s.2).1, s.1 + 1, (world s.1 call s.2).2)

namespace Pool

/-- The nth turn of all is the nth one of the world. -/
def turn (world : Nat → Exec Call Reply Error S) (pool : Pool Call Reply Error A (Nat × S)) (thread : Nat) :
    Pool Call Reply Error A (Nat × S) :=
  pool.step (numbered world) Empty.elim (.turn thread)

/-- Computations that were started together, after some turns. -/
def afterTurns (world : Nat → Exec Call Reply Error S) (threads : List (Program Call Reply Error A)) (s : S)
    (turns : List Nat) : Pool Call Reply Error A (Nat × S) :=
  turns.foldl (turn world) (start (0, s) threads)

theorem turn_cases (world : Nat → Exec Call Reply Error S) (pool : Pool Call Reply Error A (Nat × S)) (thread : Nat) :
    pool.turn world thread = pool ∨ ∃ call next, pool.threads[thread]? = some (.await call next) ∧
      pool.turn world thread = pool.advance (numbered world) thread call next := by
  obtain hsame | ⟨_, call, next, hmove, hthread, heq⟩ | ⟨e, _⟩ :=
    pool.step_cases (numbered world) Empty.elim (.turn thread)
  · exact Or.inl hsame
  · cases hmove
    exact Or.inr ⟨call, next, hthread, heq⟩
  · exact e.elim

/-- What holds at first and is kept by every call that is made holds after all turns. -/
theorem afterTurns_invariant {world : Nat → Exec Call Reply Error S}
    {threads : List (Program Call Reply Error A)} {s : S}
    {P : Pool Call Reply Error A (Nat × S) → Prop} (h : P (start (0, s) threads))
    (hadvance : ∀ pool thread call next, P pool → pool.threads[thread]? = some (.await call next) →
      P (pool.advance (numbered world) thread call next)) (turns : List Nat) :
    P (afterTurns world threads s turns) := by
  unfold afterTurns
  induction turns using List.reverseRecOn with
  | nil => exact h
  | append_singleton turns thread ih =>
    rw [List.foldl_concat]
    obtain hsame | ⟨call, next, hthread, heq⟩ :=
      turn_cases world (turns.foldl (turn world) (start (0, s) threads)) thread
    · rw [hsame]
      exact ih
    · rw [heq]
      exact hadvance _ thread call next ih hthread

end Pool

end program

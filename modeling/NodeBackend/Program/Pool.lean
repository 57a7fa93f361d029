import NodeBackend.Program.Run

namespace program

variable {Call : Type} {Reply : Call → Type} {Error A B S Event : Type}

namespace Program

/-- Every call that the computation may still make, whatever the replies, is of a
given kind. -/
def Only (Kind : Call → Prop) : Program Call Reply Error A → Prop
  | done _ => True
  | throw _ => True
  | await call next => Kind call ∧ ∀ reply, Only Kind (next reply)

theorem Only.bind {Kind : Call → Prop} {p : Program Call Reply Error A} {f : A → Program Call Reply Error B}
    (hp : p.Only Kind) (hf : ∀ result, (f result).Only Kind) : (p >>= f).Only Kind := by
  induction p with
  | done result => exact hf result
  | throw error => trivial
  | await call next ih => exact ⟨hp.1, fun reply => ih reply (hp.2 reply)⟩

theorem only_perform {Kind : Call → Prop} {call : Call} (h : Kind call) :
    (perform call : Program Call Reply Error (Reply call)).Only Kind := by
  refine ⟨h, fun reply => ?_⟩
  cases reply <;> trivial

/-- The computation has a result or an error. -/
def Ended : Program Call Reply Error A → Prop
  | await _ _ => False
  | _ => True

/-- The computation with its result dropped. -/
def void (p : Program Call Reply Error A) : Program Call Reply Error Unit :=
  p >>= fun _ => done ()

end Program

/-- Computations that take turns on one state. The history lists the calls made
so far, each with the number of the computation that made it. -/
structure Pool (Call : Type) (Reply : Call → Type) (Error A S : Type) where
  state : S
  threads : List (Program Call Reply Error A)
  history : List (Nat × Call)

/-- One move of a schedule: a turn of a computation, or an event around them. -/
inductive Move (Event : Type)
  | turn (thread : Nat)
  | event (e : Event)

/-- An entry of a history, and later than it another one. -/
def After {Entry : Type} (First Later : Entry → Prop) (history : List Entry) : Prop :=
  ∃ before entry after, history = before ++ entry :: after ∧ First entry ∧ ∃ later ∈ after, Later later

theorem after_snoc {Entry : Type} {First Later : Entry → Prop} {history : List Entry} {entry : Entry} :
    After First Later (history ++ [entry]) ↔
      After First Later history ∨ ((∃ first ∈ history, First first) ∧ Later entry) := by
  constructor
  · intro h
    obtain ⟨before, first, after, heq, hfirst, later, hmem, hlater⟩ := h
    obtain rfl | ⟨front, last, rfl⟩ := List.eq_nil_or_concat after
    · cases hmem
    · rw [List.concat_eq_append, ← List.cons_append, ← List.append_assoc] at heq
      obtain ⟨hfront, hlast⟩ := List.append_inj' heq rfl
      rw [List.concat_eq_append] at hmem
      obtain hold | hnew := List.mem_append.mp hmem
      · exact Or.inl ⟨before, first, front, hfront, hfirst, later, hold, hlater⟩
      · refine Or.inr ⟨⟨first, by rw [hfront]; simp, hfirst⟩, ?_⟩
        rw [(List.cons.inj hlast).1, ← List.mem_singleton.mp hnew]
        exact hlater
  · rintro (⟨before, first, after, rfl, hfirst, later, hmem, hlater⟩ | ⟨⟨first, hmem, hfirst⟩, hlater⟩)
    · exact ⟨before, first, after ++ [entry], by simp, hfirst, later, List.mem_append_left _ hmem, hlater⟩
    · obtain ⟨before, after, rfl⟩ := List.append_of_mem hmem
      exact ⟨before, first, after ++ [entry], by simp, hfirst, entry,
        List.mem_append_right _ (List.mem_singleton.mpr rfl), hlater⟩

theorem first_of_after {Entry : Type} {First Later : Entry → Prop} {history : List Entry}
    (h : After First Later history) : ∃ first ∈ history, First first := by
  obtain ⟨before, first, after, rfl, hfirst, _⟩ := h
  exact ⟨first, by simp, hfirst⟩

namespace Pool

/-- Computations that have not made a call yet. -/
def start (s : S) (threads : List (Program Call Reply Error A)) : Pool Call Reply Error A S :=
  ⟨s, threads, []⟩

/-- The pool after one computation made its next call. -/
def advance (exec : Exec Call Reply Error S) (pool : Pool Call Reply Error A S) (thread : Nat) (call : Call)
    (next : Except Error (Reply call) → Program Call Reply Error A) : Pool Call Reply Error A S where
  state := (exec call pool.state).2
  threads := pool.threads.set thread (next (exec call pool.state).1)
  history := pool.history ++ [(thread, call)]

variable (exec : Exec Call Reply Error S) (apply : Event → S → S)

/-- A turn makes the next call of its computation, and does nothing once that
has ended. -/
def step (pool : Pool Call Reply Error A S) : Move Event → Pool Call Reply Error A S
  | .turn thread =>
    match pool.threads[thread]? with
    | some (.await call next) => pool.advance exec thread call next
    | _ => pool
  | .event e => { pool with state := apply e pool.state }

def run (pool : Pool Call Reply Error A S) (schedule : List (Move Event)) : Pool Call Reply Error A S :=
  schedule.foldl (step exec apply) pool

/-- All computations have ended. -/
def Finished (pool : Pool Call Reply Error A S) : Prop :=
  ∀ p ∈ pool.threads, p.Ended

theorem step_cases (pool : Pool Call Reply Error A S) (move : Move Event) :
    pool.step exec apply move = pool ∨
    (∃ thread call next, move = .turn thread ∧ pool.threads[thread]? = some (.await call next) ∧
      pool.step exec apply move = pool.advance exec thread call next) ∨
    ∃ e, move = .event e ∧ pool.step exec apply move = { pool with state := apply e pool.state } := by
  cases move with
  | turn thread =>
    cases hthread : pool.threads[thread]? with
    | none => exact Or.inl (by rw [step, hthread])
    | some p =>
      cases p with
      | done result => exact Or.inl (by rw [step, hthread])
      | throw error => exact Or.inl (by rw [step, hthread])
      | await call next => exact Or.inr (Or.inl ⟨thread, call, next, rfl, hthread, by rw [step, hthread]⟩)
  | event e => exact Or.inr (Or.inr ⟨e, rfl, rfl⟩)

theorem run_snoc (pool : Pool Call Reply Error A S) (schedule : List (Move Event)) (move : Move Event) :
    pool.run exec apply (schedule ++ [move]) = (pool.run exec apply schedule).step exec apply move :=
  List.foldl_concat ..

/-- What holds at first and is kept by every move of a schedule holds after it, as
long as the schedule keeps to a condition at each of its moments. -/
theorem run_invariant {P C : Pool Call Reply Error A S → Prop} {pool : Pool Call Reply Error A S}
    (schedule : List (Move Event)) (h : P pool)
    (hstep : ∀ q, ∀ move ∈ schedule, P q → C (q.step exec apply move) → P (q.step exec apply move))
    (hcond : ∀ front, front <+: schedule → C (pool.run exec apply front)) :
    P (pool.run exec apply schedule) := by
  induction schedule using List.reverseRecOn with
  | nil => exact h
  | append_singleton schedule move ih =>
    have hwhole := hcond _ (List.prefix_refl _)
    have hbefore := ih (fun q other hother => hstep q other (List.mem_append_left _ hother))
      fun front hfront => hcond front (hfront.trans (List.prefix_append _ _))
    rw [run_snoc] at hwhole ⊢
    exact hstep _ move (List.mem_append_right _ (List.mem_singleton.mpr rfl)) hbefore hwhole

/-- The same without a condition. -/
theorem run_invariant_all {P : Pool Call Reply Error A S → Prop} {pool : Pool Call Reply Error A S}
    (schedule : List (Move Event)) (h : P pool)
    (hstep : ∀ q, ∀ move ∈ schedule, P q → P (q.step exec apply move)) : P (pool.run exec apply schedule) :=
  run_invariant exec apply (C := fun _ => True) schedule h (fun q move hmove hq _ => hstep q move hmove hq)
    fun _ _ => trivial

/-- Only the computation whose turn it was is changed by an advance. -/
theorem getElem?_advance {pool : Pool Call Reply Error A S} {thread : Nat} {call : Call}
    {next : Except Error (Reply call) → Program Call Reply Error A}
    (hthread : pool.threads[thread]? = some (.await call next)) (other : Nat) :
    (pool.advance exec thread call next).threads[other]? =
      if other = thread then some (next (exec call pool.state).1) else pool.threads[other]? := by
  have hlt : thread < pool.threads.length := (List.getElem?_eq_some_iff.mp hthread).1
  rw [advance]
  by_cases hother : other = thread
  · subst hother
    rw [if_pos rfl, List.getElem?_set_self hlt]
  · rw [if_neg hother, List.getElem?_set_ne (Ne.symm hother)]

/-- How a count of computations changes when one of them advances. -/
theorem countP_advance {pool : Pool Call Reply Error A S} {thread : Nat} {call : Call}
    {next : Except Error (Reply call) → Program Call Reply Error A}
    (hthread : pool.threads[thread]? = some (.await call next)) (p : Program Call Reply Error A → Bool) :
    (pool.advance exec thread call next).threads.countP p + (if p (.await call next) then 1 else 0) =
      pool.threads.countP p + (if p (next (exec call pool.state).1) then 1 else 0) := by
  obtain ⟨hlt, hget⟩ := List.getElem?_eq_some_iff.mp hthread
  have hpos : (if p (.await call next) then 1 else 0) ≤ pool.threads.countP p := by
    by_cases hp : p (.await call next) = true
    · rw [if_pos hp]
      exact List.countP_pos_iff.mpr ⟨_, List.mem_of_getElem? hthread, hp⟩
    · rw [if_neg hp]
      omega
  rw [advance, List.countP_set hlt, hget]
  omega

end Pool

end program

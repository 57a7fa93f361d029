import NodeBackend.Program.Pool

namespace program.Pool

variable {Call : Type} {Reply : Call → Type} {Error A S : Type} (pool : Pool Call Reply Error A S)

/-- A computation of the pool ended with a result. -/
def returned (thread : Nat) : Bool :=
  match pool.threads[thread]? with
  | some (.done _) => true
  | _ => false

/-- The error that a computation of the pool ended with. -/
def thrown? (thread : Nat) : Option Error :=
  match pool.threads[thread]? with
  | some (.throw error) => some error
  | _ => none

/-- Some computations in the order of their last calls, those without a call first. -/
def lastCalls (threads : List Nat) : List Nat :=
  threads.filter (· ∉ pool.history.map Prod.fst) ++ (pool.history.map Prod.fst).dedup.filter (· ∈ threads)

/-- Promise.all of computations that were started: it throws the first error that one
of them throws, and returns once all of them have. -/
def gather (threads : List Nat) : Option (Except Error Unit) :=
  match (pool.lastCalls threads).findSome? pool.thrown? with
  | some error => some (.error error)
  | none => if threads.all pool.returned then some (.ok ()) else none

variable {pool} {threads : List Nat}

theorem mem_lastCalls {thread : Nat} : thread ∈ pool.lastCalls threads ↔ thread ∈ threads := by
  unfold lastCalls
  simp only [List.mem_append, List.mem_filter, List.mem_dedup, decide_eq_true_eq]
  tauto

theorem thrown_eq_none_of_returned {thread : Nat} (h : pool.returned thread = true) : pool.thrown? thread = none := by
  unfold returned at h
  unfold thrown?
  cases hthread : pool.threads[thread]? with
  | none => rfl
  | some p =>
    rw [hthread] at h
    cases p with
    | done result => rfl
    | throw error => cases h
    | await call next => cases h

theorem gather_eq_ok_iff : pool.gather threads = some (.ok ()) ↔ ∀ thread ∈ threads, pool.returned thread = true := by
  constructor
  · intro h
    unfold gather at h
    split at h
    · cases h
    · split at h
      · next hall => exact List.all_eq_true.mp hall
      · cases h
  · intro h
    have hnone : (pool.lastCalls threads).findSome? pool.thrown? = none :=
      List.findSome?_eq_none_iff.mpr fun thread hthread =>
        thrown_eq_none_of_returned (h thread (mem_lastCalls.mp hthread))
    unfold gather
    rw [hnone]
    exact if_pos (List.all_eq_true.mpr h)

theorem thrown_of_gather {error : Error} (h : pool.gather threads = some (.error error)) :
    ∃ thread ∈ threads, pool.thrown? thread = some error := by
  unfold gather at h
  split at h
  · next found hfound =>
    cases h
    obtain ⟨thread, hthread, hthrown⟩ := List.exists_of_findSome?_eq_some hfound
    exact ⟨thread, mem_lastCalls.mp hthread, hthrown⟩
  · split at h <;> cases h

end program.Pool

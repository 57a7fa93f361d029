import Mathlib.Tactic

namespace program

/-- A computation that awaits calls one after another. A call that fails replies
with its error, and a computation that ends has a result or an error of its own. -/
inductive Program (Call : Type) (Reply : Call → Type) (Error A : Type)
  | done (result : A)
  | throw (error : Error)
  | await (call : Call) (next : Except Error (Reply call) → Program Call Reply Error A)

variable {Call : Type} {Reply : Call → Type} {Error A B S : Type}

/-- The parts of a computation that gives a result. -/
theorem bind_eq_ok {x : Except Error A} {f : A → Except Error B} {b : B} (h : x >>= f = .ok b) :
    ∃ a, x = .ok a ∧ f a = .ok b := by
  cases x with
  | error error => cases h
  | ok a => exact ⟨a, rfl, h⟩

namespace Program

def bind : Program Call Reply Error A → (A → Program Call Reply Error B) → Program Call Reply Error B
  | done result, f => f result
  | throw error, _ => throw error
  | await call next, f => await call fun reply => (next reply).bind f

def tryCatch : Program Call Reply Error A → (Error → Program Call Reply Error A) → Program Call Reply Error A
  | done result, _ => done result
  | throw error, handler => handler error
  | await call next, handler => await call fun reply => (next reply).tryCatch handler

instance : Monad (Program Call Reply Error) where
  pure := done
  bind := bind

/-- Continue with an outcome: a result ends the computation, an error is thrown. -/
def ofExcept : Except Error A → Program Call Reply Error A
  | .ok result => done result
  | .error error => throw error

/-- Await one call and take over its outcome. -/
def perform (call : Call) : Program Call Reply Error (Reply call) :=
  await call ofExcept

@[simp] theorem pure_eq (result : A) : (pure result : Program Call Reply Error A) = done result := rfl

@[simp] theorem done_bind (result : A) (f : A → Program Call Reply Error B) : done result >>= f = f result := rfl

@[simp] theorem throw_bind (error : Error) (f : A → Program Call Reply Error B) :
    (throw error : Program Call Reply Error A) >>= f = throw error := rfl

@[simp] theorem await_bind (call : Call) (next : Except Error (Reply call) → Program Call Reply Error A)
    (f : A → Program Call Reply Error B) :
    await call next >>= f = await call fun reply => next reply >>= f := rfl

@[simp] theorem map_eq (f : A → B) (p : Program Call Reply Error A) : f <$> p = p >>= fun a => done (f a) := rfl

@[simp] theorem ofExcept_ok (result : A) : (ofExcept (.ok result) : Program Call Reply Error A) = done result := rfl

@[simp] theorem ofExcept_error (error : Error) :
    (ofExcept (.error error) : Program Call Reply Error A) = throw error := rfl

/-- Awaiting a call hands its outcome to what follows. -/
theorem perform_bind (call : Call) (f : Reply call → Program Call Reply Error B) :
    perform call >>= f = await call fun reply => ofExcept reply >>= f := rfl

end Program

/-- What a call does to the state it runs on. -/
abbrev Exec (Call : Type) (Reply : Call → Type) (Error S : Type) : Type :=
  (call : Call) → S → Except Error (Reply call) × S

namespace Program

/-- Run a computation to its end, with no other one in between. -/
def run (exec : Exec Call Reply Error S) : Program Call Reply Error A → S → Except Error A × S
  | done result, s => (.ok result, s)
  | throw error, s => (.error error, s)
  | await call next, s => run exec (next (exec call s).1) (exec call s).2

variable (exec : Exec Call Reply Error S)

@[simp] theorem run_done (result : A) (s : S) : run exec (done result) s = (.ok result, s) := rfl

@[simp] theorem run_throw (error : Error) (s : S) :
    run exec (throw error : Program Call Reply Error A) s = (.error error, s) := rfl

@[simp] theorem run_await (call : Call) (next : Except Error (Reply call) → Program Call Reply Error A) (s : S) :
    run exec (await call next) s = run exec (next (exec call s).1) (exec call s).2 := rfl

theorem run_bind (p : Program Call Reply Error A) (f : A → Program Call Reply Error B) (s : S) :
    run exec (p >>= f) s =
      match run exec p s with
      | (.ok result, s') => run exec (f result) s'
      | (.error error, s') => (.error error, s') := by
  induction p generalizing s with
  | done result => rfl
  | throw error => rfl
  | await call next ih => exact ih _ _

theorem run_tryCatch (p : Program Call Reply Error A) (handler : Error → Program Call Reply Error A) (s : S) :
    run exec (p.tryCatch handler) s =
      match run exec p s with
      | (.ok result, s') => (.ok result, s')
      | (.error error, s') => run exec (handler error) s' := by
  induction p generalizing s with
  | done result => rfl
  | throw error => rfl
  | await call next ih => exact ih _ _

/-- A handler does not run where there is a result. -/
theorem run_tryCatch_of_ok {p : Program Call Reply Error A} {handler : Error → Program Call Reply Error A} {s s' : S}
    {result : A} (h : run exec p s = (.ok result, s')) : run exec (p.tryCatch handler) s = (.ok result, s') := by
  rw [run_tryCatch, h]

theorem run_perform (call : Call) (s : S) : run exec (perform call) s = exec call s := by
  rw [perform, run_await]
  cases hreply : (exec call s).1 <;> simp [ofExcept, ← hreply]

/-- A bind whose first part gives a result goes on with it. -/
theorem run_bind_of_ok {p : Program Call Reply Error A} {f : A → Program Call Reply Error B} {s s' : S} {result : A}
    (h : run exec p s = (.ok result, s')) : run exec (p >>= f) s = run exec (f result) s' := by
  rw [run_bind, h]

theorem run_bind_of_error {p : Program Call Reply Error A} {f : A → Program Call Reply Error B} {s s' : S}
    {error : Error} (h : run exec p s = (.error error, s')) : run exec (p >>= f) s = (.error error, s') := by
  rw [run_bind, h]

end Program

end program

import NodeBackend.Program.Run

namespace program

variable {Call : Type} {Reply : Call → Type} {Error A B S : Type}

/-- What a call may reply and leave behind, where more than one outcome is open. -/
abbrev Step (Call : Type) (Reply : Call → Type) (Error S : Type) : Type :=
  (call : Call) → S → Except Error (Reply call) → S → Prop

namespace Program

/-- Every way the calls may go ends with a result that meets the first condition
or with an error that meets the second one. -/
def Ensures (step : Step Call Reply Error S) : Program Call Reply Error A → S → (A → S → Prop) →
    (Error → S → Prop) → Prop
  | done result, s, returned, _ => returned result s
  | throw error, s, _, thrown => thrown error s
  | await call next, s, returned, thrown =>
    ∀ reply s', step call s reply s' → (next reply).Ensures step s' returned thrown

/-- Run a computation whose calls are carried out by one executor after another. -/
def runFrom (world : Nat → Exec Call Reply Error S) : Nat → Program Call Reply Error A → S → Except Error A × S
  | _, done result, s => (.ok result, s)
  | _, throw error, s => (.error error, s)
  | n, await call next, s => runFrom world (n + 1) (next (world n call s).1) (world n call s).2

/-- What a computation ends with, an error being one more result. -/
def attempt (p : Program Call Reply Error A) : Program Call Reply Error (Except Error A) :=
  (Except.ok <$> p).tryCatch fun error => done (.error error)

/-- Both results, once both computations have ended. Where both fail, the error of
the first one counts. -/
def all (p : Program Call Reply Error A) (q : Program Call Reply Error B) : Program Call Reply Error (A × B) := do
  let first ← p.attempt
  let second ← q.attempt
  let a ← ofExcept first
  let b ← ofExcept second
  return (a, b)

variable {step : Step Call Reply Error S} {returned : A → S → Prop} {thrown : Error → S → Prop}

@[simp] theorem ensures_done {result : A} {s : S} :
    (done result : Program Call Reply Error A).Ensures step s returned thrown ↔ returned result s := Iff.rfl

@[simp] theorem ensures_throw {error : Error} {s : S} :
    (throw error : Program Call Reply Error A).Ensures step s returned thrown ↔ thrown error s := Iff.rfl

theorem ensures_ofExcept {outcome : Except Error A} {s : S} (hok : ∀ a, outcome = .ok a → returned a s)
    (herror : ∀ e, outcome = .error e → thrown e s) :
    (ofExcept outcome : Program Call Reply Error A).Ensures step s returned thrown := by
  cases outcome with
  | ok a => exact hok a rfl
  | error e => exact herror e rfl

theorem Ensures.mono {p : Program Call Reply Error A} {s : S} {returned' : A → S → Prop} {thrown' : Error → S → Prop}
    (h : p.Ensures step s returned thrown) (hreturned : ∀ a s', returned a s' → returned' a s')
    (hthrown : ∀ e s', thrown e s' → thrown' e s') : p.Ensures step s returned' thrown' := by
  induction p generalizing s with
  | done result => exact hreturned result s h
  | throw error => exact hthrown error s h
  | await call next ih => exact fun reply s' hstep => ih reply (h reply s' hstep)

/-- Nothing is asked of what always holds. -/
theorem Ensures.of_forall {p : Program Call Reply Error A} {s : S} (hreturned : ∀ a s', returned a s')
    (hthrown : ∀ e s', thrown e s') : p.Ensures step s returned thrown := by
  induction p generalizing s with
  | done result => exact hreturned result s
  | throw error => exact hthrown error s
  | await call next ih => exact fun reply s' _ => ih reply

/-- What is ensured twice is ensured together. -/
theorem Ensures.and {p : Program Call Reply Error A} {s : S} {returned' : A → S → Prop} {thrown' : Error → S → Prop}
    (h : p.Ensures step s returned thrown) (h' : p.Ensures step s returned' thrown') :
    p.Ensures step s (fun a s' => returned a s' ∧ returned' a s') fun e s' => thrown e s' ∧ thrown' e s' := by
  induction p generalizing s with
  | done result => exact ⟨h, h'⟩
  | throw error => exact ⟨h, h'⟩
  | await call next ih => exact fun reply s' hstep => ih reply (h reply s' hstep) (h' reply s' hstep)

/-- The first part is taken with what the second part needs. -/
theorem Ensures.bind {p : Program Call Reply Error B} {f : B → Program Call Reply Error A} {s : S}
    {R : B → S → Prop} (hp : p.Ensures step s R thrown) (hf : ∀ b s', R b s' → (f b).Ensures step s' returned thrown) :
    (p >>= f).Ensures step s returned thrown := by
  induction p generalizing s with
  | done result => exact hf result s hp
  | throw error => exact hp
  | await call next ih => exact fun reply s' hstep => ih reply (hp reply s' hstep)

theorem Ensures.tryCatch {p : Program Call Reply Error A} {handler : Error → Program Call Reply Error A} {s : S}
    {R : Error → S → Prop} (hp : p.Ensures step s returned R)
    (hhandler : ∀ e s', R e s' → (handler e).Ensures step s' returned thrown) :
    (p.tryCatch handler).Ensures step s returned thrown := by
  induction p generalizing s with
  | done result => exact hp
  | throw error => exact hhandler error s hp
  | await call next ih => exact fun reply s' hstep => ih reply (hp reply s' hstep)

/-- A catch that throws another error keeps what holds of every error. -/
theorem Ensures.rethrow {p : Program Call Reply Error A} {f : Error → Error} {s : S} {left : S → Prop}
    (h : p.Ensures step s returned fun _ s' => left s') :
    (p.tryCatch fun error => throw (f error)).Ensures step s returned fun _ s' => left s' :=
  Ensures.tryCatch h fun _ _ hleft => hleft

theorem ensures_perform {call : Call} {s : S} {returned : Reply call → S → Prop}
    (hok : ∀ reply s', step call s (.ok reply) s' → returned reply s')
    (herror : ∀ e s', step call s (.error e) s' → thrown e s') :
    (perform call).Ensures step s returned thrown := by
  intro reply s' hstep
  cases reply with
  | ok value => exact hok value s' hstep
  | error e => exact herror e s' hstep

/-- One condition on results and another one on errors. -/
def Outcome (returned : A → Prop) (thrown : Prop) : Except Error A → Prop
  | .ok a => returned a
  | .error _ => thrown

theorem Ensures.attempt_unchanged {p : Program Call Reply Error A} {s : S} {returned : A → Prop} {thrown : Prop}
    (h : p.Ensures step s (fun a s' => s' = s ∧ returned a) fun _ s' => s' = s ∧ thrown) {never : Error → S → Prop} :
    p.attempt.Ensures step s (fun ended s' => s' = s ∧ Outcome returned thrown ended) never := by
  refine Ensures.tryCatch (R := fun _ s' => s' = s ∧ thrown) ?_ (fun _ _ h => h)
  rw [map_eq]
  exact h.bind fun _ _ h => h

/-- Two computations that leave the state as it is. -/
theorem Ensures.all {p : Program Call Reply Error A} {q : Program Call Reply Error B} {s : S} {thrown : Prop}
    {returnedA : A → Prop} {returnedB : B → Prop}
    (hp : p.Ensures step s (fun a s' => s' = s ∧ returnedA a) fun _ s' => s' = s ∧ thrown)
    (hq : q.Ensures step s (fun b s' => s' = s ∧ returnedB b) fun _ s' => s' = s ∧ thrown) :
    (Program.all p q).Ensures step s (fun ab s' => s' = s ∧ returnedA ab.1 ∧ returnedB ab.2)
      fun _ s' => s' = s ∧ thrown := by
  apply hp.attempt_unchanged.bind
  intro first s' hfirst
  obtain ⟨rfl, hfirst⟩ := hfirst
  apply hq.attempt_unchanged.bind
  intro second s' hsecond
  obtain ⟨rfl, hsecond⟩ := hsecond
  cases first with
  | error e => exact ⟨rfl, hfirst⟩
  | ok a =>
    cases second with
    | error e => exact ⟨rfl, hsecond⟩
    | ok b => exact ⟨rfl, hfirst, hsecond⟩

/-- A run ends as every way its calls may go ends. -/
theorem Ensures.runFrom {world : Nat → Exec Call Reply Error S}
    (hworld : ∀ n call s, step call s (world n call s).1 (world n call s).2) {p : Program Call Reply Error A} {s : S}
    (h : p.Ensures step s returned thrown) (n : Nat) :
    (∃ a, (runFrom world n p s).1 = .ok a ∧ returned a (runFrom world n p s).2) ∨
      ∃ e, (runFrom world n p s).1 = .error e ∧ thrown e (runFrom world n p s).2 := by
  induction p generalizing s n with
  | done result => exact Or.inl ⟨result, rfl, h⟩
  | throw error => exact Or.inr ⟨error, rfl, h⟩
  | await call next ih => exact ih _ (h _ _ (hworld n call s)) (n + 1)

/-- A function of the result takes no part in the run. -/
theorem runFrom_bind_done (world : Nat → Exec Call Reply Error S) (f : A → B) (p : Program Call Reply Error A) (n : Nat)
    (s : S) : runFrom world n (p >>= fun a => done (f a)) s =
      ((runFrom world n p s).1.map f, (runFrom world n p s).2) := by
  induction p generalizing n s with
  | done result => rfl
  | throw error => rfl
  | await call next ih => exact ih _ (n + 1) _

end Program

/-- Calls that all took effect, one after another. -/
inductive Performed (step : Step Call Reply Error S) : List Call → S → S → Prop
  | nil (s : S) : Performed step [] s s
  | cons {call : Call} {calls : List Call} {s s' s'' : S} (reply : Reply call) (hstep : step call s (.ok reply) s')
      (hrest : Performed step calls s' s'') : Performed step (call :: calls) s s''

theorem Performed.one {step : Step Call Reply Error S} {call : Call} {s s' : S} {reply : Reply call}
    (hstep : step call s (.ok reply) s') : Performed step [call] s s' :=
  .cons reply hstep (.nil s')

theorem Performed.append {step : Step Call Reply Error S} {first second : List Call} {s s' s'' : S}
    (hfirst : Performed step first s s') (hsecond : Performed step second s' s'') :
    Performed step (first ++ second) s s'' := by
  induction hfirst with
  | nil => exact hsecond
  | cons reply hstep _ ih => exact .cons reply hstep (ih hsecond)

/-- The first of the calls took effect before the others. -/
theorem Performed.split {step : Step Call Reply Error S} {first second : List Call} {s s'' : S}
    (h : Performed step (first ++ second) s s'') : ∃ s', Performed step first s s' ∧ Performed step second s' s'' := by
  induction first generalizing s with
  | nil => exact ⟨s, .nil s, h⟩
  | cons call first ih =>
    cases h with
    | cons reply hstep hrest =>
      obtain ⟨s', hfirst, hsecond⟩ := ih hrest
      exact ⟨s', .cons reply hstep hfirst, hsecond⟩

end program

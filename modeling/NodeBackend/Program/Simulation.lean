import NodeBackend.Program.Ensures
import NodeBackend.Program.Pool

namespace program.Program

variable {Call : Type} {Reply : Call → Type} {Error A B S S' : Type} {Kind : Call → Prop}

theorem only_ofExcept (outcome : Except Error A) :
    (ofExcept outcome : Program Call Reply Error A).Only Kind := by
  cases outcome <;> trivial

theorem Only.tryCatch {p : Program Call Reply Error A} {handler : Error → Program Call Reply Error A}
    (hp : p.Only Kind) (hhandler : ∀ error, (handler error).Only Kind) : (p.tryCatch handler).Only Kind := by
  induction p with
  | done result => trivial
  | throw error => exact hhandler error
  | await call next ih => exact ⟨hp.1, fun reply => ih reply (hp.2 reply)⟩

theorem Only.attempt {p : Program Call Reply Error A} (hp : p.Only Kind) : p.attempt.Only Kind := by
  refine Only.tryCatch ?_ fun _ => trivial
  rw [map_eq]
  exact hp.bind fun _ => trivial

theorem Only.all {p : Program Call Reply Error A} {q : Program Call Reply Error B} (hp : p.Only Kind)
    (hq : q.Only Kind) : (Program.all p q).Only Kind :=
  hp.attempt.bind fun first => hq.attempt.bind fun second =>
    (only_ofExcept first).bind fun _ => (only_ofExcept second).bind fun _ => trivial

/-- Two runs on related states end alike, where the calls reply alike and keep the
states related. -/
theorem Only.runFrom_related {world : Nat → Exec Call Reply Error S} {world' : Nat → Exec Call Reply Error S'}
    {R : S → S' → Prop}
    (hcall : ∀ n call s s', Kind call → R s s' →
      (world n call s).1 = (world' n call s').1 ∧ R (world n call s).2 (world' n call s').2)
    {p : Program Call Reply Error A} (hp : p.Only Kind) (n : Nat) {s : S} {s' : S'} (h : R s s') :
    (runFrom world n p s).1 = (runFrom world' n p s').1 ∧ R (runFrom world n p s).2 (runFrom world' n p s').2 := by
  induction p generalizing n s s' with
  | done result => exact ⟨rfl, h⟩
  | throw error => exact ⟨rfl, h⟩
  | await call next ih =>
    obtain ⟨hreply, hstate⟩ := hcall n call s s' hp.1 h
    unfold runFrom
    rw [hreply]
    exact ih _ (hp.2 _) (n + 1) hstate

section embed

variable {Call' : Type} {Reply' : Call' → Type}

/-- A computation whose calls are some of those of a larger system. -/
def embed (inject : Call → Call') : Program Call (fun call => Reply' (inject call)) Error A →
    Program Call' Reply' Error A
  | done result => done result
  | throw error => throw error
  | await call next => await (inject call) fun reply => (next reply).embed inject

/-- It ends as every way its calls may go ends in the larger system. -/
theorem Ensures.embed {inject : Call → Call'} {step : Step Call' Reply' Error S}
    {p : Program Call (fun call => Reply' (inject call)) Error A} {s : S} {returned : A → S → Prop}
    {thrown : Error → S → Prop} (h : p.Ensures (fun call => step (inject call)) s returned thrown) :
    (p.embed inject).Ensures step s returned thrown := by
  induction p generalizing s with
  | done result => exact h
  | throw error => exact h
  | await call next ih => exact fun reply s' hstep => ih reply (h reply s' hstep)

end embed

end program.Program

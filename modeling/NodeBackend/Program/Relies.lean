import NodeBackend.Program.Confined
import NodeBackend.Program.Turns

namespace program

variable {Call : Type} {Reply : Call → Type} {Error A B S G : Type}

/-- What computations agree on that take turns on one state. Each of them knows something,
which its own calls tell it: it may rely on what others do to the state, and makes only
the calls that it is allowed. -/
structure Rules (Call : Type) (Reply : Call → Type) (Error S G : Type) where
  step : Step Call Reply Error S
  rely : G → S → S → Prop
  allowed : G → Call → Prop
  note : (call : Call) → Except Error (Reply call) → G → G
  refl : ∀ known s, rely known s s
  trans : ∀ {known s s' s''}, rely known s s' → rely known s' s'' → rely known s s''

variable {rules : Rules Call Reply Error S G} {known : G} {s s' : S}

namespace Program

/-- Every way the calls may go, and whatever others do in between, ends with a result that
meets the first condition or with an error that meets the second one. -/
def Relies (rules : Rules Call Reply Error S G) : Program Call Reply Error A → G → S → (A → G → S → Prop) →
    (Error → G → S → Prop) → Prop
  | done result, known, s, returned, _ => returned result known s
  | throw error, known, s, _, thrown => thrown error known s
  | await call next, known, s, returned, thrown =>
    rules.allowed known call ∧ ∀ s₁ reply s', rules.rely known s s₁ → rules.step call s₁ reply s' →
      (next reply).Relies rules (rules.note call reply known) s' returned thrown

variable {p : Program Call Reply Error A} {returned : A → G → S → Prop} {thrown : Error → G → S → Prop}

theorem relies_ofExcept {outcome : Except Error A} (hok : ∀ a, outcome = .ok a → returned a known s)
    (herror : ∀ e, outcome = .error e → thrown e known s) :
    (ofExcept outcome : Program Call Reply Error A).Relies rules known s returned thrown := by
  cases outcome with
  | ok a => exact hok a rfl
  | error e => exact herror e rfl

theorem Relies.mono {returned' : A → G → S → Prop} {thrown' : Error → G → S → Prop}
    (h : p.Relies rules known s returned thrown) (hreturned : ∀ a known s, returned a known s → returned' a known s)
    (hthrown : ∀ e known s, thrown e known s → thrown' e known s) : p.Relies rules known s returned' thrown' := by
  induction p generalizing known s with
  | done result => exact hreturned result known s h
  | throw error => exact hthrown error known s h
  | await call next ih =>
    refine ⟨h.1, fun s₁ reply s' hrely hstep => ?_⟩
    exact ih reply (h.2 s₁ reply s' hrely hstep)

theorem Relies.bind {p : Program Call Reply Error B} {f : B → Program Call Reply Error A} {R : B → G → S → Prop}
    (hp : p.Relies rules known s R thrown)
    (hf : ∀ b known s, R b known s → (f b).Relies rules known s returned thrown) :
    (p >>= f).Relies rules known s returned thrown := by
  induction p generalizing known s with
  | done result => exact hf result known s hp
  | throw error => exact hp
  | await call next ih =>
    refine ⟨hp.1, fun s₁ reply s' hrely hstep => ?_⟩
    exact ih reply (hp.2 s₁ reply s' hrely hstep)

theorem Relies.tryCatch {handler : Error → Program Call Reply Error A} {R : Error → G → S → Prop}
    (hp : p.Relies rules known s returned R)
    (hhandler : ∀ e known s, R e known s → (handler e).Relies rules known s returned thrown) :
    (p.tryCatch handler).Relies rules known s returned thrown := by
  induction p generalizing known s with
  | done result => exact hp
  | throw error => exact hhandler error known s hp
  | await call next ih =>
    refine ⟨hp.1, fun s₁ reply s' hrely hstep => ?_⟩
    exact ih reply (hp.2 s₁ reply s' hrely hstep)

/-- A catch that throws another error keeps what holds of every error. -/
theorem Relies.rethrow {f : Error → Error} {left : G → S → Prop}
    (h : p.Relies rules known s returned fun _ known s => left known s) :
    (p.tryCatch fun error => throw (f error)).Relies rules known s returned fun _ known s => left known s :=
  Relies.tryCatch h fun _ _ _ hleft => hleft

/-- What others do, as far as it is relied on, does no harm. -/
theorem Relies.moved (h : p.Relies rules known s returned thrown) (hrely : rules.rely known s s')
    (hreturned : ∀ a, returned a known s → returned a known s')
    (hthrown : ∀ e, thrown e known s → thrown e known s') : p.Relies rules known s' returned thrown := by
  cases p with
  | done result => exact hreturned result h
  | throw error => exact hthrown error h
  | await call next =>
    refine ⟨h.1, fun s₁ reply s'' hrely' hstep => ?_⟩
    exact h.2 s₁ reply s'' (rules.trans hrely hrely') hstep

/-- What neither others nor allowed calls undo goes on to hold. -/
theorem Relies.frame {F : S → Prop} (hrely : ∀ known s s', rules.rely known s s' → F s → F s')
    (hstep : ∀ known call s reply s', rules.allowed known call → rules.step call s reply s' → F s → F s')
    (h : p.Relies rules known s returned thrown) (hframe : F s) :
    p.Relies rules known s (fun a known s => returned a known s ∧ F s) fun e known s => thrown e known s ∧ F s := by
  induction p generalizing known s with
  | done result => exact ⟨h, hframe⟩
  | throw error => exact ⟨h, hframe⟩
  | await call next ih =>
    refine ⟨h.1, fun s₁ reply s' hmoved hcalled => ih reply (h.2 s₁ reply s' hmoved hcalled) ?_⟩
    exact hstep known call s₁ reply s' h.1 hcalled (hrely known s s₁ hmoved hframe)

/-- A computation of one call that tells nothing new does what it does alone, on any state
that others may have left. -/
theorem Ensures.relies {call : Call} {next : Except Error (Reply call) → Program Call Reply Error A}
    {result : A → S → Prop} {error : Error → S → Prop} (hallowed : rules.allowed known call)
    (hended : ∀ reply, (next reply).Ended) (hnote : ∀ reply, rules.note call reply known = known)
    (h : ∀ s₁, rules.rely known s s₁ → (await call next).Ensures rules.step s₁ result error) :
    (await call next).Relies rules known s (fun a other s' => other = known ∧ result a s')
      fun e other s' => other = known ∧ error e s' := by
  refine ⟨hallowed, fun s₁ reply s' hrely hstep => ?_⟩
  have hend := h s₁ hrely reply s' hstep
  have hnext := hended reply
  rw [hnote]
  cases hcase : next reply with
  | done result =>
    rw [hcase] at hend
    exact ⟨rfl, hend⟩
  | throw error =>
    rw [hcase] at hend
    exact ⟨rfl, hend⟩
  | await call' next' =>
    rw [hcase] at hnext
    exact hnext.elim

theorem Relies.attempt {thrown' : Error → G → S → Prop} (h : p.Relies rules known s returned thrown) :
    p.attempt.Relies rules known s
      (fun outcome known s => (∀ a, outcome = .ok a → returned a known s) ∧ ∀ e, outcome = .error e → thrown e known s)
      thrown' := by
  unfold Program.attempt
  rw [map_eq]
  refine Relies.tryCatch (R := thrown) (h.bind fun a known s hreturned => ?_) fun e known s hthrown => ?_
  · constructor
    · rintro _ ⟨⟩
      exact hreturned
    · rintro _ ⟨⟩
  · constructor
    · rintro _ ⟨⟩
    · rintro _ ⟨⟩
      exact hthrown

/-- Two computations that never throw. -/
theorem Relies.all {q : Program Call Reply Error B} {P : A → Prop} {Q : B → Prop} {I T : G → S → Prop}
    (hp : p.Relies rules known s (fun a known s => P a ∧ I known s) fun _ _ _ => False)
    (hq : ∀ known s, I known s → q.Relies rules known s (fun b known s => Q b ∧ T known s) fun _ _ _ => False) :
    (Program.all p q).Relies rules known s (fun both known s => P both.1 ∧ Q both.2 ∧ T known s) thrown := by
  unfold Program.all
  refine hp.attempt.bind fun first known s hfirst => ?_
  cases first with
  | error e => exact (hfirst.2 e rfl).elim
  | ok a =>
    obtain ⟨ha, hbefore⟩ := hfirst.1 a rfl
    refine (hq known s hbefore).attempt.bind fun second known s hsecond => ?_
    cases second with
    | error e => exact (hsecond.2 e rfl).elim
    | ok b =>
      obtain ⟨hb, hafter⟩ := hsecond.1 b rfl
      exact ⟨ha, hb, hafter⟩

end Program

namespace Pool

variable {returned : Nat → A → G → S → Prop} {thrown : Nat → Error → G → S → Prop} {Inv : (Nat → G) → S → Prop}

/-- Every computation still ends as it has to, and an invariant ties what they know. -/
structure Keeps (rules : Rules Call Reply Error S G) (Inv : (Nat → G) → S → Prop)
    (returned : Nat → A → G → S → Prop) (thrown : Nat → Error → G → S → Prop) (known : Nat → G)
    (pool : Pool Call Reply Error A (Nat × S)) : Prop where
  state : Inv known pool.state.2
  threads : ∀ i (p : Program Call Reply Error A), pool.threads[i]? = some p →
    p.Relies rules (known i) pool.state.2 (returned i) (thrown i)

/-- What the results promise is not undone by others. -/
def Stable (rules : Rules Call Reply Error S G) (promised : A → G → S → Prop) : Prop :=
  ∀ a known s s', rules.rely known s s' → promised a known s → promised a known s'

/-- An allowed call keeps the invariant, and does no more than all others rely on. -/
def Fair (rules : Rules Call Reply Error S G) (count : Nat) (Inv : (Nat → G) → S → Prop) : Prop :=
  ∀ known s i call reply s', i < count → Inv known s → rules.allowed (known i) call → rules.step call s reply s' →
    Inv (Function.update known i (rules.note call reply (known i))) s' ∧ ∀ j, j ≠ i → rules.rely (known j) s s'

theorem Keeps.advance {world : Nat → Exec Call Reply Error S} {known : Nat → G}
    {pool : Pool Call Reply Error A (Nat × S)} {thread : Nat} {call : Call}
    {next : Except Error (Reply call) → Program Call Reply Error A} (h : Keeps rules Inv returned thrown known pool)
    (hworld : ∀ n call s, rules.step call s (world n call s).1 (world n call s).2)
    (hfair : Fair rules pool.threads.length Inv) (hreturned : ∀ i, Stable rules (returned i))
    (hthrown : ∀ i, Stable rules (thrown i)) (hthread : pool.threads[thread]? = some (.await call next)) :
    ∃ known', Keeps rules Inv returned thrown known' (pool.advance (numbered world) thread call next) := by
  obtain ⟨hallowed, hnext⟩ := h.threads thread _ hthread
  have hstep := hworld pool.state.1 call pool.state.2
  obtain ⟨hinv, hrely⟩ := hfair known _ thread call _ _ (List.getElem?_eq_some_iff.mp hthread).1 h.state hallowed hstep
  refine ⟨_, hinv, fun i p hp => ?_⟩
  rw [getElem?_advance _ hthread] at hp
  by_cases hsame : i = thread
  · subst hsame
    rw [if_pos rfl] at hp
    obtain rfl := Option.some.inj hp
    rw [Function.update_self]
    exact hnext _ _ _ (rules.refl _ _) hstep
  · rw [if_neg hsame] at hp
    rw [Function.update_of_ne hsame]
    exact (h.threads i p hp).moved (hrely i hsame) (fun a => hreturned i a _ _ _ (hrely i hsame))
      fun e => hthrown i e _ _ _ (hrely i hsame)

/-- Computations that each keep to the rules end as they have to, in whatever order they
take their turns. -/
theorem afterTurns_keeps {world : Nat → Exec Call Reply Error S} {threads : List (Program Call Reply Error A)}
    {known : Nat → G} (hworld : ∀ n call s, rules.step call s (world n call s).1 (world n call s).2)
    (hfair : Fair rules threads.length Inv) (hreturned : ∀ i, Stable rules (returned i))
    (hthrown : ∀ i, Stable rules (thrown i)) (hinv : Inv known s)
    (hthreads : ∀ i (p : Program Call Reply Error A), threads[i]? = some p →
      p.Relies rules (known i) s (returned i) (thrown i)) (turns : List Nat) :
    ∃ known, Keeps rules Inv returned thrown known (afterTurns world threads s turns) ∧
      (afterTurns world threads s turns).threads.length = threads.length := by
  refine afterTurns_invariant (P := fun pool => ∃ known, Keeps rules Inv returned thrown known pool ∧
    pool.threads.length = threads.length) ⟨known, ⟨hinv, hthreads⟩, rfl⟩ ?_ turns
  rintro pool thread call next ⟨known, hkeeps, hlength⟩ hthread
  obtain ⟨known', hkeeps'⟩ := hkeeps.advance hworld (hlength ▸ hfair) hreturned hthrown hthread
  refine ⟨known', hkeeps', ?_⟩
  rw [← hlength, advance, List.length_set]

end Pool

end program

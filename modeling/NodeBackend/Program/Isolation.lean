import NodeBackend.Program.Simulation

namespace program

variable {Call : Type} {Reply : Call → Type} {Error A S View Event : Type}

/-- Some calls see and change no more than a view of the state shows, and others leave
what it shows. -/
structure Sees (exec : Exec Call Reply Error S) (Own Foreign : Call → Prop) (view : S → View) : Prop where
  reply : ∀ call s s', Own call → view s = view s' → (exec call s).1 = (exec call s').1
  state : ∀ call s s', Own call → view s = view s' → view (exec call s).2 = view (exec call s').2
  frame : ∀ call s, Foreign call → view (exec call s).2 = view s

namespace Pool

/-- Two pools that some computations cannot tell apart. They are the same in both, and the
computations around them, which may differ, keep to foreign calls. -/
structure Alike (Own Foreign : Call → Prop) (view : S → View) (mine : Nat → Bool)
    (pool pool' : Pool Call Reply Error A S) : Prop where
  view : view pool.state = view pool'.state
  same : ∀ i, mine i = true → pool.threads[i]? = pool'.threads[i]?
  own : ∀ i (p : Program Call Reply Error A), mine i = true → pool.threads[i]? = some p → p.Only Own
  foreign : ∀ i (p : Program Call Reply Error A), mine i = false → pool.threads[i]? = some p → p.Only Foreign
  foreign' : ∀ i (p : Program Call Reply Error A), mine i = false → pool'.threads[i]? = some p → p.Only Foreign

variable {Own Foreign : Call → Prop} {view : S → View} {mine : Nat → Bool} {exec : Exec Call Reply Error S}
  {apply : Event → S → S} {pool pool' : Pool Call Reply Error A S}

theorem Alike.symm (h : Alike Own Foreign view mine pool pool') : Alike Own Foreign view mine pool' pool where
  view := h.view.symm
  same := fun i hi => (h.same i hi).symm
  own := fun i p hi hp => h.own i p hi ((h.same i hi).trans hp)
  foreign := h.foreign'
  foreign' := h.foreign

/-- A turn of a computation around them shows to none of them. -/
theorem Alike.advance_foreign (hsees : Sees exec Own Foreign view) (h : Alike Own Foreign view mine pool pool')
    {thread : Nat} {call : Call} {next : Except Error (Reply call) → Program Call Reply Error A}
    (hmine : mine thread = false) (hthread : pool.threads[thread]? = some (.await call next)) :
    Alike Own Foreign view mine (pool.advance exec thread call next) pool' := by
  obtain ⟨hcall, hnext⟩ := h.foreign thread _ hmine hthread
  have hother : ∀ i, mine i = true → (pool.advance exec thread call next).threads[i]? = pool.threads[i]? := by
    intro i hi
    have hne : i ≠ thread := by
      rintro rfl
      rw [hi] at hmine
      cases hmine
    rw [getElem?_advance exec hthread, if_neg hne]
  refine ⟨?_, ?_, ?_, ?_, h.foreign'⟩
  · exact (hsees.frame call pool.state hcall).trans h.view
  · intro i hi
    rw [hother i hi, h.same i hi]
  · intro i p hi hp
    rw [hother i hi] at hp
    exact h.own i p hi hp
  · intro i p hi hp
    rw [getElem?_advance exec hthread] at hp
    split at hp
    · cases hp
      exact hnext _
    · exact h.foreign i p hi hp

/-- A turn of one of them is the same turn in both pools. -/
theorem Alike.advance_own (hsees : Sees exec Own Foreign view) (h : Alike Own Foreign view mine pool pool')
    {thread : Nat} {call : Call} {next : Except Error (Reply call) → Program Call Reply Error A}
    (hmine : mine thread = true) (hthread : pool.threads[thread]? = some (.await call next)) :
    Alike Own Foreign view mine (pool.advance exec thread call next) (pool'.advance exec thread call next) := by
  obtain ⟨hcall, hnext⟩ := h.own thread _ hmine hthread
  have hthread' : pool'.threads[thread]? = some (.await call next) := (h.same thread hmine).symm.trans hthread
  have hforeign : ∀ i, mine i = false → i ≠ thread := by
    rintro i hi rfl
    rw [hi] at hmine
    cases hmine
  refine ⟨hsees.state call _ _ hcall h.view, ?_, ?_, ?_, ?_⟩
  · intro i hi
    rw [getElem?_advance exec hthread, getElem?_advance exec hthread', h.same i hi,
      hsees.reply call _ _ hcall h.view]
  · intro i p hi hp
    rw [getElem?_advance exec hthread] at hp
    split at hp
    · cases hp
      exact hnext _
    · exact h.own i p hi hp
  · intro i p hi hp
    rw [getElem?_advance exec hthread, if_neg (hforeign i hi)] at hp
    exact h.foreign i p hi hp
  · intro i p hi hp
    rw [getElem?_advance exec hthread', if_neg (hforeign i hi)] at hp
    exact h.foreign' i p hi hp

theorem Alike.step (hsees : Sees exec Own Foreign view)
    (hevent : ∀ e s s', view s = view s' → view (apply e s) = view (apply e s'))
    (h : Alike Own Foreign view mine pool pool') (move : Move Event) :
    Alike Own Foreign view mine (pool.step exec apply move) (pool'.step exec apply move) := by
  cases move with
  | event e => exact ⟨hevent e _ _ h.view, h.same, h.own, h.foreign, h.foreign'⟩
  | turn thread =>
    cases hmine : mine thread with
    | true =>
      have hsame := h.same thread hmine
      cases hthread : pool.threads[thread]? with
      | none => rwa [Pool.step, Pool.step, hthread, ← hsame, hthread]
      | some p =>
        cases p with
        | done result => rwa [Pool.step, Pool.step, hthread, ← hsame, hthread]
        | throw error => rwa [Pool.step, Pool.step, hthread, ← hsame, hthread]
        | await call next =>
          rw [Pool.step, Pool.step, hthread, ← hsame, hthread]
          exact h.advance_own hsees hmine hthread
    | false =>
      -- The turn of each pool is hidden from the other one.
      have hleft : Alike Own Foreign view mine (pool.step exec apply (.turn thread)) pool' := by
        obtain hsame | ⟨_, call, next, hmove, hthread, heq⟩ | ⟨e, hmove, _⟩ := pool.step_cases exec apply (.turn thread)
        · rwa [hsame]
        · cases hmove
          rw [heq]
          exact h.advance_foreign hsees hmine hthread
        · cases hmove
      obtain hsame | ⟨_, call, next, hmove, hthread, heq⟩ | ⟨e, hmove, _⟩ := pool'.step_cases exec apply (.turn thread)
      · rwa [hsame]
      · cases hmove
        rw [heq]
        exact (hleft.symm.advance_foreign hsees hmine hthread).symm
      · cases hmove

/-- Computations that cannot tell two pools apart never will. -/
theorem Alike.run (hsees : Sees exec Own Foreign view)
    (hevent : ∀ e s s', view s = view s' → view (apply e s) = view (apply e s'))
    (h : Alike Own Foreign view mine pool pool') (schedule : List (Move Event)) :
    Alike Own Foreign view mine (pool.run exec apply schedule) (pool'.run exec apply schedule) := by
  induction schedule using List.reverseRecOn with
  | nil => exact h
  | append_singleton schedule move ih =>
    rw [run_snoc, run_snoc]
    exact ih.step hsees hevent move

end Pool

end program

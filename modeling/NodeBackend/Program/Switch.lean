import NodeBackend.Program.History

namespace program

variable {Call : Type} {Reply : Call → Type} {Error A S Event : Type}

/-- Computations that a source starts one after another, each taking the place of the one
before it: what the latest comes to is emitted, and the others go on unheard. -/
structure Switched (Call : Type) (Reply : Call → Type) (Error A S : Type) where
  state : S
  inners : List (Program Call Reply Error A)
  emitted : List (Nat × A)
  subscribed : Bool
  failure : Option Error

/-- The source starts another computation, one of them makes its next call, the subscriber
leaves, or something happens around them. -/
inductive Signal (Event : Type)
  | next
  | turn (inner : Nat)
  | unsubscribe
  | event (e : Event)

namespace Switched

def start (s : S) : Switched Call Reply Error A S :=
  ⟨s, [], [], true, none⟩

/-- What is heard of a computation that has come to an end. -/
def settle (switched : Switched Call Reply Error A S) (inner : Nat) : Switched Call Reply Error A S :=
  if switched.subscribed = true ∧ inner + 1 = switched.inners.length then
    match switched.inners[inner]? with
    | some (.done a) => { switched with emitted := switched.emitted ++ [(inner, a)] }
    | some (.throw error) => { switched with subscribed := false, failure := some error }
    | _ => switched
  else switched

variable (exec : Exec Call Reply Error S) (apply : Event → S → S) (project : Nat → Program Call Reply Error A)
  (limit : Nat)

def step (switched : Switched Call Reply Error A S) : Signal Event → Switched Call Reply Error A S
  | .next =>
    if switched.subscribed = true ∧ switched.inners.length < limit then
      settle { switched with inners := switched.inners ++ [project switched.inners.length] } switched.inners.length
    else switched
  | .turn inner =>
    match switched.inners[inner]? with
    | some (.await call next) =>
      settle
        { switched with
          state := (exec call switched.state).2
          inners := switched.inners.set inner (next (exec call switched.state).1) } inner
    | _ => switched
  | .unsubscribe => { switched with subscribed := false }
  | .event e => { switched with state := apply e switched.state }

def run (switched : Switched Call Reply Error A S) (signals : List (Signal Event)) : Switched Call Reply Error A S :=
  signals.foldl (step exec apply project limit) switched

/-- Replies lead one of the computations to a point, all of them observed. -/
def Led (observed : Nat → Entry Call Reply Error → Prop) (i : Nat) (p : Program Call Reply Error A) : Prop :=
  ∃ history, Leads (project i) history p ∧ ∀ entry ∈ history, observed i entry

/-- What is emitted comes of the computations in their order, no more than once of each,
and of the latest as soon as it has a result. -/
structure Sound (observed : Nat → Entry Call Reply Error → Prop) (switched : Switched Call Reply Error A S) :
    Prop where
  ordered : (switched.emitted.map Prod.fst).Pairwise (· < ·)
  shown : ∀ entry ∈ switched.emitted, switched.inners[entry.1]? = some (.done entry.2)
  led : ∀ (i : Nat) (p : Program Call Reply Error A), switched.inners[i]? = some p → Led project observed i p
  latest : switched.subscribed = true → ∀ (i : Nat) (a : A), i + 1 = switched.inners.length →
    switched.inners[i]? = some (.done a) → (i, a) ∈ switched.emitted
  failed : ∀ error, switched.failure = some error → ∃ i, Led project observed i (.throw error)
  bounded : switched.inners.length ≤ limit

variable {exec apply project limit} {observed : Nat → Entry Call Reply Error → Prop}
  {switched : Switched Call Reply Error A S}

theorem sound_start (s : S) : (start s : Switched Call Reply Error A S).Sound project limit observed where
  ordered := List.Pairwise.nil
  shown := by
    intro entry hentry
    cases hentry
  led := by
    intro i p hp
    cases hp
  latest := by
    intro _ i a hlength
    cases hlength
  failed := by
    intro error herror
    cases herror
  bounded := Nat.zero_le limit

/-- What is heard of a computation that nothing was heard of before. -/
theorem Sound.settle {inner : Nat} (hordered : (switched.emitted.map Prod.fst).Pairwise (· < ·))
    (hshown : ∀ entry ∈ switched.emitted, switched.inners[entry.1]? = some (.done entry.2) ∧ entry.1 ≠ inner)
    (hled : ∀ (i : Nat) (p : Program Call Reply Error A), switched.inners[i]? = some p → Led project observed i p)
    (hlatest : switched.subscribed = true → ∀ (i : Nat) (a : A), i + 1 = switched.inners.length →
      switched.inners[i]? = some (.done a) → i ≠ inner → (i, a) ∈ switched.emitted)
    (hfailed : ∀ error, switched.failure = some error → ∃ i, Led project observed i (.throw error))
    (hbounded : switched.inners.length ≤ limit) : (switched.settle inner).Sound project limit observed := by
  have hsound : (switched.subscribed = true → inner + 1 = switched.inners.length →
      ∀ a, switched.inners[inner]? ≠ some (.done a)) → switched.Sound project limit observed := by
    intro hunheard
    refine ⟨hordered, fun entry hentry => (hshown entry hentry).1, hled, fun hsubscribed i a hi ha => ?_, hfailed,
      hbounded⟩
    refine hlatest hsubscribed i a hi ha ?_
    rintro rfl
    exact hunheard hsubscribed hi a ha
  unfold Switched.settle
  by_cases hheard : switched.subscribed = true ∧ inner + 1 = switched.inners.length
  · rw [if_pos hheard]
    split
    · next a ha =>
      refine ⟨?_, ?_, hled, ?_, hfailed, hbounded⟩
      · rw [List.map_append, List.pairwise_append]
        refine ⟨hordered, List.pairwise_singleton _ _, ?_⟩
        rintro i hi j hj
        obtain ⟨entry, hentry, rfl⟩ := List.mem_map.mp hi
        obtain rfl := List.mem_singleton.mp hj
        obtain ⟨hdone, hne⟩ := hshown entry hentry
        have hlt := (List.getElem?_eq_some_iff.mp hdone).1
        omega
      · intro entry hentry
        obtain hold | hnew := List.mem_append.mp hentry
        · exact (hshown entry hold).1
        · rw [List.mem_singleton.mp hnew]
          exact ha
      · intro hsubscribed i b hi hb
        dsimp only at hi hb ⊢
        obtain rfl : i = inner := by omega
        rw [ha] at hb
        cases hb
        exact List.mem_append_right _ (List.mem_singleton.mpr rfl)
    · next error herror =>
      refine ⟨hordered, fun entry hentry => (hshown entry hentry).1, hled, ?_, ?_, hbounded⟩
      · intro hsubscribed
        cases hsubscribed
      · intro thrown hthrown
        cases hthrown
        exact ⟨inner, hled inner _ herror⟩
    · next hnot _ =>
      refine hsound fun _ _ a ha => hnot a ha
  · rw [if_neg hheard]
    exact hsound fun hsubscribed hlast => (hheard ⟨hsubscribed, hlast⟩).elim

/-- The next computation takes the place of the latest one. -/
theorem Sound.next (h : switched.Sound project limit observed) :
    (step exec apply project limit switched .next).Sound project limit observed := by
  rw [step]
  by_cases hroom : switched.subscribed = true ∧ switched.inners.length < limit
  · rw [if_pos hroom]
    apply Sound.settle
    · exact h.ordered
    · intro entry hentry
      have hdone := h.shown entry hentry
      have hlt := (List.getElem?_eq_some_iff.mp hdone).1
      exact ⟨(List.getElem?_append_left hlt).trans hdone, Nat.ne_of_lt hlt⟩
    · intro i p hp
      by_cases hold : i < switched.inners.length
      · exact h.led i p ((List.getElem?_append_left hold).symm.trans hp)
      · rw [List.getElem?_append_right (not_lt.mp hold)] at hp
        obtain ⟨hlt, rfl⟩ := List.getElem?_eq_some_iff.mp hp
        obtain rfl : i = switched.inners.length := by
          rw [List.length_singleton] at hlt
          omega
        refine ⟨[], by simpa using Leads.nil _, ?_⟩
        intro entry hentry
        cases hentry
    · intro _ i a hi _ hne
      rw [List.length_append] at hi
      exact (hne (Nat.succ.inj hi)).elim
    · exact h.failed
    · rw [List.length_append]
      exact hroom.2
  · rw [if_neg hroom]
    exact h

/-- A computation that goes on has not been heard of. -/
theorem Sound.turn (h : switched.Sound project limit observed) {inner : Nat}
    (hobserved : inner < switched.inners.length → ∀ call, observed inner ⟨call, (exec call switched.state).1⟩) :
    (step exec apply project limit switched (.turn inner)).Sound project limit observed := by
  rw [step]
  split
  · next call next hawait =>
    have hlt := (List.getElem?_eq_some_iff.mp hawait).1
    apply Sound.settle
    · exact h.ordered
    · intro entry hentry
      have hdone := h.shown entry hentry
      have hne : entry.1 ≠ inner := by
        rintro rfl
        rw [hawait] at hdone
        cases hdone
      exact ⟨(List.getElem?_set_ne hne.symm).trans hdone, hne⟩
    · intro i p hp
      by_cases hi : inner = i
      · subst hi
        obtain ⟨history, hleads, hhistory⟩ := h.led inner _ hawait
        rw [List.getElem?_set_self hlt] at hp
        cases hp
        refine ⟨_, hleads.snoc _, ?_⟩
        intro entry hentry
        obtain hold | hnew := List.mem_append.mp hentry
        · exact hhistory entry hold
        · rw [List.mem_singleton.mp hnew]
          exact hobserved hlt call
      · exact h.led i p ((List.getElem?_set_ne hi).symm.trans hp)
    · intro hsubscribed i a hi ha hne
      rw [List.length_set] at hi
      exact h.latest hsubscribed i a hi ((List.getElem?_set_ne hne.symm).symm.trans ha)
    · exact h.failed
    · rw [List.length_set]
      exact h.bounded
  · exact h

theorem Sound.step (h : switched.Sound project limit observed)
    (hobserved : ∀ inner < switched.inners.length, ∀ call, observed inner ⟨call, (exec call switched.state).1⟩)
    (signal : Signal Event) : (step exec apply project limit switched signal).Sound project limit observed := by
  cases signal with
  | next => exact h.next
  | turn inner => exact h.turn (hobserved inner)
  | unsubscribe =>
    refine ⟨h.ordered, h.shown, h.led, ?_, h.failed, h.bounded⟩
    intro hsubscribed
    cases hsubscribed
  | event e => exact ⟨h.ordered, h.shown, h.led, h.latest, h.failed, h.bounded⟩

theorem Sound.mono {observed' : Nat → Entry Call Reply Error → Prop} (h : switched.Sound project limit observed)
    (hobserved : ∀ i entry, observed i entry → observed' i entry) : switched.Sound project limit observed' := by
  have hled : ∀ (i : Nat) (p : Program Call Reply Error A), Led project observed i p → Led project observed' i p := by
    intro i p hp
    obtain ⟨history, hleads, hhistory⟩ := hp
    exact ⟨history, hleads, fun entry hentry => hobserved i entry (hhistory entry hentry)⟩
  refine ⟨h.ordered, h.shown, fun i p hp => hled i p (h.led i p hp), h.latest, ?_, h.bounded⟩
  intro error herror
  obtain ⟨i, hi⟩ := h.failed error herror
  exact ⟨i, hled i _ hi⟩

variable (exec apply project limit)

/-- A call was answered at a moment of the run when the computation had been started. -/
def Observed (switched : Switched Call Reply Error A S) (signals : List (Signal Event)) (i : Nat)
    (entry : Entry Call Reply Error) : Prop :=
  ∃ before, before <+: signals ∧ i < (run exec apply project limit switched before).inners.length ∧
    entry.reply = (exec entry.call (run exec apply project limit switched before).state).1

theorem sound_run (s : S) (signals : List (Signal Event)) :
    (run exec apply project limit (start s) signals).Sound project limit
      (Observed exec apply project limit (start s) signals) := by
  induction signals using List.reverseRecOn with
  | nil => exact sound_start s
  | append_singleton signals signal ih =>
    have hprefix : signals <+: signals ++ [signal] := List.prefix_append _ _
    rw [run, List.foldl_concat]
    apply Sound.step
    · refine ih.mono ?_
      intro i entry hentry
      obtain ⟨before, hbefore, hstarted, hreply⟩ := hentry
      exact ⟨before, hbefore.trans hprefix, hstarted, hreply⟩
    · intro inner hinner call
      exact ⟨signals, hprefix, hinner, rfl⟩

theorem run_append (switched : Switched Call Reply Error A S) (signals more : List (Signal Event)) :
    run exec apply project limit switched (signals ++ more) =
      run exec apply project limit (run exec apply project limit switched signals) more :=
  List.foldl_append

/-- What was emitted stays so. -/
theorem emitted_step (switched : Switched Call Reply Error A S) (signal : Signal Event) :
    switched.emitted <+: (step exec apply project limit switched signal).emitted := by
  have hsettle : ∀ (switched : Switched Call Reply Error A S) inner,
      switched.emitted <+: (switched.settle inner).emitted := by
    intro switched inner
    unfold settle
    split
    · split
      · exact List.prefix_append _ _
      · exact List.prefix_rfl
      · exact List.prefix_rfl
    · exact List.prefix_rfl
  cases signal with
  | next =>
    rw [step]
    split
    · exact hsettle { switched with inners := switched.inners ++ [project switched.inners.length] } _
    · exact List.prefix_rfl
  | turn inner =>
    rw [step]
    split
    · next call next _ =>
      exact hsettle
        { switched with
          state := (exec call switched.state).2
          inners := switched.inners.set inner (next (exec call switched.state).1) } inner
    · exact List.prefix_rfl
  | unsubscribe => exact List.prefix_rfl
  | event e => exact List.prefix_rfl

theorem emitted_run (switched : Switched Call Reply Error A S) (signals : List (Signal Event)) :
    switched.emitted <+: (run exec apply project limit switched signals).emitted := by
  induction signals generalizing switched with
  | nil => exact List.prefix_rfl
  | cons signal signals ih => exact (emitted_step exec apply project limit switched signal).trans (ih _)

end Switched

end program

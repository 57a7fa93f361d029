import Mathlib.Data.List.Basic
import Mathlib.Tactic

namespace graph

variable {State Item : Type} {step : State → Item → Option State} {items : List Item} {s s' : State}

/-- A loop ends where each of its steps ends and keeps an invariant. -/
theorem foldlM_ends {Inv : State → Prop} (hinv : Inv s)
    (hstep : ∀ s, ∀ item ∈ items, Inv s → ∃ s', step s item = some s' ∧ Inv s') :
    ∃ s', items.foldlM step s = some s' ∧ Inv s' := by
  induction items generalizing s with
  | nil => exact ⟨s, rfl, hinv⟩
  | cons item rest ih =>
    obtain ⟨next, hnext, hkept⟩ := hstep s item List.mem_cons_self hinv
    obtain ⟨last, hlast, hend⟩ := ih hkept fun s other hother => hstep s other (List.mem_cons_of_mem _ hother)
    refine ⟨last, ?_, hend⟩
    rw [List.foldlM_cons, hnext]
    exact hlast

/-- A loop that ended took each of its steps, all from states with the invariant. -/
theorem foldlM_run {Inv : State → Prop} (hrun : items.foldlM step s = some s') (hinv : Inv s)
    (hkeep : ∀ s s', ∀ item ∈ items, Inv s → step s item = some s' → Inv s') :
    Inv s' ∧ ∀ item ∈ items, ∃ before after, Inv before ∧ step before item = some after := by
  induction items generalizing s with
  | nil =>
    cases hrun
    exact ⟨hinv, by simp⟩
  | cons item rest ih =>
    rw [List.foldlM_cons, Option.bind_eq_bind, Option.bind_eq_some_iff] at hrun
    obtain ⟨next, hnext, hrest⟩ := hrun
    have hkept := hkeep s next item List.mem_cons_self hinv hnext
    obtain ⟨hend, hsteps⟩ := ih hrest hkept fun s s' other hother => hkeep s s' other (List.mem_cons_of_mem _ hother)
    refine ⟨hend, ?_⟩
    intro other hother
    obtain rfl | htail := List.mem_cons.mp hother
    · exact ⟨s, next, hinv, hnext⟩
    · exact hsteps other htail

/-- What a loop has made of the items that it is through with. -/
theorem foldlM_progress {Inv : List Item → State → Prop} (hrun : items.foldlM step s = some s') (hinv : Inv [] s)
    (hstep : ∀ done item rest s s', items = done ++ item :: rest → Inv done s → step s item = some s' →
      Inv (done ++ [item]) s') : Inv items s' := by
  suffices hfrom : ∀ rest done s, items = done ++ rest → Inv done s → rest.foldlM step s = some s' → Inv items s' from
    hfrom items [] s rfl hinv hrun
  intro rest
  induction rest with
  | nil =>
    intro done s heq hdone hend
    cases hend
    rwa [heq, List.append_nil]
  | cons item rest ih =>
    intro done s heq hdone hrest
    rw [List.foldlM_cons, Option.bind_eq_bind, Option.bind_eq_some_iff] at hrest
    obtain ⟨next, hnext, hmore⟩ := hrest
    refine ih (done ++ [item]) next ?_ (hstep done item rest s next heq hdone hnext) hmore
    rw [heq, List.append_assoc, List.singleton_append]

/-- A loop whose steps can do more ends as before where it ended before. -/
theorem foldlM_mono {more : State → Item → Option State}
    (hmore : ∀ s item s', step s item = some s' → more s item = some s') (hrun : items.foldlM step s = some s') :
    items.foldlM more s = some s' := by
  induction items generalizing s with
  | nil => exact hrun
  | cons item rest ih =>
    rw [List.foldlM_cons, Option.bind_eq_bind, Option.bind_eq_some_iff] at hrun
    obtain ⟨next, hnext, hrest⟩ := hrun
    rw [List.foldlM_cons, hmore _ _ _ hnext]
    exact ih hrest

/-- A search through a list ends where it ends on each item. -/
theorem anyM_map_eq_any {Image : Type} {image : Item → Image} {test : Image → Option Bool} {f : Item → Bool}
    (htest : ∀ item ∈ items, test (image item) = some (f item)) : (items.map image).anyM test = some (items.any f) := by
  induction items with
  | nil => rfl
  | cons item rest ih =>
    rw [List.forall_mem_cons] at htest
    rw [List.map_cons, List.anyM, htest.1, List.any_cons, ih htest.2]
    cases f item <;> rfl

theorem anyM_ends {test : Item → Option Bool} (htest : ∀ item ∈ items, ∃ b, test item = some b) :
    ∃ b, items.anyM test = some b := by
  induction items with
  | nil => exact ⟨false, rfl⟩
  | cons item rest ih =>
    obtain ⟨b, hb⟩ := htest item List.mem_cons_self
    obtain ⟨more, hmore⟩ := ih fun other hother => htest other (List.mem_cons_of_mem _ hother)
    cases b with
    | true => exact ⟨true, by simp [List.anyM, hb]⟩
    | false => exact ⟨more, by simp [List.anyM, hb, hmore]⟩

end graph

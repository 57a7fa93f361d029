import Mathlib.Data.Fintype.Card
import Mathlib.Data.Set.Finite.Basic
import Mathlib.Logic.Relation
import Mathlib.Tactic

namespace graph

open Relation

variable {α : Type} {r : α → α → Prop} {a b c : α}

/-- Nothing that a node leads to leads back to itself. -/
def Acyclic (r : α → α → Prop) (a : α) : Prop :=
  ∀ b, ReflTransGen r a b → ¬ TransGen r b b

/-- Every way from a node comes to an end. -/
def Grounded (r : α → α → Prop) (a : α) : Prop :=
  Acc (fun inner outer => r outer inner) a

theorem Grounded.intro (h : ∀ b, r a b → Grounded r b) : Grounded r a :=
  Acc.intro a h

theorem Grounded.step (h : Grounded r a) (hstep : r a b) : Grounded r b :=
  Acc.inv h hstep

theorem Grounded.reach (h : Grounded r a) (hreach : ReflTransGen r a b) : Grounded r b := by
  induction hreach with
  | refl => exact h
  | tail _ hstep ih => exact ih.step hstep

/-- What holds of a node once it holds of all that the node leads to in one step, or
in two. -/
theorem Grounded.induction {P : α → Prop} (h : Grounded r a)
    (hnode : ∀ a, (∀ b, r a b → P b) → (∀ b c, r a b → r b c → P c) → P a) : P a := by
  suffices hboth : P a ∧ ∀ b, r a b → P b from hboth.1
  induction h with
  | intro a _ ih =>
    have hchildren : ∀ b, r a b → P b := fun b hb => (ih b hb).1
    exact ⟨hnode a hchildren fun b c hb hc => (ih b hb).2 c hc, hchildren⟩

theorem Grounded.irrefl (h : Grounded r a) : ¬ TransGen r a a := by
  induction h with
  | intro a _ ih =>
    intro hcycle
    obtain ⟨b, hab, hba⟩ := TransGen.head'_iff.mp hcycle
    exact ih b hab (TransGen.tail' hba hab)

theorem Grounded.acyclic (h : Grounded r a) : Acyclic r a :=
  fun _ hreach => (h.reach hreach).irrefl

/-- In a finite graph only a cycle keeps a way from coming to an end. -/
theorem Acyclic.grounded (h : Acyclic r a) (hfinite : {b | ReflTransGen r a b}.Finite) : Grounded r a := by
  let found := {b // ReflTransGen r a b}
  have : Finite found := hfinite
  let below : found → found → Prop := fun inner outer => TransGen r outer.1 inner.1
  have : IsTrans found below := ⟨fun _ _ _ h₁ h₂ => h₂.trans h₁⟩
  have : Std.Irrefl below := ⟨fun node => h node.1 node.2⟩
  have hwell : WellFounded below := Finite.wellFounded_of_trans_of_irrefl below
  suffices hall : ∀ node : found, Grounded r node.1 from hall ⟨a, .refl⟩
  intro node
  induction node using hwell.induction with
  | _ node ih =>
    apply Grounded.intro
    intro inner hinner
    exact ih ⟨inner, node.2.tail hinner⟩ (.single hinner)

theorem grounded_iff_acyclic (hfinite : {b | ReflTransGen r a b}.Finite) : Grounded r a ↔ Acyclic r a :=
  ⟨Grounded.acyclic, fun h => h.grounded hfinite⟩

/-- No way from a node has as many steps as a number. -/
def Shallow (r : α → α → Prop) : ℕ → α → Prop
  | 0, _ => False
  | steps + 1, a => ∀ b, r a b → Shallow r steps b

theorem Shallow.congr {r' : α → α → Prop} {steps : ℕ} (h : Shallow r' steps a)
    (hsame : ∀ b c, ReflTransGen r a b → r b c → r' b c) : Shallow r steps a := by
  induction steps generalizing a with
  | zero => exact h
  | succ steps ih =>
    intro b hb
    apply ih (h b (hsame a b .refl hb))
    intro c d hreach hd
    exact hsame c d (hreach.head hb) hd

theorem Shallow.grounded {steps : ℕ} (h : Shallow r steps a) : Grounded r a := by
  induction steps generalizing a with
  | zero => exact h.elim
  | succ steps ih =>
    apply Grounded.intro
    intro b hb
    exact ih (h b hb)

/-- Without a cycle no node is met twice on a way, so that it has fewer steps than there are
nodes to step from. -/
theorem Acyclic.shallow [DecidableEq α] (sources : Finset α) (hsources : ∀ a b, r a b → a ∈ sources)
    (h : Acyclic r a) : Shallow r (sources.card + 1) a := by
  induction hcard : sources.card generalizing sources r a with
  | zero =>
    intro b hb
    have hmem := hsources a b hb
    rw [Finset.card_eq_zero.mp hcard] at hmem
    cases hmem
  | succ count ih =>
    intro b hb
    -- The way goes on from `b` without a step from `a`.
    have hsub : ∀ x y, r x y ∧ x ≠ a → x ∈ sources.erase a :=
      fun x y hxy => Finset.mem_erase.mpr ⟨hxy.2, hsources x y hxy.1⟩
    have hfewer : (sources.erase a).card = count := by
      rw [Finset.card_erase_of_mem (hsources a b hb)]
      omega
    have hbelow : Acyclic (fun x y => r x y ∧ x ≠ a) b := by
      intro c hreach hcycle
      apply h c ((ReflTransGen.mono (fun _ _ hxy => hxy.1) _ _ hreach).head hb)
      exact TransGen.mono (fun _ _ hxy => hxy.1) _ _ hcycle
    apply (ih _ hsub hbelow hfewer).congr
    intro c d hreach hd
    refine ⟨hd, ?_⟩
    rintro rfl
    exact h c .refl (.head' hb hreach)

/-- A node is reached within a number of steps. -/
inductive Within (r : α → α → Prop) : ℕ → α → α → Prop
  | here {steps : ℕ} {a : α} : Within r steps a a
  | step {steps : ℕ} {a b c : α} (hstep : r a b) (hrest : Within r steps b c) : Within r (steps + 1) a c

theorem Within.reach {steps : ℕ} (h : Within r steps a b) : ReflTransGen r a b := by
  induction h with
  | here => exact .refl
  | step hstep _ ih => exact ih.head hstep

theorem Within.mono {r' : α → α → Prop} {steps more : ℕ} (h : Within r steps a b) (hle : steps ≤ more)
    (hsub : ∀ a b, r a b → r' a b) : Within r' more a b := by
  induction h generalizing more with
  | here => exact .here
  | @step steps a b c hstep _ ih =>
    obtain ⟨more, rfl⟩ : ∃ fewer, more = fewer + 1 := ⟨more - 1, by omega⟩
    exact .step (hsub _ _ hstep) (ih (by omega))

/-- A way either avoids a node at all its steps, or does so after its last visit. -/
theorem reach_avoiding (avoided : α) (h : ReflTransGen r a b) :
    ReflTransGen (fun x y => r x y ∧ x ≠ avoided) a b ∨
      ∃ c, r avoided c ∧ ReflTransGen (fun x y => r x y ∧ x ≠ avoided) c b := by
  induction h using ReflTransGen.head_induction_on with
  | refl => exact Or.inl .refl
  | @head a c hstep _ ih =>
    obtain hclear | hlast := ih
    · by_cases heq : a = avoided
      · exact Or.inr ⟨c, heq ▸ hstep, hclear⟩
      · exact Or.inl (hclear.head ⟨hstep, heq⟩)
    · exact Or.inr hlast

/-- A node that is reached at all is reached within as many steps as there are nodes to
step from. -/
theorem within_card [DecidableEq α] (sources : Finset α) (hsources : ∀ a b, r a b → a ∈ sources)
    (h : ReflTransGen r a b) : Within r sources.card a b := by
  induction hcard : sources.card generalizing sources r a with
  | zero =>
    obtain rfl | ⟨c, hstep, _⟩ := ReflTransGen.cases_head h
    · exact .here
    · have hempty := Finset.card_eq_zero.mp hcard
      have hmem := hsources _ _ hstep
      simp [hempty] at hmem
  | succ count ih =>
    obtain rfl | ⟨c, hstep, hrest⟩ := ReflTransGen.cases_head h
    · exact .here
    · have hmem := hsources _ _ hstep
      have hfewer : (sources.erase a).card = count := by
        rw [Finset.card_erase_of_mem hmem]
        omega
      have hsub : ∀ x y, r x y ∧ x ≠ a → x ∈ sources.erase a :=
        fun x y hxy => Finset.mem_erase.mpr ⟨hxy.2, hsources x y hxy.1⟩
      obtain hclear | ⟨d, hlast, hclear⟩ := reach_avoiding a hrest
      · exact .step hstep ((ih _ hsub hclear hfewer).mono le_rfl fun _ _ h => h.1)
      · exact .step hlast ((ih _ hsub hclear hfewer).mono le_rfl fun _ _ h => h.1)

/-- Whether a node with a property is found within a number of steps. -/
def found (next : α → List α) (p : α → Bool) : ℕ → α → Bool
  | 0, a => p a
  | steps + 1, a => p a || (next a).any (found next p steps)

theorem found_iff_within (next : α → List α) (p : α → Bool) (steps : ℕ) (a : α) :
    found next p steps a = true ↔ ∃ b, Within (fun a b => b ∈ next a) steps a b ∧ p b = true := by
  induction steps generalizing a with
  | zero =>
    constructor
    · intro h
      exact ⟨a, .here, h⟩
    · intro h
      obtain ⟨b, hwithin, hb⟩ := h
      cases hwithin
      exact hb
  | succ steps ih =>
    rw [found, Bool.or_eq_true, List.any_eq_true]
    constructor
    · intro h
      obtain hhere | ⟨c, hmem, hc⟩ := h
      · exact ⟨a, .here, hhere⟩
      · obtain ⟨b, hwithin, hb⟩ := (ih c).mp hc
        exact ⟨b, .step hmem hwithin, hb⟩
    · intro h
      obtain ⟨b, hwithin, hb⟩ := h
      cases hwithin with
      | here => exact Or.inl hb
      | @step _ _ c _ hmem hrest => exact Or.inr ⟨c, hmem, (ih c).mpr ⟨b, hrest, hb⟩⟩

/-- With as many steps as there are nodes that lead anywhere, the search is complete. -/
theorem found_iff [DecidableEq α] {next : α → List α} (p : α → Bool) {steps : ℕ} (sources : Finset α)
    (hsources : ∀ a b, b ∈ next a → a ∈ sources) (hsteps : sources.card ≤ steps) (a : α) :
    found next p steps a = true ↔ ∃ b, ReflTransGen (fun a b => b ∈ next a) a b ∧ p b = true := by
  rw [found_iff_within]
  constructor
  · intro h
    obtain ⟨b, hwithin, hb⟩ := h
    exact ⟨b, hwithin.reach, hb⟩
  · intro h
    obtain ⟨b, hreach, hb⟩ := h
    exact ⟨b, (within_card sources hsources hreach).mono hsteps fun _ _ h => h, hb⟩

/-- Enough of something for each item of a list is enough for all of them. -/
theorem exists_enough {P : α → ℕ → Prop} (items : List α) (h : ∀ item ∈ items, ∃ least, ∀ n, least ≤ n → P item n) :
    ∃ least, ∀ n, least ≤ n → ∀ item ∈ items, P item n := by
  induction items with
  | nil => exact ⟨0, by simp⟩
  | cons item rest ih =>
    obtain ⟨most, hrest⟩ := ih fun other hother => h other (List.mem_cons_of_mem item hother)
    obtain ⟨least, hitem⟩ := h item List.mem_cons_self
    refine ⟨max least most, ?_⟩
    intro n hn other hother
    obtain rfl | htail := List.mem_cons.mp hother
    · exact hitem n (by omega)
    · exact hrest n (by omega) other htail

end graph

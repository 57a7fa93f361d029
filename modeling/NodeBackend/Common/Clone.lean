import NodeBackend.Common.Endless
import NodeBackend.Js.View

namespace node_backend.object_recursion

open js graph Relation

variable {h t : Heap} {a b fuel : ℕ} {data : Slot} {result : Heap × Slot}

/-- An object that the loop of cloneObject copies as it is: none of its values is an array,
and no key sets a prototype instead. -/
def WellCopied (h : Heap) (a : ℕ) : Prop :=
  ∃ prototype fields, h.cell a = .obj prototype fields ∧ ∀ entry ∈ fields.entries,
    entry.1 ≠ "__proto__" ∧ ∀ inner, entry.2 = .ref inner → (h.cell inner).isArray = false

/-- A value such that all of it from which a function or a symbol is reached are objects
that are copied well. -/
def Clonable (h : Heap) (data : Slot) : Prop :=
  data.rejected = false ∧
    ∀ address, h.Reaches data address → h.ReachesRejected (.ref address) → WellCopied h address

/-- What became of a field value. An object that is no array was cloned in turn, while more
objects were there, and others came after. -/
inductive ValueClone (h : Heap) (fuel : ℕ) (g : Heap) : Slot → Slot → Prop
  | kept {value : Slot} (hkept : ∀ inner, value = .ref inner → (h.cell inner).isArray = true) :
      ValueClone h fuel g value value
  | cloned {inner : ℕ} {t more : Heap} {result : Heap × Slot} (hobject : (h.cell inner).isArray = false)
      (ht : Heap.Closed (h ++ t)) (hrun : cloneObject fuel (h ++ t) (.ref inner) = some result)
      (hcloned : Cloned (h ++ t) result) (hmore : g = result.1 ++ more) : ValueClone h fuel g (.ref inner) result.2

theorem ValueClone.append {g : Heap} {value new : Slot} (hclone : ValueClone h fuel g value new) (more : Heap) :
    ValueClone h fuel (g ++ more) value new := by
  cases hclone with
  | kept hkept => exact .kept hkept
  | @cloned inner t before result hobject ht hrun hcloned hbefore =>
    exact .cloned hobject ht hrun hcloned (by rw [hbefore, List.append_assoc])

theorem cloned_of_cloneObject (hclosed : h.Closed) (hsound : h.Sound (.ref a))
    (hrun : cloneObject fuel h (.ref a) = some result) : Cloned h result := by
  obtain ⟨ha, hground⟩ := hsound a rfl
  obtain ⟨least, hends⟩ := cloneObject_ends hclosed ha hground
  obtain ⟨other, hother, hcloned⟩ := hends (max least fuel) (by omega) [] (by simpa using hclosed)
  rw [List.append_nil] at hother hcloned
  rw [cloneObject_mono (Nat.le_max_right least fuel) hrun] at hother
  exact Option.some.inj hother ▸ hcloned

/-- Where structuredClone throws, a new object is made. -/
theorem cloneObject_of_none (hreject : structuredClone h data = none)
    (hrun : cloneObject (fuel + 1) h data = some result) :
    ∃ state, (ownEntries h data).foldlM (cloneEntry (cloneObject fuel)) (h, (.usual, .empty)) = some state ∧
      result = (state.1 ++ [.obj state.2.1 state.2.2], .ref state.1.length) := by
  rw [cloneObject, hreject] at hrun
  dsimp only at hrun
  rw [Option.bind_eq_bind, Option.bind_eq_some_iff] at hrun
  obtain ⟨state, hstate, heq⟩ := hrun
  exact ⟨state, hstate, (Option.some.inj heq).symm⟩

def EntryClone (h : Heap) (fuel : ℕ) (g : Heap) (entry new : String × Slot) : Prop :=
  new.1 = entry.1 ∧ ValueClone h fuel g entry.2 new.2

/-- The entries that the loop has made of those it is through with. -/
def Copied (h : Heap) (fuel : ℕ) (done : List (String × Slot)) (state : Heap × Prototype × Fields) : Prop :=
  Building h state ∧
    List.Forall₂ (EntryClone h fuel state.1)
      (done.filter fun entry => entry.1 ≠ "__proto__") state.2.2.entries

theorem forall₂_append_new {g : Heap} {done new : List (String × Slot)} (more : Heap)
    (hold : List.Forall₂ (EntryClone h fuel g) done new) :
    List.Forall₂ (EntryClone h fuel (g ++ more)) done new :=
  hold.imp fun _ _ hentry => ⟨hentry.1, hentry.2.append more⟩

theorem keys_of_forall₂ {g : Heap} {done new : List (String × Slot)}
    (hentries : List.Forall₂ (EntryClone h fuel g) done new) :
    new.map Prod.fst = done.map Prod.fst := by
  induction hentries with
  | nil => rfl
  | cons hentry _ ih => rw [List.map_cons, List.map_cons, hentry.1, ih]

/-- The next entry, whose key no entry before it has. -/
theorem Copied.next {done : List (String × Slot)} {entry : String × Slot} {state : Heap × Prototype × Fields}
    {value : Slot} (hcopied : Copied h fuel done state) (hfresh : entry.1 ∉ done.map Prod.fst)
    (hsound : state.1.Sound value) (hvalue : ValueClone h fuel state.1 entry.2 value) :
    Copied h fuel (done ++ [entry]) (state.1, assign state.2 entry.1 value) := by
  obtain ⟨hbuilding, hentries⟩ := hcopied
  refine ⟨hbuilding.assign entry.1 hsound, ?_⟩
  rw [List.filter_append]
  by_cases hproto : entry.1 = "__proto__"
  · have hsame : (assign state.2 entry.1 value).2 = state.2.2 := by
      unfold assign
      rw [if_pos hproto]
      split <;> rfl
    rw [hsame]
    simpa [hproto] using hentries
  · have hkeys : entry.1 ∉ state.2.2.entries.map Prod.fst := by
      rw [keys_of_forall₂ hentries]
      exact fun hmem => hfresh ((List.filter_sublist.map _).subset hmem)
    have hset : (assign state.2 entry.1 value).2.entries = state.2.2.entries ++ [(entry.1, value)] := by
      unfold assign
      rw [if_neg hproto]
      exact json.setField_of_not_mem value hkeys
    have hkept : [entry].filter (fun entry => entry.1 ≠ "__proto__") = [entry] := by simp [hproto]
    rw [hset, hkept]
    exact List.rel_append hentries (.cons ⟨rfl, hvalue⟩ .nil)

/-- One step of the loop over the entries of a sound object. -/
theorem Copied.step {done : List (String × Slot)} {entry : String × Slot} {state after : Heap × Prototype × Fields}
    (hclosed : h.Closed) (hentry : h.Sound entry.2) (hcopied : Copied h fuel done state)
    (hfresh : entry.1 ∉ done.map Prod.fst) (hrun : cloneEntry (cloneObject fuel) state entry = some after) :
    Copied h fuel (done ++ [entry]) after := by
  obtain ⟨⟨⟨t, hextends⟩, hstate, _⟩, hentries⟩ := id hcopied
  have hsound : state.1.Sound entry.2 := by
    rw [hextends]
    exact hentry.append hclosed t
  obtain ⟨key, value⟩ := entry
  cases value with
  | ref inner =>
    rw [cloneEntry] at hrun
    dsimp only at hrun
    have hinner := (hentry inner rfl).1
    have hsame : (state.1.cell inner).isArray = (h.cell inner).isArray := by
      rw [hextends, Heap.cell_append hinner]
    split at hrun
    case isTrue harray =>
      cases hrun
      refine hcopied.next hfresh hsound (.kept ?_)
      intro other heq
      cases heq
      rwa [← hsame]
    case isFalse hobject =>
      rw [Option.bind_eq_bind, Option.bind_eq_some_iff] at hrun
      obtain ⟨result, hresult, heq⟩ := hrun
      cases heq
      have hcloned := cloned_of_cloneObject hstate hsound hresult
      have hgrown : Copied h fuel done (result.1, state.2) := by
        refine ⟨hcopied.1.grow hcloned, ?_⟩
        obtain ⟨⟨more, hmore⟩, _⟩ := hcloned
        change List.Forall₂ (EntryClone h fuel result.1) _ _
        rw [hmore]
        exact forall₂_append_new more hentries
      refine hgrown.next hfresh hcloned.2.2 ?_
      rw [hextends] at hresult hcloned hstate
      exact .cloned (by simpa [hsame] using hobject) hstate hresult hcloned (List.append_nil _).symm
  | _ =>
    cases hrun
    exact hcopied.next hfresh hsound (.kept (by simp))

/-- The new object that is made of a sound object of fields. -/
theorem cloneObject_obj {prototype : Prototype} {fields : Fields} (hclosed : h.Closed) (hsound : h.Sound (.ref a))
    (hcell : h.cell a = .obj prototype fields) (ht : Heap.Closed (h ++ t))
    (hreject : structuredClone (h ++ t) (.ref a) = none)
    (hrun : cloneObject (fuel + 1) (h ++ t) (.ref a) = some result) :
    ∃ state, Copied h fuel fields.entries state ∧
      result = (state.1 ++ [.obj state.2.1 state.2.2], .ref state.1.length) := by
  obtain ⟨ha, hground⟩ := hsound a rfl
  obtain ⟨state, hloop, hresult⟩ := cloneObject_of_none hreject hrun
  refine ⟨state, ?_, hresult⟩
  have hentries : ownEntries (h ++ t) (.ref a) = fields.entries := by
    rw [ownEntries, Heap.cell_append ha, hcell]
    rfl
  rw [hentries] at hloop
  have hstart : Building h (h ++ t, (.usual, .empty)) := ⟨⟨t, rfl⟩, ht, by simp⟩
  refine foldlM_progress hloop ⟨hstart, .nil⟩ ?_
  intro done entry rest before after hsplit hcopied hstep
  have hmem : entry ∈ (h.cell a).entries := by
    rw [hcell]
    change entry ∈ fields.entries
    rw [hsplit]
    simp
  refine hcopied.step hclosed (sound_of_mem_entries hclosed hground hmem) ?_ hstep
  have hdistinct := fields.distinct
  rw [hsplit, List.map_append, List.map_cons] at hdistinct
  exact fun hdone => (List.nodup_append.mp hdistinct).2.2 _ hdone _ List.mem_cons_self rfl

/-- The part of an object from which a function or a symbol is reached is copied well. -/
def CopiedWell (h : Heap) (a : ℕ) : Prop :=
  ∀ address, h.Reaches (.ref a) address → h.ReachesRejected (.ref address) → WellCopied h address

theorem CopiedWell.step (hwell : CopiedWell h a) (hholds : h.Holds a b) : CopiedWell h b :=
  fun address hreach => hwell address (hreach.step hholds)

theorem structuredClone_eq_none_iff (hclosed : h.Closed) (ha : a < h.length) (hplain : h.Errorless (.ref a)) :
    structuredClone (h ++ t) (.ref a) = none ↔ h.ReachesRejected (.ref a) := by
  rw [← Heap.rejects_append hplain hclosed ha t, structuredClone]
  split
  case isTrue hrejects => simp [hrejects]
  case isFalse hrejects => simp [hrejects]

theorem exists_of_forall₂ {A B : Type} {R : A → B → Prop} {left : List A} {right : List B}
    (h : List.Forall₂ R left right) : (∀ a ∈ left, ∃ b ∈ right, R a b) ∧ ∀ b ∈ right, ∃ a ∈ left, R a b := by
  induction h with
  | nil => simp
  | cons hhead _ ih => simp_all

theorem forall₂_imp_of_mem {A B : Type} {R S : A → B → Prop} {left : List A} {right : List B}
    (h : List.Forall₂ R left right) (himp : ∀ a ∈ left, ∀ b ∈ right, R a b → S a b) : List.Forall₂ S left right := by
  induction h with
  | nil => exact .nil
  | cons hhead _ ih =>
    refine .cons (himp _ List.mem_cons_self _ List.mem_cons_self hhead) (ih ?_)
    intro a ha b hb
    exact himp a (List.mem_cons_of_mem _ ha) b (List.mem_cons_of_mem _ hb)

theorem map_eq_of_forall₂ {A B C : Type} {left : List A} {right : List B} {f : A → C} {g : B → C}
    (h : List.Forall₂ (fun a b => f a = g b) left right) : left.map f = right.map g := by
  rw [← List.forall₂_eq_eq_eq, List.forall₂_map_left_iff, List.forall₂_map_right_iff]
  exact h

theorem forall₂_and_of_map_eq {A B C : Type} {R : A → B → Prop} {left : List A} {right : List B} {f : ℕ → A → C}
    {g : ℕ → B → C} (h : List.Forall₂ R left right) (hsame : ∀ n, left.map (f n) = right.map (g n)) :
    List.Forall₂ (fun a b => R a b ∧ ∀ n, f n a = g n b) left right := by
  induction h with
  | nil => exact .nil
  | cons hhead _ ih =>
    refine .cons ⟨hhead, fun n => ?_⟩ (ih fun n => ?_)
    · exact (List.cons.inj (hsame n)).1
    · exact (List.cons.inj (hsame n)).2

/-- A clone that looks like its original and reaches no object that was there before. -/
def Fresh (h : Heap) (data : Slot) (g : Heap) (new : Slot) : Prop :=
  Alike h data g new ∧ ∀ address, g.Reaches new address → h.length ≤ address

/-- It stays so when more objects come. -/
theorem Fresh.append {new : Slot} {g : Heap} (hfresh : Fresh h data g new) (hclosed : g.Closed)
    (hsound : g.Sound new) (more : Heap) : Fresh h data (g ++ more) new := by
  refine ⟨fun depth => ?_, fun address hreach => ?_⟩
  · rw [Heap.view_append hclosed fun a heq => (hsound a heq).1]
    exact hfresh.1 depth
  · obtain ⟨root, rfl, hreach⟩ := hreach
    rw [Heap.reach_append hclosed (hsound root rfl).1] at hreach
    exact hfresh.2 address (Heap.reaches_ref.mpr hreach)

theorem ValueClone.fresh {g : Heap} {value new : Slot} (hclone : ValueClone h fuel g value new)
    (hobjects : ∀ inner, value = .ref inner → (h.cell inner).isArray = false)
    (hrecurse : ∀ inner t result, value = .ref inner → Heap.Closed (h ++ t) →
      cloneObject fuel (h ++ t) (.ref inner) = some result → Fresh h (.ref inner) result.1 result.2) :
    Fresh h value g new := by
  cases hclone with
  | kept hkept =>
    have hleaf : ∀ a, value ≠ .ref a := by
      intro a heq
      have harray := hkept a heq
      rw [hobjects a heq] at harray
      cases harray
    refine ⟨fun depth => Heap.view_of_ne_ref h g depth hleaf, fun address hreach => ?_⟩
    obtain ⟨root, heq, _⟩ := hreach
    exact absurd heq (hleaf root)
  | @cloned inner t more result _ ht hrun hcloned hmore =>
    rw [hmore]
    exact (hrecurse inner t result rfl ht hrun).append hcloned.2.1 hcloned.2.2 more

/-- A new object whose values are fresh is fresh. -/
theorem Fresh.object {g : Heap} {prototype : Prototype} {fields : Fields} {newObj : Prototype × Fields}
    (hcell : h.cell a = .obj prototype fields) (hlength : h.length ≤ g.length)
    (hentries : List.Forall₂ (fun entry new => new.1 = entry.1 ∧
      Fresh h entry.2 (g ++ [.obj newObj.1 newObj.2]) new.2) fields.entries newObj.2.entries) :
    Fresh h (.ref a) (g ++ [.obj newObj.1 newObj.2]) (.ref g.length) := by
  constructor
  · intro depth
    cases depth with
    | zero => rfl
    | succ depth =>
      rw [Heap.view_obj hcell, Heap.view_obj (Heap.cell_concat g _)]
      congr 1
      apply map_eq_of_forall₂ (hentries.imp _)
      intro entry new hnew
      obtain ⟨hkey, halike, _⟩ := hnew
      rw [hkey, halike depth]
  · intro address hreach
    rw [Heap.reaches_ref] at hreach
    obtain rfl | ⟨inner, hholds, hreach⟩ := ReflTransGen.cases_head hreach
    · exact hlength
    · rw [Heap.Holds, Heap.cell_concat] at hholds
      obtain ⟨new, hmem, heq⟩ := List.mem_map.mp hholds
      obtain ⟨entry, _, hnew⟩ := (exists_of_forall₂ hentries).2 new hmem
      apply hnew.2.2
      rw [heq]
      exact Heap.reaches_ref.mpr hreach

/-- Where all is copied well, the clone looks alike and is new all through. -/
theorem fresh_of_copiedWell (hclosed : h.Closed) (hsound : h.Sound (.ref a)) (hplain : h.Errorless (.ref a))
    (hwell : CopiedWell h a) (ht : Heap.Closed (h ++ t))
    (hrun : cloneObject fuel (h ++ t) (.ref a) = some result) : Fresh h (.ref a) result.1 result.2 := by
  induction fuel generalizing a t result with
  | zero => cases hrun
  | succ fuel ih =>
    obtain ⟨ha, hground⟩ := hsound a rfl
    cases hclone : structuredClone (h ++ t) (.ref a) with
    | some cloned =>
      rw [cloneObject, hclone] at hrun
      cases hrun
      obtain ⟨halike, hnew⟩ := alike_structuredClone (hplain.append hclosed ha t) hclone
      refine ⟨fun depth => ?_, fun address hreach => ?_⟩
      · rw [← halike depth, Heap.view_append hclosed fun b heq => (hsound b heq).1]
      · have hle := hnew address hreach
        rw [List.length_append] at hle
        omega
    | none =>
      have hrejected := (structuredClone_eq_none_iff hclosed ha hplain).mp hclone
      obtain ⟨prototype, fields, hcell, hentries⟩ := hwell a (Heap.reaches_ref.mpr .refl) hrejected
      obtain ⟨⟨g, newObj⟩, ⟨⟨⟨s, hextends⟩, hclosedG, hvalues⟩, hcopies⟩, rfl⟩ :=
        cloneObject_obj hclosed hsound hcell ht hclone hrun
      dsimp only at hextends hclosedG hvalues hcopies ⊢
      rw [List.filter_eq_self.mpr fun entry hentry => by simpa using (hentries entry hentry).1] at hcopies
      have hlength : h.length ≤ g.length := by
        rw [hextends, List.length_append]
        omega
      apply Fresh.object hcell hlength
      apply forall₂_imp_of_mem hcopies
      intro entry hentry new hnew hcopy
      have hsoundNew : g.Sound new.2 := hvalues new.2 (List.mem_map_of_mem hnew)
      refine ⟨hcopy.1, (hcopy.2.fresh (hentries entry hentry).2 ?_).append hclosedG hsoundNew _⟩
      intro inner t result heq hclosedT hresult
      have hmem : entry ∈ (h.cell a).entries := by rwa [hcell]
      have hholds := Heap.holds_of_mem_entries hmem heq
      have hsoundInner := sound_of_mem_entries hclosed hground hmem
      rw [heq] at hsoundInner
      exact ih hsoundInner (hplain.step hholds) (hwell.step hholds) hclosedT hresult

/-- Where a new object looks like an object, no entry was lost, and each value looks like the
one that it was made of. -/
theorem entries_of_alike {g : Heap} {prototype : Prototype} {fields : Fields} {newObj : Prototype × Fields}
    (hcell : h.cell a = .obj prototype fields)
    (hcopies : List.Forall₂ (EntryClone h fuel g) (fields.entries.filter fun entry => entry.1 ≠ "__proto__")
      newObj.2.entries)
    (halike : Alike h (.ref a) (g ++ [.obj newObj.1 newObj.2]) (.ref g.length)) :
    (∀ entry ∈ fields.entries, entry.1 ≠ "__proto__") ∧
      List.Forall₂ (fun entry new => EntryClone h fuel g entry new ∧
        Alike h entry.2 (g ++ [.obj newObj.1 newObj.2]) new.2) fields.entries newObj.2.entries := by
  have hviews : ∀ depth, fields.entries.map (fun entry => (entry.1, h.view depth entry.2)) =
      newObj.2.entries.map fun new => (new.1, Heap.view (g ++ [.obj newObj.1 newObj.2]) depth new.2) := by
    intro depth
    have hsame := halike (depth + 1)
    rw [Heap.view_obj hcell, Heap.view_obj (Heap.cell_concat g _)] at hsame
    exact View.obj.inj hsame
  have hlength : (fields.entries.filter fun entry => entry.1 ≠ "__proto__").length = fields.entries.length := by
    rw [hcopies.length_eq]
    simpa using (congrArg List.length (hviews 0)).symm
  have hkeys := List.length_filter_eq_length_iff.mp hlength
  rw [List.filter_eq_self.mpr hkeys] at hcopies
  refine ⟨fun entry hentry => by simpa using hkeys entry hentry, ?_⟩
  apply (forall₂_and_of_map_eq hcopies hviews).imp
  intro entry new hnew
  exact ⟨hnew.1, fun depth => (Prod.mk.inj (hnew.2 depth)).2⟩

/-- A value of the new object that looks like an object and shares nothing with it is no
array, and a clone that was alike and apart when it was made. -/
theorem ValueClone.copiedWell {g : Heap} {cell : Cell} {inner : ℕ} {new : Slot}
    (hclone : ValueClone h fuel g (.ref inner) new) (halike : Alike h (.ref inner) (g ++ [cell]) new)
    (hapart : Apart h (.ref inner) (g ++ [cell]) new)
    (hrecurse : ∀ t result, Heap.Closed (h ++ t) → cloneObject fuel (h ++ t) (.ref inner) = some result →
      Alike h (.ref inner) result.1 result.2 → Apart h (.ref inner) result.1 result.2 → CopiedWell h inner) :
    (h.cell inner).isArray = false ∧ CopiedWell h inner := by
  cases hclone with
  | kept hkept => exact absurd (Heap.reaches_ref.mpr .refl) (hapart inner (Heap.reaches_ref.mpr .refl))
  | @cloned _ before more cloned hobject hbefore hresult hcloned hmore =>
    have hgrown : g ++ [cell] = cloned.1 ++ (more ++ [cell]) := by
      rw [hmore, List.append_assoc]
    rw [hgrown] at halike hapart
    refine ⟨hobject, hrecurse before cloned hbefore hresult ?_ ?_⟩
    · intro depth
      rw [halike depth, Heap.view_append hcloned.2.1 fun b heq => (hcloned.2.2 b heq).1]
    · intro address hreach hshared
      obtain ⟨root, heq, hshared⟩ := hshared
      apply hapart address hreach
      rw [heq, Heap.reaches_ref, Heap.reach_append hcloned.2.1 (hcloned.2.2 root heq).1]
      exact hshared

/-- A clone that looks alike and shares nothing was copied well all through. -/
theorem copiedWell_of_alike (hclosed : h.Closed) (hsound : h.Sound (.ref a)) (hplain : h.Errorless (.ref a))
    (ht : Heap.Closed (h ++ t)) (hrun : cloneObject fuel (h ++ t) (.ref a) = some result)
    (halike : Alike h (.ref a) result.1 result.2) (hapart : Apart h (.ref a) result.1 result.2) :
    CopiedWell h a := by
  induction fuel generalizing a t result with
  | zero => cases hrun
  | succ fuel ih =>
    obtain ⟨ha, hground⟩ := hsound a rfl
    cases hclone : structuredClone (h ++ t) (.ref a) with
    | some cloned =>
      intro address hreach hrejected
      have hnone : structuredClone (h ++ t) (.ref a) = none :=
        (structuredClone_eq_none_iff hclosed ha hplain).mpr (hrejected.reach hreach)
      rw [hclone] at hnone
      cases hnone
    | none =>
      obtain ⟨_, _, hresult⟩ := cloneObject_of_none hclone hrun
      have hview := halike 1
      cases hcell : h.cell a with
      | error name message fields =>
        exact absurd hcell (hplain a (Heap.reaches_ref.mpr .refl) name message fields)
      | arr items =>
        rw [hresult, Heap.view_arr hcell, Heap.view_obj (Heap.cell_concat _ _)] at hview
        cases hview
      | obj prototype fields =>
        obtain ⟨⟨g, newObj⟩, ⟨_, hcopies⟩, rfl⟩ := cloneObject_obj hclosed hsound hcell ht hclone hrun
        dsimp only at hcopies halike hapart
        obtain ⟨hkeys, hpairs⟩ := entries_of_alike hcell hcopies halike
        have hobjects : ∀ entry ∈ fields.entries, ∀ inner, entry.2 = .ref inner →
            (h.cell inner).isArray = false ∧ CopiedWell h inner := by
          intro entry hentry inner heq
          obtain ⟨new, hnew, ⟨_, hvalue⟩, hsame⟩ := (exists_of_forall₂ hpairs).1 entry hentry
          have hmem : entry ∈ (h.cell a).entries := by rwa [hcell]
          have hinner := Heap.holds_of_mem_entries hmem heq
          have hsoundInner := sound_of_mem_entries hclosed hground hmem
          rw [heq] at hvalue hsame hsoundInner
          apply hvalue.copiedWell hsame
          · intro address hreach hshared
            obtain ⟨root, hroot, hshared⟩ := hshared
            apply hapart address (hreach.step hinner)
            refine Heap.reaches_ref.mpr (ReflTransGen.head ?_ hshared)
            rw [Heap.Holds, Heap.cell_concat, ← hroot]
            exact List.mem_map_of_mem hnew
          · intro before cloned hbefore hresult
            exact ih hsoundInner (hplain.step hinner) hbefore hresult
        intro address hreach hrejected
        rw [Heap.reaches_ref] at hreach
        obtain rfl | ⟨inner, hinner, hreach⟩ := ReflTransGen.cases_head hreach
        · exact ⟨prototype, fields, hcell, fun entry hentry =>
            ⟨hkeys entry hentry, fun inner heq => (hobjects entry hentry inner heq).1⟩⟩
        · have hslot : Slot.ref inner ∈ fields.values := by
            rwa [Heap.Holds, hcell] at hinner
          obtain ⟨entry, hentry, heq⟩ := List.mem_map.mp hslot
          exact (hobjects entry hentry inner heq).2 address (Heap.reaches_ref.mpr hreach) hrejected

section masking

variable {fieldsToApply : List FieldName} {valueToReplace : Slot}

/-- A heap that differs from another at what an object reaches only. -/
def ChangesWithin (h : Heap) (a : ℕ) (h' : Heap) : Prop :=
  Shrinks h h' ∧ ∀ b, ¬ ReflTransGen h.Holds a b → h'.cell b = h.cell b

theorem Shrinks.reach {h' : Heap} (hshrinks : Shrinks h h') (hreach : ReflTransGen h'.Holds a b) :
    ReflTransGen h.Holds a b :=
  ReflTransGen.mono (fun outer inner hholds => (hshrinks.2 outer).2 inner hholds) _ _ hreach

/-- Changes within what an object holds come after others within the object. -/
theorem ChangesWithin.then {h₁ h₂ : Heap} (hfirst : ChangesWithin h a h₁) (hreach : ReflTransGen h₁.Holds a b)
    (hsecond : ChangesWithin h₁ b h₂) : ChangesWithin h a h₂ := by
  refine ⟨hfirst.1.trans hsecond.1, ?_⟩
  intro c hc
  rw [hsecond.2 c fun hreachC => hc (hfirst.1.reach (hreach.trans hreachC)), hfirst.2 c hc]

theorem ChangesWithin.refl (h : Heap) (a : ℕ) : ChangesWithin h a h :=
  ⟨Shrinks.refl h, fun _ _ => rfl⟩

variable {recurse : Heap → Slot → Option (Heap × Slot)}

theorem changesWithin_replaceItem
    (hrecurse : ∀ h a result, recurse h (.ref a) = some result → ChangesWithin h a result.1) {place : ℕ} {h₁ h₂ : Heap}
    (hfirst : ChangesWithin h a h₁)
    (hrun : replaceItem recurse h₁ ((h₁.cell a).slots.getD place .undefined) = some h₂) : ChangesWithin h a h₂ := by
  cases hslot : (h₁.cell a).slots.getD place .undefined with
  | ref b =>
    rw [hslot] at hrun
    obtain ⟨result, hresult, rfl⟩ := Option.map_eq_some_iff.mp hrun
    exact hfirst.then (.single (holds_of_getD hslot)) (hrecurse h₁ b result hresult)
  | _ =>
    rw [hslot] at hrun
    cases hrun
    exact hfirst

theorem changesWithin_replaceInValue
    (hrecurse : ∀ h a result, recurse h (.ref a) = some result → ChangesWithin h a result.1) {place : ℕ} {h₁ h₂ : Heap}
    (hfirst : ChangesWithin h a h₁)
    (hrun : replaceInValue recurse h₁ ((h₁.cell a).slots.getD place .undefined) = some h₂) : ChangesWithin h a h₂ := by
  cases hslot : (h₁.cell a).slots.getD place .undefined with
  | ref b =>
    rw [hslot, replaceInValue] at hrun
    split at hrun
    case isTrue =>
      have hinside := (forEachSlot_run hrun (ChangesWithin.refl h₁ b) fun _ _ _ => changesWithin_replaceItem hrecurse).1
      exact hfirst.then (.single (holds_of_getD hslot)) hinside
    case isFalse =>
      obtain ⟨result, hresult, rfl⟩ := Option.map_eq_some_iff.mp hrun
      exact hfirst.then (.single (holds_of_getD hslot)) (hrecurse h₁ b result hresult)
  | _ =>
    rw [hslot] at hrun
    cases hrun
    exact hfirst

/-- Replacing changes what its argument reaches, and nothing else. -/
theorem changesWithin_replaceFields (hleaf : ∀ address, valueToReplace ≠ .ref address)
    (hrun : replaceFields fieldsToApply valueToReplace fuel h (.ref a) = some result) :
    ChangesWithin h a result.1 := by
  induction fuel generalizing h a result with
  | zero => cases hrun
  | succ fuel ih =>
    rw [replaceFields, Option.bind_eq_bind, Option.bind_eq_some_iff] at hrun
    obtain ⟨after, hafter, heq⟩ := hrun
    cases heq
    have hloop := (forEachSlot_run hafter (ChangesWithin.refl h a) fun _ _ _ =>
      changesWithin_replaceInValue fun _ _ _ => ih).1
    obtain ⟨hshrinks, hothers⟩ := applyFieldReplacement_spec fieldsToApply hleaf after a
    refine hloop.then .refl ⟨hshrinks, ?_⟩
    intro b hb
    apply hothers b
    intro heq
    exact hb (heq ▸ .refl)

end masking

/-- The clone of some data ends, looks like it and shares no array and no object with it. -/
def ClonesApart (h : Heap) (data : Slot) : Prop :=
  ∃ fuel result, cloneObject fuel h data = some result ∧ Alike h data result.1 result.2 ∧
    Apart h data result.1 result.2

/-- Masking some data ends and changes nothing that the data reaches. -/
def MasksApart (h : Heap) (data : Slot) : Prop :=
  ∃ fuel result, maskObjectSensitiveData fuel h data = some result ∧
    ∀ address, h.Reaches data address → result.1.cell address = h.cell address

theorem masksApart_of_copiedWell (hclosed : h.Closed) (hsound : h.Sound (.ref a)) (hplain : h.Errorless (.ref a))
    (hwell : CopiedWell h a) : MasksApart h (.ref a) := by
  obtain ⟨fuel, hends⟩ := maskObjectSensitiveData_ends hclosed hsound
  obtain ⟨result, hresult⟩ := Option.isSome_iff_exists.mp hends
  refine ⟨fuel, result, hresult, ?_⟩
  intro address hreach
  rw [Heap.reaches_ref] at hreach
  have hlt := Heap.lt_of_reach hclosed (hsound a rfl).1 hreach
  change (checkFieldsExistence h SENSITIVE_DATA_FIELDS fuel (.ref a)).bind _ = some result at hresult
  obtain ⟨sensitive, _, hrest⟩ := Option.bind_eq_some_iff.mp hresult
  cases sensitive with
  | false =>
    cases hrest
    rfl
  | true =>
    change (cloneObject fuel h (.ref a)).bind _ = some result at hrest
    obtain ⟨cloned, hclone, hreplace⟩ := Option.bind_eq_some_iff.mp hrest
    obtain ⟨⟨t, hextends⟩, _, _⟩ := cloned_of_cloneObject hclosed hsound hclone
    have hsame : cloned.1.cell address = h.cell address := by
      rw [hextends, Heap.cell_append hlt]
    rw [← List.append_nil h] at hclone
    have hfresh := fresh_of_copiedWell hclosed hsound hplain hwell (by simpa using hclosed) hclone
    obtain ⟨g, new⟩ := cloned
    change replaceFields SENSITIVE_DATA_FIELDS STRING_TO_REPLACE fuel g new = some result at hreplace
    cases new with
    | ref root =>
      have hwithin := changesWithin_replaceFields (by simp [STRING_TO_REPLACE]) hreplace
      rw [← hsame]
      apply hwithin.2
      intro hfound
      have hnew := hfresh.2 address (Heap.reaches_ref.mpr hfound)
      omega
    | _ =>
      cases fuel with
      | zero => cases hreplace
      | succ fuel =>
        cases hreplace
        exact hsame

/-- A function or a symbol is not what comes of it. -/
theorem not_rejected_of_alike (hrun : cloneObject fuel h data = some result)
    (halike : Alike h data result.1 result.2) : data.rejected = false := by
  by_contra hrejected
  rw [Bool.not_eq_false] at hrejected
  have hnone : structuredClone h data = none := by
    rw [structuredClone, if_pos ((h.rejects_iff data).mpr ⟨data, .refl, data.uncloneable_of_rejected h hrejected⟩)]
  cases fuel with
  | zero => cases hrun
  | succ fuel =>
    obtain ⟨state, _, rfl⟩ := cloneObject_of_none hnone hrun
    have hview := halike 1
    rw [Heap.view_obj (Heap.cell_concat _ _)] at hview
    cases data with
    | ref a => cases hrejected
    | _ => cases hview

theorem not_reaches {address : ℕ} (hleaf : ∀ a, data ≠ .ref a) : ¬ h.Reaches data address := by
  intro hreach
  obtain ⟨root, heq, _⟩ := hreach
  exact hleaf root heq

/-- A value that is neither an object nor rejected is its own clone. -/
theorem apart_of_not_ref (h : Heap) (hleaf : ∀ a, data ≠ .ref a) (haccepted : data.rejected = false) :
    ClonesApart h data ∧ MasksApart h data := by
  have hcontent : data.content h = [] := by
    cases data with
    | ref a => exact absurd rfl (hleaf a)
    | _ => rfl
  have hshift : data.shift h.length = data := by
    cases data with
    | ref a => exact absurd rfl (hleaf a)
    | _ => rfl
  have hclone : structuredClone h data = some (h ++ h.map (Cell.copy h.length), data) := by
    rw [structuredClone, if_neg ?_, hshift]
    rw [Heap.rejects_iff]
    intro hrejects
    obtain ⟨slot, hreach, hslot⟩ := hrejects
    have hplain : h.Errorless data := fun _ hfound => absurd hfound (not_reaches hleaf)
    obtain rfl | ⟨inner, hinner, _⟩ := ReflTransGen.cases_head hreach
    · rw [hplain.uncloneable_eq, haccepted] at hslot
      cases hslot
    · rw [hcontent] at hinner
      cases hinner
  constructor
  · refine ⟨1, (h ++ h.map (Cell.copy h.length), data), ?_, fun depth => Heap.view_of_ne_ref h _ depth hleaf,
      fun _ hreach => absurd hreach (not_reaches hleaf)⟩
    rw [cloneObject, hclone]
  · refine ⟨0, (h, .null), ?_, fun _ hreach => absurd hreach (not_reaches hleaf)⟩
    cases data with
    | ref a => exact absurd rfl (hleaf a)
    | _ => rfl

theorem clonable_ref_iff : Clonable h (.ref a) ↔ CopiedWell h a :=
  ⟨fun hclonable => hclonable.2, fun hwell => ⟨rfl, hwell⟩⟩

/-- Cloning gives an equal value that shares nothing, and masking leaves its argument
alone, exactly where all that reaches a function or a symbol is copied well. -/
theorem cloning_apart_iff (objects : ObjectGraph)
    (hacyclic : ∀ address, objects.heap.Reaches objects.data address →
      ¬ TransGen objects.heap.Holds address address)
    (hplain : objects.heap.Errorless objects.data) :
    (ClonesApart objects.heap objects.data ∧ MasksApart objects.heap objects.data) ↔
      Clonable objects.heap objects.data := by
  have hsound := (sound_iff_acyclic objects.allocated).mpr hacyclic
  obtain ⟨h, data, hclosed, hallocated⟩ := objects
  dsimp only at hsound hplain ⊢
  cases data with
  | ref a =>
    rw [clonable_ref_iff]
    constructor
    · intro hapart
      obtain ⟨⟨fuel, result, hrun, halike, hshared⟩, _⟩ := hapart
      rw [← List.append_nil h] at hrun
      exact copiedWell_of_alike hclosed hsound hplain (by simpa using hclosed) hrun halike hshared
    · intro hwell
      obtain ⟨ha, hground⟩ := hsound a rfl
      obtain ⟨fuel, hends⟩ := cloneObject_ends hclosed ha hground
      obtain ⟨result, hrun, _⟩ := hends fuel le_rfl [] (by simpa using hclosed)
      have hfresh := fresh_of_copiedWell hclosed hsound hplain hwell (by simpa using hclosed) hrun
      rw [List.append_nil] at hrun
      refine ⟨⟨fuel, result, hrun, hfresh.1, ?_⟩, masksApart_of_copiedWell hclosed hsound hplain hwell⟩
      intro address hreach hnew
      rw [Heap.reaches_ref] at hreach
      have hold := Heap.lt_of_reach hclosed ha hreach
      have hle := hfresh.2 address hnew
      omega
  | _ =>
    constructor
    · intro hapart
      obtain ⟨⟨fuel, result, hrun, halike, _⟩, _⟩ := hapart
      refine ⟨not_rejected_of_alike hrun halike, ?_⟩
      intro address hreach
      obtain ⟨root, heq, _⟩ := hreach
      cases heq
    · intro hclonable
      exact apart_of_not_ref h (by simp) hclonable.1

/-- A function, and an array with an object that has a password. -/
def functionBesideArray : ObjectGraph where
  heap := [
    .obj .usual ⟨[("run", .function 0 "() => {}"), ("accounts", .ref 1)], by simp⟩,
    .arr [.ref 2],
    .obj .usual ⟨[("password", .str "secret")], by simp⟩]
  data := .ref 0
  closed := by
    apply Heap.closed_of_mem
    simp [Cell.slots, Fields.values]
  allocated := by simp

theorem functionBesideArray_holds {outer inner : ℕ} (hholds : functionBesideArray.heap.Holds outer inner) :
    outer < inner := by
  have hlt := Heap.lt_of_holds hholds
  obtain rfl | rfl | rfl : outer = 0 ∨ outer = 1 ∨ outer = 2 := by
    change outer < 3 at hlt
    omega
  · have hslot : Slot.ref inner ∈ [Slot.function 0 "() => {}", .ref 1] := hholds
    simp_all
  · have hslot : Slot.ref inner ∈ [Slot.ref 2] := hholds
    simp_all
  · have hslot : Slot.ref inner ∈ [Slot.str "secret"] := hholds
    simp_all

theorem functionBesideArray_acyclic (address : ℕ) :
    ¬ TransGen functionBesideArray.heap.Holds address address := by
  suffices hlt : ∀ a b, TransGen functionBesideArray.heap.Holds a b → a < b from
    fun hcycle => absurd (hlt _ _ hcycle) (lt_irrefl _)
  intro a b hway
  induction hway with
  | single hstep => exact functionBesideArray_holds hstep
  | tail _ hstep ih => exact ih.trans (functionBesideArray_holds hstep)

theorem functionBesideArray_errorless : functionBesideArray.heap.Errorless functionBesideArray.data := by
  intro address _ name message fields heq
  obtain rfl | rfl | rfl | hge : address = 0 ∨ address = 1 ∨ address = 2 ∨ 3 ≤ address := by omega
  · cases heq
  · cases heq
  · cases heq
  · rw [Heap.cell_of_le hge] at heq
    cases heq

theorem cloning_apart_iff_functionBesideArray :
    (ClonesApart functionBesideArray.heap functionBesideArray.data ∧
      MasksApart functionBesideArray.heap functionBesideArray.data) ↔
      Clonable functionBesideArray.heap functionBesideArray.data :=
  cloning_apart_iff functionBesideArray (fun address _ => functionBesideArray_acyclic address)
    functionBesideArray_errorless

/-- Where structuredClone throws, the clone shares the array with its original. -/
theorem cloning_shares_array :
    ¬ ∀ objects : ObjectGraph, (∀ address, objects.heap.Reaches objects.data address →
        ¬ TransGen objects.heap.Holds address address) → objects.heap.Errorless objects.data →
      ClonesApart objects.heap objects.data ∧ MasksApart objects.heap objects.data := by
  intro hclaim
  obtain ⟨⟨fuel, result, hrun, halike, hapart⟩, _⟩ := hclaim functionBesideArray
    (fun address _ => functionBesideArray_acyclic address) functionBesideArray_errorless
  have hsound : functionBesideArray.heap.Sound (.ref 0) :=
    (sound_iff_acyclic functionBesideArray.allocated).mpr fun address _ => functionBesideArray_acyclic address
  have hclosed := functionBesideArray.closed
  rw [← List.append_nil functionBesideArray.heap] at hrun
  have hwell := copiedWell_of_alike hclosed hsound functionBesideArray_errorless (by simpa using hclosed) hrun
    halike hapart
  have hrejected : functionBesideArray.heap.ReachesRejected (.ref 0) :=
    ⟨0, .function 0 "() => {}", Heap.reaches_ref.mpr .refl, List.mem_cons_self, rfl⟩
  obtain ⟨prototype, fields, hcell, hentries⟩ := hwell 0 (Heap.reaches_ref.mpr .refl) hrejected
  cases hcell
  exact absurd ((hentries ("accounts", .ref 1) (by simp)).2 1 rfl) (by decide)

end node_backend.object_recursion

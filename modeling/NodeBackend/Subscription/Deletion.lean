import NodeBackend.Subscription.Steps

namespace node_backend.subscription_service

open js store program
open node_backend.infra node_backend.subscription_entity node_backend.exceptions

variable {ids : IdSource}

/-- A Redis key was deleted. -/
def Deleted (key : String) (history : List (Nat × Call)) : Prop :=
  ∃ entry ∈ history, entry.2 = Call.redisDel key

/-- A Redis key was set again after it had been deleted. -/
def SetAfterDelete (key : String) (history : List (Nat × Call)) : Prop :=
  After (fun entry => entry.2 = Call.redisDel key) (fun entry => ∃ text, entry.2 = Call.redisSet key text) history

section history

variable {key : String} {history : List (Nat × Call)} {thread : Nat} {call : Call}

theorem deleted_snoc : Deleted key (history ++ [(thread, call)]) ↔ Deleted key history ∨ call = .redisDel key := by
  simp [Deleted, or_and_right, exists_or]

theorem deleted_snoc_of_ne (hne : call ≠ .redisDel key) :
    Deleted key (history ++ [(thread, call)]) ↔ Deleted key history := by
  rw [deleted_snoc]
  exact or_iff_left hne

theorem setAfterDelete_snoc : SetAfterDelete key (history ++ [(thread, call)]) ↔
    SetAfterDelete key history ∨ (Deleted key history ∧ ∃ text, call = .redisSet key text) :=
  after_snoc

theorem setAfterDelete_snoc_of_ne (hne : ∀ text, call ≠ .redisSet key text) :
    SetAfterDelete key (history ++ [(thread, call)]) ↔ SetAfterDelete key history := by
  rw [setAfterDelete_snoc]
  exact or_iff_left fun ⟨_, text, heq⟩ => hne text heq

end history

section cache

variable {key : String} {history : List (Nat × Call)} {s : Infra ids}

/-- A call leaves a cleared entry cleared, unless it sets it. -/
theorem cleared_exec
    (hcleared : Deleted key history → ¬ SetAfterDelete key history → s.redis.get key = none) (thread : Nat)
    (call : Call)
    (hdeleted : Deleted key (history ++ [(thread, call)]))
    (hunset : ¬ SetAfterDelete key (history ++ [(thread, call)])) : (exec call s).2.redis.get key = none := by
  rw [deleted_snoc] at hdeleted
  rw [setAfterDelete_snoc, not_or] at hunset
  obtain hbefore | rfl := hdeleted
  · have hnone := hcleared hbefore hunset.1
    cases call with
    | redisSet other text =>
      have hne : key ≠ other := fun heq => hunset.2 ⟨hbefore, text, by rw [heq]⟩
      exact (KeyValue.get_set_of_ne _ _ hne).trans hnone
    | redisDel other => exact KeyValue.get_delete_eq_none hnone other
    | redisExpire other ttl =>
      simp only [exec]
      split
      · exact KeyValue.get_delete_eq_none hnone other
      · exact hnone
    | join socketId room =>
      simp only [exec]
      split <;> exact hnone
    | _ => exact hnone
  · exact KeyValue.get_delete_self _ _

/-- A call that does not clear a key, and sets it to texts of some kind only. -/
def Keeps (Text : String → Prop) (key : String) : Call → Prop
  | .redisSet other text => other = key → Text text
  | .redisExpire _ ttl => 0 < ttl
  | .redisDel other => other ≠ key
  | _ => True

/-- The cache has an entry under a key, with a text of some kind. -/
def Held (Text : String → Prop) (key : String) (s : Infra ids) : Prop :=
  ∃ text, s.redis.get key = some text ∧ Text text

/-- What was set after the deletion is still there, unless a call clears it. -/
theorem held_exec {Text : String → Prop} (hheld : SetAfterDelete key history → Held Text key s) {call : Call}
    (hkeeps : Keeps Text key call) (thread : Nat) (hset : SetAfterDelete key (history ++ [(thread, call)])) :
    Held Text key (exec call s).2 := by
  cases call with
  | redisSet other text =>
    by_cases hother : other = key
    · subst hother
      exact ⟨text, KeyValue.get_set_self _ _ _, hkeeps rfl⟩
    · rw [setAfterDelete_snoc_of_ne (by simp [hother])] at hset
      obtain ⟨held, hget, htext⟩ := hheld hset
      exact ⟨held, (KeyValue.get_set_of_ne _ _ (Ne.symm hother)).trans hget, htext⟩
  | redisDel other =>
    rw [setAfterDelete_snoc_of_ne (by simp)] at hset
    obtain ⟨held, hget, htext⟩ := hheld hset
    exact ⟨held, (KeyValue.get_delete_of_ne _ (Ne.symm hkeeps)).trans hget, htext⟩
  | redisExpire other ttl =>
    rw [setAfterDelete_snoc_of_ne (by simp)] at hset
    rw [exec, if_neg (Nat.pos_iff_ne_zero.mp hkeeps)]
    exact hheld hset
  | join socketId room =>
    rw [setAfterDelete_snoc_of_ne (by simp)] at hset
    simp only [exec]
    split <;> exact hheld hset
  | _ =>
    rw [setAfterDelete_snoc_of_ne (by simp)] at hset
    exact hheld hset

end cache

/-- A computation that is about to clear the cache and then ends. -/
def Clearing (subscriptionId : String) (p : Promise Unit) : Prop :=
  ∃ next, p = .await (.redisDel (cacheKey subscriptionId)) next ∧ ∀ count, next (.ok count) = .done ()

/-- A computation that is about to look for the document that it deletes. -/
def Finding (subscriptionId : String) (p : Promise Unit) : Prop :=
  ∃ next, p = .await (.findOne "subscriptionId" subscriptionId) next ∧ Clearing subscriptionId (next (.ok none)) ∧
    ∀ doc : Document, ∃ after, next (.ok (some doc)) = .await (.deleteOne doc.id) after ∧
      ∀ count, Clearing subscriptionId (after (.ok count))

/-- A computation that is about to leave a room and then deletes. -/
def Leaving (subscriptionId : String) (p : Promise Unit) : Prop :=
  ∃ socketId room next, p = .await (.leave socketId room) next ∧ Finding subscriptionId (next (.ok ()))

theorem finding_delete (subscriptionId : String) : Finding subscriptionId (delete subscriptionId).void :=
  ⟨_, rfl, ⟨_, rfl, fun _ => rfl⟩, fun _ => ⟨_, rfl, fun _ => ⟨_, rfl, fun _ => rfl⟩⟩⟩

/-- What holds of the collection and of the history while a deletion has not
found a document yet, while it is about to delete one, and after that. -/
structure Stage (ids : IdSource) where
  before : Collection ids → List (Nat × Call) → Prop
  deleting : String → Collection ids → List (Nat × Call) → Prop
  after : Collection ids → List (Nat × Call) → Prop

/-- What one moment says about a deletion is still so at another one. -/
structure Stage.Kept (stage : Stage ids) (subscriptions later : Collection ids) (history more : List (Nat × Call)) :
    Prop where
  before : stage.before subscriptions history → stage.before later more
  deleting : ∀ id, stage.deleting id subscriptions history → stage.deleting id later more
  after : stage.after subscriptions history → stage.after later more

/-- How far a deletion has come, with what holds at its stage. -/
inductive Deletion (stage : Stage ids) (subscriptionId : String) (subscriptions : Collection ids)
    (history : List (Nat × Call)) : Promise Unit → Prop
  | leaving {p : Promise Unit} (h : stage.before subscriptions history)
      (hnot : ¬ Deleted (cacheKey subscriptionId) history) (hp : Leaving subscriptionId p) :
      Deletion stage subscriptionId subscriptions history p
  | finding {p : Promise Unit} (h : stage.before subscriptions history)
      (hnot : ¬ Deleted (cacheKey subscriptionId) history) (hp : Finding subscriptionId p) :
      Deletion stage subscriptionId subscriptions history p
  | deleting {id : String} {next : Except Failure Nat → Promise Unit} (h : stage.deleting id subscriptions history)
      (hnot : ¬ Deleted (cacheKey subscriptionId) history)
      (hnext : ∀ count, Clearing subscriptionId (next (.ok count))) :
      Deletion stage subscriptionId subscriptions history (.await (.deleteOne id) next)
  | clearing {p : Promise Unit} (h : stage.after subscriptions history)
      (hnot : ¬ Deleted (cacheKey subscriptionId) history) (hp : Clearing subscriptionId p) :
      Deletion stage subscriptionId subscriptions history p
  | ended (h : stage.after subscriptions history) (hdeleted : Deleted (cacheKey subscriptionId) history) :
      Deletion stage subscriptionId subscriptions history (.done ())

theorem Deletion.kept {stage : Stage ids} {subscriptionId : String} {subscriptions later : Collection ids}
    {history more : List (Nat × Call)} {p : Promise Unit} (h : Deletion stage subscriptionId subscriptions history p)
    (hkept : stage.Kept subscriptions later history more)
    (hsame : Deleted (cacheKey subscriptionId) more ↔ Deleted (cacheKey subscriptionId) history) :
    Deletion stage subscriptionId later more p := by
  cases h with
  | leaving h hnot hp => exact .leaving (hkept.before h) (mt hsame.mp hnot) hp
  | finding h hnot hp => exact .finding (hkept.before h) (mt hsame.mp hnot) hp
  | deleting h hnot hnext => exact .deleting (hkept.deleting _ h) (mt hsame.mp hnot) hnext
  | clearing h hnot hp => exact .clearing (hkept.after h) (mt hsame.mp hnot) hp
  | ended h hdeleted => exact .ended (hkept.after h) (hsame.mpr hdeleted)

/-- What the calls of the deletion itself do to its stages. -/
structure Stage.Sound (stage : Stage ids) (subscriptionId : String) : Prop where
  leave : ∀ {subscriptions history} socketId room, stage.before subscriptions history →
    stage.before subscriptions (history ++ [(0, .leave socketId room)])
  missing : ∀ {subscriptions history}, stage.before subscriptions history →
    findBySubscriptionId? subscriptions subscriptionId = none →
    stage.after subscriptions (history ++ [(0, .findOne "subscriptionId" subscriptionId)])
  found : ∀ {subscriptions history doc}, stage.before subscriptions history →
    findBySubscriptionId? subscriptions subscriptionId = some doc →
    stage.deleting doc.id subscriptions (history ++ [(0, .findOne "subscriptionId" subscriptionId)])
  delete : ∀ {subscriptions history id}, stage.deleting id subscriptions history →
    stage.after (subscriptions.deleteOne id) (history ++ [(0, .deleteOne id)])
  clear : ∀ {subscriptions history}, stage.after subscriptions history →
    stage.after subscriptions (history ++ [(0, .redisDel (cacheKey subscriptionId))])

/-- The deletion's own next call takes it to its next stage. -/
theorem Deletion.advance {stage : Stage ids} {subscriptionId : String} (hsound : stage.Sound subscriptionId)
    {s : Infra ids} {history : List (Nat × Call)} {call : Call} {next : Except Failure call.Reply → Promise Unit}
    (h : Deletion stage subscriptionId s.subscriptions history (.await call next)) :
    Deletion stage subscriptionId (exec call s).2.subscriptions (history ++ [(0, call)]) (next (exec call s).1) := by
  have hstill : ∀ {call : Call}, call ≠ .redisDel (cacheKey subscriptionId) →
      ¬ Deleted (cacheKey subscriptionId) history →
      ¬ Deleted (cacheKey subscriptionId) (history ++ [(0, call)]) :=
    fun hne hnot => mt (deleted_snoc_of_ne hne).mp hnot
  cases h with
  | leaving h hnot hp =>
    obtain ⟨socketId, room, next', heq, hfinding⟩ := hp
    cases heq
    exact .finding (hsound.leave socketId room h) (hstill (by simp) hnot) hfinding
  | finding h hnot hp =>
    obtain ⟨next', heq, hnone, hsome⟩ := hp
    cases heq
    have hreply : (exec (.findOne "subscriptionId" subscriptionId) s).1 =
        .ok (findBySubscriptionId? s.subscriptions subscriptionId) := rfl
    rw [hreply]
    cases hfound : findBySubscriptionId? s.subscriptions subscriptionId with
    | none => exact .clearing (hsound.missing h hfound) (hstill (by simp) hnot) hnone
    | some doc =>
      obtain ⟨after, hafter, hclearing⟩ := hsome doc
      rw [hafter]
      exact .deleting (hsound.found h hfound) (hstill (by simp) hnot) hclearing
  | deleting h hnot hnext => exact .clearing (hsound.delete h) (hstill (by simp) hnot) (hnext _)
  | clearing h hnot hp =>
    obtain ⟨next', heq, hend⟩ := hp
    cases heq
    have hdone : next' (exec (.redisDel (cacheKey subscriptionId)) s).1 = .done () := hend _
    rw [hdone]
    exact .ended (hsound.clear h) (deleted_snoc.mpr (Or.inr rfl))

/-- How other computations go together with a deletion: their calls do not
clear the cache and keep its stages, and neither their own calls nor the
deletion's disturb them. -/
structure Compatible (stage : Stage ids) (Text : String → Prop) (subscriptionId : String)
    (Other : Collection ids → Promise Unit → Prop) : Prop where
  sound : stage.Sound subscriptionId
  deleted : ∀ {subscriptions p} id, Other subscriptions p → Other (subscriptions.deleteOne id) p
  keeps : ∀ {subscriptions call next}, Other subscriptions (.await call next) →
    Keeps Text (cacheKey subscriptionId) call
  next : ∀ {s : Infra ids} {call next}, Other s.subscriptions (.await call next) →
    Other (exec call s).2.subscriptions (next (exec call s).1)
  rest : ∀ {s : Infra ids} {call next p}, Other s.subscriptions (.await call next) → Other s.subscriptions p →
    Other (exec call s).2.subscriptions p
  kept : ∀ {s : Infra ids} {call next} history thread, Other s.subscriptions (.await call next) →
    stage.Kept s.subscriptions (exec call s).2.subscriptions history (history ++ [(thread + 1, call)])

/-- One deletion among other computations, which have cleared the cache or not. -/
structure Race (stage : Stage ids) (subscriptionId : String) (Other : Collection ids → Promise Unit → Prop)
    (pool : Pool ids) : Prop where
  deletion : ∃ p, pool.threads[0]? = some p ∧
    Deletion stage subscriptionId pool.state.subscriptions pool.history p
  others : ∀ thread p, pool.threads[thread + 1]? = some p → Other pool.state.subscriptions p
  cleared : Deleted (cacheKey subscriptionId) pool.history →
    ¬ SetAfterDelete (cacheKey subscriptionId) pool.history →
    pool.state.redis.get (cacheKey subscriptionId) = none

section race

variable {stage : Stage ids} {Text : String → Prop} {subscriptionId : String}
  {Other : Collection ids → Promise Unit → Prop} {pool : Pool ids}

/-- The deletion's calls change the collection by a deletion at most. -/
theorem Deletion.subscriptions {history : List (Nat × Call)} {s : Infra ids} {call : Call}
    {next : Except Failure call.Reply → Promise Unit}
    (h : Deletion stage subscriptionId s.subscriptions history (.await call next)) :
    (exec call s).2.subscriptions = s.subscriptions ∨
      ∃ id, (exec call s).2.subscriptions = s.subscriptions.deleteOne id := by
  cases h with
  | leaving h hnot hp =>
    obtain ⟨socketId, room, next', heq, _⟩ := hp
    cases heq
    exact Or.inl rfl
  | finding h hnot hp =>
    obtain ⟨next', heq, _⟩ := hp
    cases heq
    exact Or.inl rfl
  | deleting h hnot hnext => exact Or.inr ⟨_, rfl⟩
  | clearing h hnot hp =>
    obtain ⟨next', heq, _⟩ := hp
    cases heq
    exact Or.inl rfl

theorem Race.advance (hcompatible : Compatible stage Text subscriptionId Other)
    (h : Race stage subscriptionId Other pool) {thread : Nat} {call : Call}
    {next : Except Failure call.Reply → Promise Unit} (hthread : pool.threads[thread]? = some (.await call next)) :
    Race stage subscriptionId Other (pool.advance exec thread call next) := by
  have hget := program.Pool.getElem?_advance exec hthread
  obtain ⟨p, hp, hdeletion⟩ := h.deletion
  cases thread with
  | zero =>
    rw [hthread, Option.some.injEq] at hp
    subst hp
    refine ⟨⟨_, hget 0, hdeletion.advance hcompatible.sound⟩, fun other p hother => ?_, cleared_exec h.cleared 0 call⟩
    rw [hget, if_neg (Nat.succ_ne_zero other)] at hother
    have hold := h.others other p hother
    change Other (exec call pool.state).2.subscriptions p
    obtain hsame | ⟨id, hsame⟩ := hdeletion.subscriptions
    · rwa [hsame]
    · rw [hsame]
      exact hcompatible.deleted id hold
  | succ thread =>
    have hother := h.others thread _ hthread
    have hne : call ≠ .redisDel (cacheKey subscriptionId) := by
      rintro rfl
      exact hcompatible.keeps hother rfl
    refine ⟨⟨p, ?_, hdeletion.kept (hcompatible.kept _ thread hother) (deleted_snoc_of_ne hne)⟩, fun other q hq => ?_,
      cleared_exec h.cleared _ call⟩
    · rw [hget, if_neg (Nat.succ_ne_zero thread).symm]
      exact hp
    · rw [hget] at hq
      by_cases hsame : other + 1 = thread + 1
      · rw [if_pos hsame, Option.some.injEq] at hq
        rw [← hq]
        exact hcompatible.next hother
      · rw [if_neg hsame] at hq
        exact hcompatible.rest hother (h.others other q hq)

theorem Race.step (hcompatible : Compatible stage Text subscriptionId Other)
    (h : Race stage subscriptionId Other pool) (move : Move Expiry) :
    Race stage subscriptionId Other (pool.step move) := by
  rw [Pool.step]
  obtain heq | ⟨thread, call, next, _, hthread, heq⟩ | ⟨key, _, heq⟩ :=
    program.Pool.step_cases exec Infra.expire pool move
  · rw [heq]
    exact h
  · rw [heq]
    exact h.advance hcompatible hthread
  · rw [heq]
    exact ⟨h.deletion, h.others, fun hdeleted hunset => KeyValue.get_delete_eq_none (h.cleared hdeleted hunset) key⟩

/-- Whatever the schedule, the race goes on as one. -/
theorem Race.run (hcompatible : Compatible stage Text subscriptionId Other)
    (h : Race stage subscriptionId Other pool) (schedule : List (Move Expiry)) :
    Race stage subscriptionId Other (pool.run schedule) :=
  program.Pool.run_invariant_all exec Infra.expire schedule h fun _ move _ hq => hq.step hcompatible move

/-- Once the deletion has ended it has cleared the cache and is at its last stage. -/
theorem Race.finished (h : Race stage subscriptionId Other pool) (hfinished : pool.Finished) :
    Deleted (cacheKey subscriptionId) pool.history ∧ stage.after pool.state.subscriptions pool.history := by
  obtain ⟨p, hp, hdeletion⟩ := h.deletion
  have hended := hfinished p (List.mem_of_getElem? hp)
  cases hdeletion with
  | leaving h hnot hp =>
    obtain ⟨_, _, _, rfl, _⟩ := hp
    exact hended.elim
  | finding h hnot hp =>
    obtain ⟨_, rfl, _⟩ := hp
    exact hended.elim
  | deleting h hnot hnext => exact hended.elim
  | clearing h hnot hp =>
    obtain ⟨_, rfl, _⟩ := hp
    exact hended.elim
  | ended h hdeleted => exact ⟨hdeleted, h⟩

/-- The race, and what was set in the cache after the deletion is still there. -/
structure HeldRace (stage : Stage ids) (Text : String → Prop) (subscriptionId : String)
    (Other : Collection ids → Promise Unit → Prop) (pool : Pool ids) : Prop
    extends Race stage subscriptionId Other pool where
  held : SetAfterDelete (cacheKey subscriptionId) pool.history → Held Text (cacheKey subscriptionId) pool.state

theorem Deletion.held {history : List (Nat × Call)} {s : Infra ids} {call : Call}
    {next : Except Failure call.Reply → Promise Unit}
    (h : Deletion stage subscriptionId s.subscriptions history (.await call next))
    (hheld : SetAfterDelete (cacheKey subscriptionId) history → Held Text (cacheKey subscriptionId) s)
    (hset : SetAfterDelete (cacheKey subscriptionId) (history ++ [(0, call)])) :
    Held Text (cacheKey subscriptionId) (exec call s).2 := by
  cases h with
  | leaving h hnot hp =>
    obtain ⟨_, _, _, heq, _⟩ := hp
    cases heq
    exact held_exec hheld trivial 0 hset
  | finding h hnot hp =>
    obtain ⟨_, heq, _⟩ := hp
    cases heq
    exact held_exec hheld trivial 0 hset
  | deleting h hnot hnext => exact held_exec hheld trivial 0 hset
  | clearing h hnot hp =>
    obtain ⟨_, heq, _⟩ := hp
    cases heq
    rw [setAfterDelete_snoc_of_ne (by simp)] at hset
    exact absurd (first_of_after hset) hnot

/-- Without expiry, moves keep what was set after the deletion. -/
theorem HeldRace.step (hcompatible : Compatible stage Text subscriptionId Other)
    (h : HeldRace stage Text subscriptionId Other pool) {move : Move Expiry} (hmove : ∀ key, move ≠ .event key) :
    HeldRace stage Text subscriptionId Other (pool.step move) := by
  refine ⟨h.toRace.step hcompatible move, ?_⟩
  rw [Pool.step]
  obtain heq | ⟨thread, call, next, _, hthread, heq⟩ | ⟨key, hevent, _⟩ :=
    program.Pool.step_cases exec Infra.expire pool move
  · rw [heq]
    exact h.held
  · rw [heq]
    cases thread with
    | zero =>
      obtain ⟨p, hp, hdeletion⟩ := h.deletion
      rw [hthread, Option.some.injEq] at hp
      subst hp
      exact hdeletion.held h.held
    | succ thread => exact held_exec h.held (hcompatible.keeps (h.others thread _ hthread)) _
  · exact absurd hevent (hmove key)

theorem HeldRace.run (hcompatible : Compatible stage Text subscriptionId Other)
    (h : HeldRace stage Text subscriptionId Other pool) {schedule : List (Move Expiry)}
    (hlive : ∀ key, Move.event key ∉ schedule) : HeldRace stage Text subscriptionId Other (pool.run schedule) :=
  program.Pool.run_invariant_all exec Infra.expire schedule h fun _ _ hmove hq =>
    hq.step hcompatible fun key heq => hlive key (heq ▸ hmove)

end race

end node_backend.subscription_service

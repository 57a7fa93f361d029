import NodeBackend.Program.Switch
import NodeBackend.Subscription.Service

namespace node_backend.server_events_controller

open js store program
open node_backend.infra node_backend.exceptions node_backend.subscription_entity node_backend.subscription_service

/-- An event of the stream: the attempt it comes of, with the data or the error. -/
structure ResponseSseInterface where
  timeStamp : Time
  attempt : Nat
  data : Except Failure Value

def eventLimit : Nat := 10

section

variable (host : Host) (clock : Clock) (subscriptionId : String)

/-- GetSubscriptionUseCase.execute. -/
def execute : Promise Value := do
  let subscription ← subscription_service.get host clock subscriptionId
  return subscription.getAttributes

/-- What getSubscription maps an index of the interval to. -/
def attempt (index : Nat) : Promise ResponseSseInterface :=
  let shown : Promise ResponseSseInterface := do
    let subscription ← execute host clock subscriptionId
    return { timeStamp := clock 1, attempt := index + 1, data := .ok subscription }
  shown.tryCatch fun error => pure { timeStamp := clock 1, attempt := index + 1, data := .error error }

/-- Calls that were answered, by the time a computation ended. -/
abbrev History : Type := List (Entry Call Call.Reply Failure)

/-- The cache or the collection answered with a value. -/
inductive Answered (history : History) : Value → Prop
  | cached (text : Option String) (h : ⟨.redisGet (generateKey subscriptionId SUBSCRIPTIONS), .ok text⟩ ∈ history) :
    Answered history (redis_client.reading text)
  | found (foundedSubscription : Option Document)
    (h : ⟨.findOne "subscriptionId" subscriptionId, .ok foundedSubscription⟩ ∈ history) :
    Answered history (foundValue foundedSubscription)

/-- Where an error of an attempt comes from. -/
inductive Failed (history : History) : Failure → Prop
  | notFound (text : Option String)
    (hcached : ⟨.redisGet (generateKey subscriptionId SUBSCRIPTIONS), .ok text⟩ ∈ history)
    (hfalsy : (redis_client.reading text).truthy = false)
    (hfound : ⟨.findOne "subscriptionId" subscriptionId, .ok none⟩ ∈ history) :
    Failed history subscriptionNotFound
  | unprintable (value : Value) (h : Answered subscriptionId history value)
    (hprint : (value.prop "_id").unprintable = true) : Failed history (.typeError cannotConvertToPrimitive)
  | call (call : Call) (error : Failure) (h : ⟨call, .error error⟩ ∈ history) : Failed history error

/-- An event shows one value that the cache or the collection answered with,
or the error that kept the attempt from one. -/
def Shown (history : History) (event : ResponseSseInterface) : Prop :=
  match event.data with
  | .ok data => ∃ value, Answered subscriptionId history value ∧ value.truthy = true ∧
      data = (SubscriptionEntity.new host (clock 0) value).getAttributes
  | .error error => Failed subscriptionId history error

end

variable {subscriptionId : String} {history : History}

theorem Answered.append {value : Value} (h : Answered subscriptionId history value) (later : History) :
    Answered subscriptionId (history ++ later) value := by
  cases h with
  | cached text h => exact .cached text (List.mem_append_left later h)
  | found foundedSubscription h => exact .found foundedSubscription (List.mem_append_left later h)

/-- Any call may reply anything. -/
abbrev anyReply : Step Call Call.Reply Failure History :=
  record fun _ _ => True

theorem ensures_call (call : Call) (history : History) :
    (infra.perform call).Ensures anyReply history (fun reply history' => history' = history ++ [⟨call, .ok reply⟩])
      fun error history' => history' = history ++ [⟨call, .error error⟩] := by
  apply Program.ensures_perform
  · intro reply history' h
    exact h.2
  · intro error history' h
    exact h.2

theorem ensures_getFromCache (history : History) :
    (getFromCache subscriptionId).Ensures anyReply history
      (fun cached history' => ∃ text, cached = redis_client.reading text ∧
        history' = history ++ [⟨.redisGet (generateKey subscriptionId SUBSCRIPTIONS), .ok text⟩])
      fun error history' => Failed subscriptionId history' error := by
  refine (Program.Ensures.mono (ensures_call _ history) (fun _ _ h => h) ?_).bind ?_
  · rintro error _ rfl
    exact .call _ error (List.mem_append_right _ (List.mem_singleton.mpr rfl))
  · rintro text _ rfl
    cases text with
    | none => exact ⟨none, rfl, rfl⟩
    | some text => exact ⟨some text, rfl, rfl⟩

theorem ensures_foundValue (history : History) :
    (foundValue <$> findBySubscriptionId subscriptionId : Promise Value).Ensures anyReply history
      (fun value history' => ∃ foundedSubscription, value = foundValue foundedSubscription ∧
        history' = history ++ [⟨.findOne "subscriptionId" subscriptionId, .ok foundedSubscription⟩])
      fun error history' => Failed subscriptionId history' error := by
  refine (Program.Ensures.mono (ensures_call _ history) (fun _ _ h => h) ?_).bind ?_
  · rintro error _ rfl
    exact .call _ error (List.mem_append_right _ (List.mem_singleton.mpr rfl))
  · rintro foundedSubscription _ rfl
    exact ⟨foundedSubscription, rfl, rfl⟩

theorem ensures_saveOnCache (entity : SubscriptionEntity) (history : History) :
    (saveOnCache subscriptionId entity.getAttributes).Ensures anyReply history
      (fun _ history' => history <+: history') fun error history' => Failed subscriptionId history' error := by
  rw [saveOnCache, redis_client.set_eq rfl]
  refine (Program.Ensures.mono (ensures_call _ history) (fun _ _ h => h) ?_).bind ?_
  · rintro error _ rfl
    exact .call _ error (List.mem_append_right _ (List.mem_singleton.mpr rfl))
  rintro result _ rfl
  refine (Program.Ensures.mono (ensures_call _ _) (fun _ _ h => h) ?_).bind ?_
  · rintro error _ rfl
    exact .call _ error (List.mem_append_right _ (List.mem_singleton.mpr rfl))
  rintro _ _ rfl
  exact (List.prefix_append _ _).trans (List.prefix_append _ _)

/-- A value that was answered becomes the entity, unless its `_id` has no text. -/
theorem ensures_newEntity {host : Host} {clock : Clock} {value : Value} (htruthy : value.truthy = true)
    (h : Answered subscriptionId history value) :
    (do
      let subscription ← newEntity host (clock 0) value
      let _ ← saveOnCache subscriptionId subscription.getAttributes
      return subscription : Promise SubscriptionEntity).Ensures anyReply history
      (fun subscription history' => ∃ value, Answered subscriptionId history' value ∧ value.truthy = true ∧
        subscription = SubscriptionEntity.new host (clock 0) value)
      fun error history' => Failed subscriptionId history' error := by
  cases hprint : (value.prop "_id").unprintable with
  | true =>
    rw [newEntity_of_unprintable host hprint]
    exact .unprintable value h hprint
  | false =>
    rw [newEntity_of_printable host hprint]
    refine (ensures_saveOnCache _ history).bind ?_
    rintro _ _ ⟨later, rfl⟩
    exact ⟨value, h.append later, htruthy, rfl⟩

theorem ensures_get (host : Host) (clock : Clock) (history : History) :
    (subscription_service.get host clock subscriptionId).Ensures anyReply history
      (fun subscription history' => ∃ value, Answered subscriptionId history' value ∧ value.truthy = true ∧
        subscription = SubscriptionEntity.new host (clock 0) value)
      fun error history' => Failed subscriptionId history' error := by
  have hmem : ∀ (history : History) (entry : Entry Call Call.Reply Failure), entry ∈ history ++ [entry] := by
    intro history entry
    exact List.mem_append_right _ (List.mem_singleton.mpr rfl)
  refine (ensures_getFromCache history).bind ?_
  rintro cached _ ⟨text, rfl, rfl⟩
  cases hcached : (redis_client.reading text).truthy with
  | true =>
    rw [if_pos rfl, Program.pure_eq, Program.done_bind]
    beta_reduce
    rw [if_pos hcached]
    exact ensures_newEntity hcached (.cached text (hmem _ _))
  | false =>
    rw [if_neg Bool.false_ne_true]
    refine (ensures_foundValue _).bind ?_
    rintro value _ ⟨foundedSubscription, rfl, rfl⟩
    cases foundedSubscription with
    | none => exact .notFound text (List.mem_append_left _ (hmem _ _)) hcached (hmem _ _)
    | some doc => exact ensures_newEntity rfl (.found (some doc) (hmem _ _))

theorem ensures_execute (host : Host) (clock : Clock) (history : History) :
    (execute host clock subscriptionId).Ensures anyReply history
      (fun data history' => ∃ value, Answered subscriptionId history' value ∧ value.truthy = true ∧
        data = (SubscriptionEntity.new host (clock 0) value).getAttributes)
      fun error history' => Failed subscriptionId history' error := by
  refine (ensures_get host clock history).bind ?_
  rintro subscription history' ⟨value, hanswered, htruthy, rfl⟩
  exact ⟨value, hanswered, htruthy, rfl⟩

/-- No attempt fails: an error becomes an event. -/
theorem ensures_attempt (host : Host) (clock : Clock) (index : Nat) :
    (attempt host clock subscriptionId index).Ensures anyReply []
      (fun event history => event.attempt = index + 1 ∧ Shown host clock subscriptionId history event)
      fun _ _ => False := by
  apply Program.Ensures.tryCatch (R := fun error history' => Failed subscriptionId history' error)
  · refine (ensures_execute host clock []).bind ?_
    intro data history' hdata
    exact ⟨rfl, hdata⟩
  · intro error history' herror
    exact ⟨rfl, herror⟩

section

variable {S Event : Type} (exec : Exec Call Call.Reply Failure S) (apply : Event → S → S) (host : Host)
  (clock : Nat → Clock) (subscriptionId : String) (s : S)

/-- The stream of getSubscription: the interval's indices up to the limit, each switching
to an attempt of its own, while the attempts' calls and other events interleave. -/
def getSubscription (signals : List (Signal Event)) : Switched Call Call.Reply Failure ResponseSseInterface S :=
  Switched.run exec apply (fun index => attempt host (clock index) subscriptionId index) eventLimit (.start s) signals

/-- A call that an attempt awaited was answered after the attempt had been started. -/
def AnsweredIn (signals : List (Signal Event)) (index : Nat) (entry : Entry Call Call.Reply Failure) : Prop :=
  Switched.Observed exec apply (fun index => attempt host (clock index) subscriptionId index) eventLimit (.start s)
    signals index entry

variable {subscriptionId} {signals : List (Signal Event)}

theorem sound_getSubscription : (getSubscription exec apply host clock subscriptionId s signals).Sound
    (fun index => attempt host (clock index) subscriptionId index) eventLimit
    (AnsweredIn exec apply host clock subscriptionId s signals) :=
  Switched.sound_run exec apply _ eventLimit s signals

/-- How an attempt ends, whatever its calls were answered. -/
theorem ended_attempt {host : Host} {clock : Clock} {index : Nat} {history : History} {p : Promise ResponseSseInterface}
    (h : Leads (attempt host clock subscriptionId index) history p) :
    p.Ensures anyReply history
      (fun event history => event.attempt = index + 1 ∧ Shown host clock subscriptionId history event)
      fun _ _ => False := by
  have hany := (ensures_attempt host clock index).leads h
  rw [List.nil_append] at hany
  exact hany fun _ _ _ _ => trivial

/-- The events of a stream, in every order of the attempts' calls and of what else
happens: they come in the order of their attempts, one of an attempt at most and never
more than ten, each shows what the cache or the collection answered during its own
attempt, or its error, and the latest attempt that ended is among them. The stream does
not fail, and takes nothing back. -/
theorem events_of_attempts (signals : List (Signal Event)) :
    let stream := getSubscription exec apply host clock subscriptionId s signals
    stream.failure = none ∧
      (stream.emitted.map (·.2.attempt)).Pairwise (· < ·) ∧
      (∀ entry ∈ stream.emitted, entry.2.attempt = entry.1 + 1 ∧ entry.2.attempt ≤ eventLimit ∧
        ∃ history, (∀ answer ∈ history, AnsweredIn exec apply host clock subscriptionId s signals entry.1 answer) ∧
          Shown host (clock entry.1) subscriptionId history entry.2) ∧
      (stream.subscribed = true → ∀ (i : Nat) event, i + 1 = stream.inners.length →
        stream.inners[i]? = some (.done event) → (i, event) ∈ stream.emitted) ∧
      ∀ more, stream.emitted <+:
        (getSubscription exec apply host clock subscriptionId s (signals ++ more)).emitted := by
  intro stream
  have hsound : stream.Sound _ eventLimit (AnsweredIn exec apply host clock subscriptionId s signals) :=
    sound_getSubscription exec apply host clock s
  have hentry : ∀ entry ∈ stream.emitted, entry.2.attempt = entry.1 + 1 ∧ entry.1 < eventLimit ∧
      ∃ history, (∀ answer ∈ history, AnsweredIn exec apply host clock subscriptionId s signals entry.1 answer) ∧
        Shown host (clock entry.1) subscriptionId history entry.2 := by
    intro entry hentry
    have hdone := hsound.shown entry hentry
    obtain ⟨history, hleads, hhistory⟩ := hsound.led entry.1 _ hdone
    obtain ⟨hattempt, hshown⟩ := ended_attempt hleads
    have hlt := (List.getElem?_eq_some_iff.mp hdone).1
    exact ⟨hattempt, hlt.trans_le hsound.bounded, history, hhistory, hshown⟩
  refine ⟨?_, ?_, ?_, hsound.latest, ?_⟩
  · cases hfailure : stream.failure with
    | none => rfl
    | some error =>
      obtain ⟨i, history, hleads, _⟩ := hsound.failed error hfailure
      exact (ended_attempt hleads).elim
  · have hordered := List.pairwise_map.mp hsound.ordered
    refine List.pairwise_map.mpr (hordered.imp_of_mem ?_)
    intro first second hfirst hsecond hlt
    rw [(hentry first hfirst).1, (hentry second hsecond).1]
    exact Nat.succ_lt_succ hlt
  · intro entry hemitted
    obtain ⟨hattempt, hlt, hshown⟩ := hentry entry hemitted
    refine ⟨hattempt, ?_, hshown⟩
    rw [hattempt]
    exact hlt
  · intro more
    rw [getSubscription, Switched.run_append]
    exact Switched.emitted_run exec apply _ eventLimit _ more

end

end node_backend.server_events_controller

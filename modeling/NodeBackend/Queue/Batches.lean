import NodeBackend.Queue.Delivery

namespace node_backend.events_queue_consumer

open js program
open node_backend.exceptions node_backend.events_queue_handler node_backend.abstract_queue_consumer

/-- What can be seen of the consumer. Messages are known by the number of their batch and
by their place in it. -/
inductive Happening
  | started (batch index : Nat)
  | handled (batch index : Nat)
  | failed (batch index : Nat) (error : Failure)
  | reported (error : Failure) (thrown : Bool)
  | disabled
  | enabled

def Happening.place : Happening → Option (Nat × Nat)
  | started batch index => some (batch, index)
  | handled batch index => some (batch, index)
  | failed batch index _ => some (batch, index)
  | _ => none

/-- A batch whose message at the index is being handled. -/
structure Batch where
  index : Nat
  program : Promise Unit
  rest : List Message

structure EventsQueueConsumer where
  disabled : Bool
  errorsCount : Nat
  batches : List (Option Batch)
  journal : List Happening

def EventsQueueConsumer.start : EventsQueueConsumer := ⟨false, 0, [], []⟩

def EventsQueueConsumer.note (c : EventsQueueConsumer) (happening : Happening) : EventsQueueConsumer :=
  { c with journal := c.journal ++ [happening] }

def resetErrorsCount (c : EventsQueueConsumer) : EventsQueueConsumer :=
  { c with errorsCount := 0 }

/-- From the tenth error on, an error is captured and thrown. -/
def increaseError (error : Failure) (c : EventsQueueConsumer) : EventsQueueConsumer :=
  { c with errorsCount := c.errorsCount + 1 }.note (.reported error (!decide (c.errorsCount + 1 < 10)))

def handleError (error : Failure) (c : EventsQueueConsumer) : EventsQueueConsumer :=
  increaseError error c

def handleTimeoutError (error : Failure) (c : EventsQueueConsumer) : EventsQueueConsumer :=
  increaseError error c

def disable (c : EventsQueueConsumer) : EventsQueueConsumer :=
  { c with disabled := true }.note .disabled

def enable (c : EventsQueueConsumer) : EventsQueueConsumer :=
  { c with disabled := false }.note .enabled

/-- The handler is reached unless the consumer is disabled. -/
def begin (batch index : Nat) (c : EventsQueueConsumer) : EventsQueueConsumer :=
  if c.disabled then c else c.note (.started batch index)

variable (consumer : AbstractQueueConsumer)

/-- The loop over a batch, up to the next call that is awaited. -/
def proceed (batch : Nat) : List Message → Nat → Promise Unit → EventsQueueConsumer → Option Batch × EventsQueueConsumer
  | rest, index, .await call next, c => (some ⟨index, .await call next, rest⟩, c)
  | _, index, .throw error, c => (none, c.note (.failed batch index error))
  | [], index, .done _, c => (none, resetErrorsCount (c.note (.handled batch index)))
  | message :: rest, index, .done _, c =>
    proceed batch rest (index + 1) (handleMessage consumer c.disabled message)
      (begin batch (index + 1) (resetErrorsCount (c.note (.handled batch index))))

def handleMessageBatch (messages : List Message) (c : EventsQueueConsumer) : EventsQueueConsumer :=
  match messages with
  | [] => { c with batches := c.batches ++ [none] }
  | message :: rest =>
    let (batch, c') := proceed consumer c.batches.length rest 0 (handleMessage consumer c.disabled message)
      (begin c.batches.length 0 c)
    { c' with batches := c'.batches ++ [batch] }

/-- The call that a batch awaits is answered, and the loop goes on. -/
def answer (batch : Nat) (under : Batch) (program : Promise Unit) (c : EventsQueueConsumer) : EventsQueueConsumer :=
  let (under', c') := proceed consumer batch under.rest under.index program c
  { c' with batches := c'.batches.set batch under' }

/-- What may happen at any time. A batch that the queue library gives up waiting for goes
on beside the next ones. -/
inductive Happens : EventsQueueConsumer → EventsQueueConsumer → Prop
  | receive (c : EventsQueueConsumer) (messages : List Message) : Happens c (handleMessageBatch consumer messages c)
  | reply {c : EventsQueueConsumer} {batch index : Nat} {rest : List Message} {call : Call}
    {next : Except Failure call.Reply → Promise Unit}
    (hawaits : c.batches[batch]? = some (some ⟨index, .await call next, rest⟩)) (reply : Except Failure call.Reply) :
    Happens c (answer consumer batch ⟨index, .await call next, rest⟩ (next reply) c)
  | error (c : EventsQueueConsumer) (error : Failure) : Happens c (handleError error c)
  | timeoutError (c : EventsQueueConsumer) (error : Failure) : Happens c (handleTimeoutError error c)
  | disable (c : EventsQueueConsumer) : Happens c (disable c)
  | enable (c : EventsQueueConsumer) : Happens c (enable c)

def Reachable (c : EventsQueueConsumer) : Prop :=
  Relation.ReflTransGen (Happens consumer) .start c

/-- Errors since a message was handled. -/
def errorsSince (journal : List Happening) : Nat :=
  journal.foldl (fun count happening =>
    match happening with
    | .handled _ _ => 0
    | .reported _ _ => count + 1
    | _ => count) 0

def disabledAfter (journal : List Happening) : Bool :=
  journal.foldl (fun disabled happening =>
    match happening with
    | .disabled => true
    | .enabled => false
    | _ => disabled) false

/-- The loop over a batch has come to a message that it is not done with: it has handled
the one before, none has failed, and it has got no further. -/
structure At (batch index : Nat) (journal : List Happening) : Prop where
  preceded : index = 0 ∨ .handled batch (index - 1) ∈ journal
  unfinished : ∀ happening ∈ journal, ∀ j, happening.place = some (batch, j) →
    j < index ∨ happening = .started batch index
  unfailed : ∀ j error, .failed batch j error ∉ journal

/-- What may be seen next. -/
def Orderly (journal : List Happening) : Happening → Prop
  | .started batch index =>
    At batch index journal ∧ .started batch index ∉ journal ∧ disabledAfter journal = false
  | .handled batch index => At batch index journal ∧ .started batch index ∈ journal
  | .failed batch index _ =>
    At batch index journal ∧ (.started batch index ∈ journal ∨ disabledAfter journal = true)
  | .reported _ thrown => thrown = decide (10 ≤ errorsSince journal + 1)
  | _ => True

@[simp] theorem errorsSince_snoc (journal : List Happening) (happening : Happening) :
    errorsSince (journal ++ [happening]) =
      match happening with
      | .handled _ _ => 0
      | .reported _ _ => errorsSince journal + 1
      | _ => errorsSince journal := by
  rw [errorsSince, List.foldl_append]
  rfl

@[simp] theorem disabledAfter_snoc (journal : List Happening) (happening : Happening) :
    disabledAfter (journal ++ [happening]) =
      match happening with
      | .disabled => true
      | .enabled => false
      | _ => disabledAfter journal := by
  rw [disabledAfter, List.foldl_append]
  rfl

section place

variable {batch index : Nat} {journal : List Happening}

theorem At.zero (h : ∀ happening ∈ journal, ∀ j, happening.place ≠ some (batch, j)) : At batch 0 journal where
  preceded := Or.inl rfl
  unfinished := by
    intro happening hmem j hplace
    exact (h happening hmem j hplace).elim
  unfailed := by
    intro j error hmem
    exact h _ hmem j rfl

theorem At.fresh (h : At batch index journal) : .started batch (index + 1) ∉ journal := by
  intro hmem
  obtain hlt | heq := h.unfinished _ hmem (index + 1) rfl
  · omega
  · cases heq

theorem At.append (h : At batch index journal) {added : List Happening}
    (hadded : ∀ happening ∈ added, ∀ j, happening.place = some (batch, j) → happening = .started batch index) :
    At batch index (journal ++ added) where
  preceded := h.preceded.imp_right fun hmem => List.mem_append_left added hmem
  unfinished := by
    intro happening hmem j hplace
    obtain hold | hnew := List.mem_append.mp hmem
    · exact h.unfinished happening hold j hplace
    · exact Or.inr (hadded happening hnew j hplace)
  unfailed := by
    intro j error hmem
    obtain hold | hnew := List.mem_append.mp hmem
    · exact h.unfailed j error hold
    · cases hadded _ hnew j rfl

/-- Having handled a message, the loop comes to the next one. -/
theorem At.handled (h : At batch index journal) : At batch (index + 1) (journal ++ [.handled batch index]) where
  preceded := by
    right
    exact List.mem_append_right _ (List.mem_singleton.mpr rfl)
  unfinished := by
    intro happening hmem j hplace
    left
    obtain hold | hnew := List.mem_append.mp hmem
    · obtain hlt | heq := h.unfinished happening hold j hplace
      · omega
      · rw [heq] at hplace
        cases hplace
        omega
    · rw [List.mem_singleton.mp hnew] at hplace
      cases hplace
      omega
  unfailed := by
    intro j error hmem
    obtain hold | hnew := List.mem_append.mp hmem
    · exact h.unfailed j error hold
    · cases List.mem_singleton.mp hnew

end place

/-- The count and the flag are what was seen, and everything was seen in its order. -/
structure Sound (c : EventsQueueConsumer) : Prop where
  counted : c.errorsCount = errorsSince c.journal
  flagged : c.disabled = disabledAfter c.journal
  orderly : Stepwise Orderly c.journal

/-- What one batch adds to the journal. -/
structure Adds (batch : Nat) (c c' : EventsQueueConsumer) : Prop where
  batches : c'.batches = c.batches
  added : ∃ added, c'.journal = c.journal ++ added ∧ ∀ happening ∈ added, ∃ j, happening.place = some (batch, j)

section run

variable {consumer} {batch index : Nat} {c c' c'' : EventsQueueConsumer}

theorem Adds.refl (batch : Nat) (c : EventsQueueConsumer) : Adds batch c c where
  batches := rfl
  added := ⟨[], (List.append_nil _).symm, by simp⟩

theorem Adds.trans (h : Adds batch c c') (h' : Adds batch c' c'') : Adds batch c c'' := by
  obtain ⟨added, hadded, hplaces⟩ := h.added
  obtain ⟨added', hadded', hplaces'⟩ := h'.added
  refine ⟨h'.batches.trans h.batches, added ++ added', by rw [hadded', hadded, List.append_assoc], ?_⟩
  intro happening hmem
  obtain hfirst | hsecond := List.mem_append.mp hmem
  · exact hplaces happening hfirst
  · exact hplaces' happening hsecond

theorem Adds.note {happening : Happening} {j : Nat} (hplace : happening.place = some (batch, j)) :
    Adds batch c (c.note happening) where
  batches := rfl
  added := ⟨[happening], rfl, by simp [hplace]⟩

theorem Sound.failed (h : Sound c) (hat : At batch index c.journal) (error : Failure)
    (hbegun : .started batch index ∈ c.journal ∨ disabledAfter c.journal = true) :
    Sound (c.note (.failed batch index error)) where
  counted := by simpa [EventsQueueConsumer.note] using h.counted
  flagged := by simpa [EventsQueueConsumer.note] using h.flagged
  orderly := stepwise_snoc.mpr ⟨h.orderly, hat, hbegun⟩

theorem Sound.handled (h : Sound c) (hat : At batch index c.journal) (hstarted : .started batch index ∈ c.journal) :
    Sound (resetErrorsCount (c.note (.handled batch index))) where
  counted := by simp [resetErrorsCount, EventsQueueConsumer.note]
  flagged := by simpa [resetErrorsCount, EventsQueueConsumer.note] using h.flagged
  orderly := stepwise_snoc.mpr ⟨h.orderly, hat, hstarted⟩

theorem Sound.increaseError (h : Sound c) (error : Failure) : Sound (increaseError error c) where
  counted := by simpa [events_queue_consumer.increaseError, EventsQueueConsumer.note] using h.counted
  flagged := by simpa [events_queue_consumer.increaseError, EventsQueueConsumer.note] using h.flagged
  orderly := by
    refine stepwise_snoc.mpr ⟨h.orderly, ?_⟩
    rw [Orderly, ← h.counted, ← decide_not]
    exact decide_eq_decide.mpr not_lt

theorem Sound.disable (h : Sound c) : Sound (disable c) where
  counted := by simpa [events_queue_consumer.disable, EventsQueueConsumer.note] using h.counted
  flagged := by simp [events_queue_consumer.disable, EventsQueueConsumer.note]
  orderly := stepwise_snoc.mpr ⟨h.orderly, trivial⟩

theorem Sound.enable (h : Sound c) : Sound (enable c) where
  counted := by simpa [events_queue_consumer.enable, EventsQueueConsumer.note] using h.counted
  flagged := by simp [events_queue_consumer.enable, EventsQueueConsumer.note]
  orderly := stepwise_snoc.mpr ⟨h.orderly, trivial⟩

/-- The handling of a message is under way, or the consumer refuses it. -/
def Underway (batch index : Nat) (program : Promise Unit) (journal : List Happening) : Prop :=
  .started batch index ∈ journal ∨ (disabledAfter journal = true ∧ ∃ error, program = .throw error)

theorem begin_sound (consumer : AbstractQueueConsumer) (h : Sound c) (hat : At batch index c.journal)
    (hfresh : .started batch index ∉ c.journal) (message : Message) :
    Sound (begin batch index c) ∧ At batch index (begin batch index c).journal ∧
      Underway batch index (handleMessage consumer c.disabled message) (begin batch index c).journal ∧
      Adds batch c (begin batch index c) := by
  rw [begin]
  cases hdisabled : c.disabled with
  | true =>
    rw [if_pos rfl]
    refine ⟨h, hat, Or.inr ⟨h.flagged.symm.trans hdisabled, ?_⟩, .refl batch c⟩
    exact ⟨_, if_pos rfl⟩
  | false =>
    rw [if_neg Bool.false_ne_true]
    refine ⟨⟨?_, ?_, ?_⟩, ?_, ?_, .note rfl⟩
    · simpa [EventsQueueConsumer.note] using h.counted
    · simpa [EventsQueueConsumer.note] using h.flagged
    · exact stepwise_snoc.mpr ⟨h.orderly, hat, hfresh, h.flagged.symm.trans hdisabled⟩
    · refine hat.append ?_
      intro happening hmem _ _
      exact List.mem_singleton.mp hmem
    · exact Or.inl (List.mem_append_right _ (List.mem_singleton.mpr rfl))

/-- What the loop over a batch leads to. -/
structure Proceeded (batch : Nat) (c : EventsQueueConsumer) (result : Option Batch × EventsQueueConsumer) : Prop where
  sound : Sound result.2
  adds : Adds batch c result.2
  under : ∀ under, result.1 = some under →
    At batch under.index result.2.journal ∧ .started batch under.index ∈ result.2.journal

theorem proceed_sound (consumer : AbstractQueueConsumer) (rest : List Message) (program : Promise Unit)
    (h : Sound c) (hat : At batch index c.journal)
    (hunderway : Underway batch index program c.journal) :
    Proceeded batch c (proceed consumer batch rest index program c) := by
  induction rest generalizing index program c with
  | nil =>
    cases program with
    | await call next =>
      obtain hstarted | ⟨_, _, hthrow⟩ := hunderway
      · refine ⟨h, .refl batch c, ?_⟩
        rintro under ⟨⟩
        exact ⟨hat, hstarted⟩
      · cases hthrow
    | throw error =>
      refine ⟨h.failed hat error (hunderway.imp_right And.left), .note rfl, ?_⟩
      intro under hunder
      cases hunder
    | done =>
      obtain hstarted | ⟨_, _, hthrow⟩ := hunderway
      · refine ⟨h.handled hat hstarted, ⟨rfl, (Adds.note (c := c) rfl).added⟩, ?_⟩
        intro under hunder
        cases hunder
      · cases hthrow
  | cons message rest ih =>
    cases program with
    | await call next =>
      obtain hstarted | ⟨_, _, hthrow⟩ := hunderway
      · refine ⟨h, .refl batch c, ?_⟩
        rintro under ⟨⟩
        exact ⟨hat, hstarted⟩
      · cases hthrow
    | throw error =>
      refine ⟨h.failed hat error (hunderway.imp_right And.left), .note rfl, ?_⟩
      intro under hunder
      cases hunder
    | done =>
      obtain hstarted | ⟨_, _, hthrow⟩ := hunderway
      · have hhandled := h.handled hat hstarted
        have hfresh : .started batch (index + 1) ∉ c.journal ++ [.handled batch index] := by
          simpa using hat.fresh
        obtain ⟨hsound, hat', hunderway', hadds⟩ :=
          begin_sound consumer hhandled hat.handled hfresh message
        obtain ⟨hend, hadds', hunder⟩ := ih _ hsound hat' hunderway'
        have hfirst : Adds batch c (resetErrorsCount (c.note (.handled batch index))) :=
          ⟨rfl, (Adds.note (c := c) rfl).added⟩
        exact ⟨hend, (hfirst.trans hadds).trans hadds', hunder⟩
      · cases hthrow

/-- The consumer's state tells what its journal does, and each batch under way is at the
message that it waits for. -/
structure Tracks (c : EventsQueueConsumer) : Prop where
  sound : Sound c
  known : ∀ happening ∈ c.journal, ∀ n i, happening.place = some (n, i) → n < c.batches.length
  under : ∀ (n : Nat) (under : Batch), c.batches[n]? = some (some under) →
    At n under.index c.journal ∧ .started n under.index ∈ c.journal

/-- What one batch adds leaves the others where they are. -/
theorem Tracks.proceeded (h : Tracks c) {result : Option Batch × EventsQueueConsumer}
    (hproceeded : Proceeded batch c result) {batches : List (Option Batch)} (hbatch : batch < batches.length)
    (hlength : c.batches.length ≤ batches.length) (hself : batches[batch]? = some result.1)
    (hothers : ∀ (n : Nat) (under : Batch), n ≠ batch → batches[n]? = some (some under) →
      c.batches[n]? = some (some under)) : Tracks { result.2 with batches := batches } := by
  obtain ⟨added, hadded, hplaces⟩ := hproceeded.adds.added
  refine ⟨⟨hproceeded.sound.counted, hproceeded.sound.flagged, hproceeded.sound.orderly⟩, ?_, ?_⟩
  · intro happening hmem n i hplace
    dsimp only at hmem ⊢
    rw [hadded] at hmem
    obtain hold | hnew := List.mem_append.mp hmem
    · exact (h.known happening hold n i hplace).trans_le hlength
    · obtain ⟨j, hj⟩ := hplaces happening hnew
      rw [hj] at hplace
      cases hplace
      exact hbatch
  · intro n under hunder
    dsimp only at hunder ⊢
    by_cases hn : n = batch
    · subst hn
      rw [hself] at hunder
      exact hproceeded.under under (Option.some.inj hunder)
    · obtain ⟨hat, hstarted⟩ := h.under n under (hothers n under hn hunder)
      rw [hadded]
      refine ⟨hat.append ?_, List.mem_append_left added hstarted⟩
      intro happening hnew j hplace
      obtain ⟨i, hi⟩ := hplaces happening hnew
      rw [hi] at hplace
      cases hplace
      exact (hn rfl).elim

theorem getElem?_of_snoc {batches : List (Option Batch)} {last : Option Batch} {n : Nat} {under : Batch}
    (hn : n ≠ batches.length) (h : (batches ++ [last])[n]? = some (some under)) :
    batches[n]? = some (some under) := by
  have hlt := (List.getElem?_eq_some_iff.mp h).1
  rw [List.length_append, List.length_singleton] at hlt
  rwa [List.getElem?_append_left (by omega)] at h

theorem Tracks.receive (h : Tracks c) (messages : List Message) : Tracks (handleMessageBatch consumer messages c) := by
  cases messages with
  | nil =>
    refine ⟨⟨h.sound.counted, h.sound.flagged, h.sound.orderly⟩, ?_, ?_⟩
    · intro happening hmem n i hplace
      have hlt := h.known happening hmem n i hplace
      simp only [handleMessageBatch, List.length_append, List.length_singleton]
      omega
    · intro n under hunder
      refine h.under n under (getElem?_of_snoc ?_ hunder)
      rintro rfl
      simp [handleMessageBatch] at hunder
  | cons message rest =>
    have hnew : ∀ happening ∈ c.journal, ∀ j, happening.place ≠ some (c.batches.length, j) := by
      intro happening hmem j hplace
      exact (h.known happening hmem _ j hplace).false
    have hfresh : .started c.batches.length 0 ∉ c.journal := by
      intro hmem
      exact hnew _ hmem 0 rfl
    obtain ⟨hsound, hat, hunderway, hadds⟩ := begin_sound consumer h.sound (.zero hnew) hfresh message
    have hproceeded : Proceeded c.batches.length c (proceed consumer c.batches.length rest 0
        (handleMessage consumer c.disabled message) (begin c.batches.length 0 c)) := by
      obtain ⟨hend, hadds', hunder⟩ := proceed_sound consumer rest _ hsound hat hunderway
      exact ⟨hend, hadds.trans hadds', hunder⟩
    have hbatches := hproceeded.adds.batches
    refine h.proceeded hproceeded ?_ ?_ ?_ ?_
    · rw [hbatches, List.length_append, List.length_singleton]
      exact Nat.lt_succ_self _
    · rw [hbatches, List.length_append]
      exact Nat.le_add_right _ _
    · rw [hbatches]
      exact List.getElem?_concat_length
    · intro n under hn hunder
      rw [hbatches] at hunder
      exact getElem?_of_snoc hn hunder

theorem Tracks.answer (h : Tracks c) {under : Batch} (hunder : c.batches[batch]? = some (some under))
    (program : Promise Unit) : Tracks (answer consumer batch under program c) := by
  obtain ⟨hat, hstarted⟩ := h.under batch under hunder
  have hproceeded := proceed_sound consumer under.rest program h.sound hat (Or.inl hstarted)
  have hbatches := hproceeded.adds.batches
  have hlt := (List.getElem?_eq_some_iff.mp hunder).1
  refine h.proceeded hproceeded ?_ ?_ ?_ ?_
  · rw [hbatches, List.length_set]
    exact hlt
  · rw [hbatches, List.length_set]
  · rw [hbatches]
    exact List.getElem?_set_self hlt
  · intro n other hn hother
    rw [hbatches] at hother
    rwa [List.getElem?_set_ne hn.symm] at hother

/-- A happening that is of no batch. -/
theorem Tracks.note (h : Tracks c) {happening : Happening} (hplace : happening.place = none)
    (hsound : Sound c') (hbatches : c'.batches = c.batches) (hjournal : c'.journal = c.journal ++ [happening]) :
    Tracks c' := by
  refine ⟨hsound, ?_, ?_⟩
  · intro other hmem n i hother
    rw [hjournal] at hmem
    rw [hbatches]
    obtain hold | hnew := List.mem_append.mp hmem
    · exact h.known other hold n i hother
    · rw [List.mem_singleton.mp hnew, hplace] at hother
      cases hother
  · intro n under hunder
    rw [hbatches] at hunder
    obtain ⟨hat, hstarted⟩ := h.under n under hunder
    rw [hjournal]
    refine ⟨hat.append ?_, List.mem_append_left _ hstarted⟩
    intro other hmem j hother
    rw [List.mem_singleton.mp hmem, hplace] at hother
    cases hother

theorem Tracks.step (h : Tracks c) (hhappens : Happens consumer c c') : Tracks c' := by
  cases hhappens with
  | receive messages => exact h.receive messages
  | reply hawaits reply => exact h.answer hawaits _
  | error error => exact h.note rfl (h.sound.increaseError error) rfl rfl
  | timeoutError error => exact h.note rfl (h.sound.increaseError error) rfl rfl
  | disable => exact h.note rfl h.sound.disable rfl rfl
  | enable => exact h.note rfl h.sound.enable rfl rfl

theorem Reachable.tracks (h : Reachable consumer c) : Tracks c := by
  induction h with
  | refl => exact ⟨⟨rfl, rfl, .of_forall (by simp [EventsQueueConsumer.start])⟩, by simp [EventsQueueConsumer.start],
      by simp [EventsQueueConsumer.start]⟩
  | tail _ hhappens ih => exact ih.step hhappens

/-- Whatever happens to the consumer, the messages of a batch are handled one after another:
each is started once, while the consumer is enabled, and only after the one before it was
handled. With a message that fails its batch ends, and an error is thrown exactly from the
tenth on that was reported since a message was handled. -/
theorem journal_orderly (h : Reachable consumer c) : Stepwise Orderly c.journal :=
  h.tracks.sound.orderly

end run

/-- A consumer that was told of an error, and that was disabled while it handled the second
message of a batch. -/
def afterTwo (error : Failure) : EventsQueueConsumer where
  disabled := true
  errorsCount := 0
  batches := [none]
  journal := [.reported error false, .started 0 0, .handled 0 0, .started 0 1, .disabled, .handled 0 1]

/-- A message is handled by two calls, and so is the next one of its batch. -/
theorem reachable_afterTwo {consumer : AbstractQueueConsumer} {message : Message} {call call' : Call}
    {next : Except Failure call.Reply → Promise Unit} {next' : Except Failure call'.Reply → Promise Unit}
    {reply : Except Failure call.Reply} {reply' : Except Failure call'.Reply}
    (hfirst : handleMessage consumer false message = .await call next) (hsecond : next reply = .await call' next')
    (hdone : next' reply' = .done ()) (error : Failure) : Reachable consumer (afterTwo error) := by
  have hreported : Happens consumer .start ⟨false, 1, [], [.reported error false]⟩ := .error .start error
  have hreceived : Happens consumer ⟨false, 1, [], [.reported error false]⟩
      ⟨false, 1, [some ⟨0, .await call next, [message]⟩], [.reported error false, .started 0 0]⟩ := by
    have h : Happens consumer _ _ := .receive ⟨false, 1, [], [.reported error false]⟩ [message, message]
    rw [handleMessageBatch, hfirst] at h
    exact h
  have hanswered := @Happens.reply consumer ⟨false, 1, [some ⟨0, .await call next, [message]⟩],
    [.reported error false, .started 0 0]⟩ 0 0 _ _ _ rfl reply
  rw [hsecond] at hanswered
  have hhandled := @Happens.reply consumer ⟨false, 1, [some ⟨0, .await call' next', [message]⟩],
    [.reported error false, .started 0 0]⟩ 0 0 _ _ _ rfl reply'
  rw [hdone, answer, proceed, hfirst] at hhandled
  have hdisabled : Happens consumer _ _ := .disable ⟨false, 0, [some ⟨1, .await call next, []⟩],
    [.reported error false, .started 0 0, .handled 0 0, .started 0 1]⟩
  have hansweredToo := @Happens.reply consumer ⟨true, 0, [some ⟨1, .await call next, []⟩],
    [.reported error false, .started 0 0, .handled 0 0, .started 0 1, .disabled]⟩ 0 1 _ _ _ rfl reply
  rw [hsecond] at hansweredToo
  have hhandledToo := @Happens.reply consumer ⟨true, 0, [some ⟨1, .await call' next', []⟩],
    [.reported error false, .started 0 0, .handled 0 0, .started 0 1, .disabled]⟩ 0 1 _ _ _ rfl reply'
  rw [hdone] at hhandledToo
  exact ((((((Relation.ReflTransGen.single hreported).tail hreceived).tail hanswered).tail hhandled).tail
    hdisabled).tail hansweredToo).tail hhandledToo

theorem journal_orderly_afterTwo :
    Reachable broadcastConsumer (afterTwo (.plain { message := "socket hang up" })) ∧
      Stepwise Orderly (afterTwo (.plain { message := "socket hang up" })).journal := by
  obtain ⟨next, next', hsent, hdeleted, hdone⟩ : ∃ next next', handleMessage broadcastConsumer false broadcastMessage =
      .await (.send .broadcast [ofJson broadcastBody]) next ∧
      next (.ok true) = .await (.deleteMessage "q" "r") next' ∧ next' (.ok (some 200)) = .done () := by
    unfold handleMessage execute process
    rw [payloadOf_broadcastMessage]
    exact ⟨_, _, rfl, rfl, rfl⟩
  have hreachable := reachable_afterTwo hsent hdeleted hdone (.plain { message := "socket hang up" })
  exact ⟨hreachable, journal_orderly hreachable⟩

end node_backend.events_queue_consumer

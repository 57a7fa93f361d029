import NodeBackend.Queue.Delivery

namespace node_backend.abstract_queue_consumer

open js program
open node_backend.exceptions node_backend.events_queue_handler

variable {consumer : AbstractQueueConsumer}

theorem ofDelivery_append (n : Nat) (first second : List (Nat × Record)) :
    ofDelivery n (first ++ second) = ofDelivery n first ++ ofDelivery n second := by
  unfold ofDelivery
  rw [List.filter_append, List.map_append]

theorem ofDelivery_cons_self (n : Nat) (entry : Record) (log : List (Nat × Record)) :
    ofDelivery n ((n, entry) :: log) = entry :: ofDelivery n log := by
  simp [ofDelivery]

theorem ofDelivery_singleton_of_ne {n m : Nat} (h : m ≠ n) (entry : Record) : ofDelivery n [(m, entry)] = [] := by
  simp [ofDelivery, h]

theorem ofDelivery_eq_nil {n : Nat} {log : List (Nat × Record)} (h : ∀ line ∈ log, line.1 < n) :
    ofDelivery n log = [] := by
  unfold ofDelivery
  rw [List.filter_eq_nil_iff.mpr, List.map_nil]
  intro line hline
  have hlt := h line hline
  simp [hlt.ne]

/-- Every delivery is where the replies to its calls have led it. -/
structure Traced (consumer : AbstractQueueConsumer) (w : Worker) : Prop where
  known : ∀ line ∈ w.log, line.1 < w.deliveries.length
  leads : ∀ (n : Nat) (delivery : Delivery), w.deliveries[n]? = some delivery →
    Leads (deliver consumer delivery.disabled delivery.message) (ofDelivery n w.log) delivery.program

theorem Traced.receive {w : Worker} (h : Traced consumer w) (message : Message) : Traced consumer
    { w with deliveries := w.deliveries ++ [⟨message, w.disabled, deliver consumer w.disabled message⟩] } where
  known := by
    intro line hline
    have hlt := h.known line hline
    rw [List.length_append]
    omega
  leads := by
    intro n delivery hdelivery
    rw [List.getElem?_append] at hdelivery
    split at hdelivery
    · exact h.leads n delivery hdelivery
    · rename_i hlength
      obtain ⟨hlt, hnew⟩ := List.getElem?_eq_some_iff.mp hdelivery
      cases List.mem_singleton.mp (List.mem_of_getElem hnew)
      change Leads _ (ofDelivery n w.log) _
      rw [ofDelivery_eq_nil fun line hline => (h.known line hline).trans_le (not_lt.mp hlength)]
      exact .nil _

theorem Traced.reply {w : Worker} (h : Traced consumer w) {n : Nat} {message : Message} {disabled : Bool} {call : Call}
    {next : Except Failure call.Reply → Promise Unit}
    (hawaits : w.deliveries[n]? = some ⟨message, disabled, .await call next⟩) (reply : Except Failure call.Reply) :
    Traced consumer
      { w with
        deliveries := w.deliveries.set n ⟨message, disabled, next reply⟩
        log := w.log ++ [(n, ⟨call, reply⟩)] } where
  known := by
    intro line hline
    rw [List.length_set]
    obtain hold | hnew := List.mem_append.mp hline
    · exact h.known line hold
    · rw [List.mem_singleton.mp hnew]
      exact (List.getElem?_eq_some_iff.mp hawaits).1
  leads := by
    intro m delivery hdelivery
    change Leads _ (ofDelivery m (w.log ++ [(n, ⟨call, reply⟩)])) _
    rw [ofDelivery_append]
    by_cases hsame : n = m
    · subst hsame
      rw [List.getElem?_set_self (List.getElem?_eq_some_iff.mp hawaits).1] at hdelivery
      cases hdelivery
      rw [ofDelivery_cons_self]
      exact (h.leads n _ hawaits).snoc reply
    · rw [List.getElem?_set_ne hsame] at hdelivery
      rw [ofDelivery_singleton_of_ne hsame, List.append_nil]
      exact h.leads m delivery hdelivery

theorem Reachable.traced {w : Worker} (h : Reachable consumer w) : Traced consumer w := by
  induction h with
  | refl => exact ⟨by simp [Worker.start], by simp [Worker.start]⟩
  | tail _ hhappens ih =>
    cases hhappens with
    | disable => exact ⟨ih.known, ih.leads⟩
    | enable => exact ⟨ih.known, ih.leads⟩
    | receive message => exact ih.receive message
    | reply hawaits reply => exact ih.reply hawaits reply

/-- No message is lost: whatever happens to the consumer, a message is deleted from the
queue only after the same delivery handled or stored it. -/
theorem deleted_after_kept {w : Worker} (h : Reachable consumer w) :
    Stepwise (fun before line => Deletes line.2 → ∃ delivery, w.deliveries[line.1]? = some delivery ∧
      line.2.call = .deleteMessage consumer.queueUrl (delivery.message.receiptHandle.getD "undefined") ∧
      (Handled consumer delivery.disabled delivery.message (ofDelivery line.1 before) ∨
        ∃ stored ∈ ofDelivery line.1 before, Inserts delivery.message stored)) w.log := by
  rintro before ⟨n, entry⟩ after hlog hdeletes
  have htraced := h.traced
  obtain ⟨delivery, hdelivery⟩ : ∃ delivery, w.deliveries[n]? = some delivery :=
    ⟨_, List.getElem?_eq_getElem (htraced.known (n, entry) (by simp [hlog]))⟩
  have hkept := kept_of_leads (htraced.leads n delivery hdelivery)
  have hcalls : ofDelivery n w.log = ofDelivery n before ++ entry :: ofDelivery n after := by
    rw [hlog, ofDelivery_append, ofDelivery_cons_self]
  exact ⟨delivery, hdelivery, hkept.deletion _ _ _ hcalls hdeletes⟩

/-- The consumer once it has handled and deleted the broadcast. -/
def deletedBroadcast : Worker where
  disabled := false
  deliveries := [⟨broadcastMessage, false, .done ()⟩]
  log := [(0, ⟨.send .broadcast [ofJson broadcastBody], .ok true⟩), (0, ⟨.deleteMessage "q" "r", .ok (some 200)⟩)]

theorem reachable_deletedBroadcast : Reachable broadcastConsumer deletedBroadcast := by
  have hdeliver : ∃ next next', deliver broadcastConsumer false broadcastMessage =
      .await (.send .broadcast [ofJson broadcastBody]) next ∧
      next (.ok true) = .await (.deleteMessage "q" "r") next' ∧ next' (.ok (some 200)) = .done () := by
    unfold deliver handleMessage execute process
    rw [payloadOf_broadcastMessage]
    exact ⟨_, _, rfl, rfl, rfl⟩
  obtain ⟨next, next', hfirst, hsecond, hlast⟩ := hdeliver
  have hreceived : Happens broadcastConsumer Worker.start _ := .receive Worker.start broadcastMessage
  have hawaits : (⟨false, [⟨broadcastMessage, false, deliver broadcastConsumer false broadcastMessage⟩], []⟩ :
      Worker).deliveries[0]? = some ⟨broadcastMessage, false,
        .await (.send .broadcast [ofJson broadcastBody]) next⟩ := by
    rw [hfirst]
    rfl
  have hhandled : (⟨false, [⟨broadcastMessage, false, next (.ok true)⟩],
      [(0, ⟨.send .broadcast [ofJson broadcastBody], .ok true⟩)]⟩ : Worker).deliveries[0]? =
        some ⟨broadcastMessage, false, .await (.deleteMessage "q" "r") next'⟩ := by
    rw [hsecond]
    rfl
  have hserved := @Happens.reply broadcastConsumer _ _ _ _ _ _ hawaits (.ok true)
  have hdeleted := @Happens.reply broadcastConsumer _ _ _ _ _ _ hhandled (.ok (some 200))
  unfold deletedBroadcast
  rw [← hlast]
  exact ((Relation.ReflTransGen.single hreceived).tail hserved).tail hdeleted

theorem deleted_after_kept_broadcast :
    Stepwise (fun before line => Deletes line.2 → ∃ delivery, deletedBroadcast.deliveries[line.1]? = some delivery ∧
      line.2.call = .deleteMessage broadcastConsumer.queueUrl (delivery.message.receiptHandle.getD "undefined") ∧
      (Handled broadcastConsumer delivery.disabled delivery.message (ofDelivery line.1 before) ∨
        ∃ stored ∈ ofDelivery line.1 before, Inserts delivery.message stored)) deletedBroadcast.log :=
  deleted_after_kept reachable_deletedBroadcast

end node_backend.abstract_queue_consumer

import NodeBackend.Hook.Exact
import NodeBackend.Queue.Effects
import NodeBackend.Queue.Features

namespace node_backend.webhook_service

open js store program
open node_backend.exceptions node_backend.events_queue_handler
open node_backend.feature_flags (Arrival)

/-- What the application is configured with. -/
structure Setting where
  parser : DateParser
  redis : Redis
  baseUrl : String
  handler : EventsQueueHandler

/-- The cache, and the requests that were made so far, each with the key of its hook. -/
structure Hooks where
  cache : KeyValue
  requested : List (String × HookRequest)

/-- A message that is handled, with the time that pullHook reads, the requests that fail,
and the order in which the operations go on that it starts. -/
structure Handling where
  arrival : Arrival
  now : Now
  faults : Faults
  turns : List Nat
  onlyRequests : faults.OnlyRequests

/-- What happens to the hooks. -/
inductive HookEvent
  | register (uuid : Uuid) (query : RegisterEventHookInterface)
  | handle (handling : Handling)
  | expire (key : String)

structure HookResponse where
  status : Nat
  statusMessage : String

/-- HookController.registerEventHook. -/
def registerEventHook (parser : DateParser) (uuid : String) (query : RegisterEventHookInterface) :
    infra.Promise HookResponse :=
  let resourceName := "Hook event register"
  if query.responseSchema ≠ "" then do
    let _ ← save parser uuid query.responseSchema query.toValue
    return ⟨201, resourceName ++ " created successfully."⟩
  else return ⟨406, resourceName ++ " is not acceptable!"⟩

def Operation.sent : Operation → Option (String × HookRequest)
  | request key hookRequest => some (key, hookRequest)
  | delete _ => none

variable (setting : Setting)

/-- What pullHook starts, and how far that has come. -/
def Handling.pull (handling : Handling) (hookSchema : String) (data : Value) (cache : KeyValue) : Pull :=
  pulled setting.parser setting.redis setting.baseUrl handling.now hookSchema data cache

def Handling.pool (handling : Handling) (hookSchema : String) (data : Value) (cache : KeyValue) : Pool :=
  (handling.pull setting hookSchema data cache).after setting.redis handling.faults cache handling.turns

def Handling.outcome (handling : Handling) (hookSchema : String) (data : Value) (cache : KeyValue) :
    Option (Except Failure Unit) :=
  (handling.pull setting hookSchema data cache).outcome (handling.pool setting hookSchema data cache)

def Handling.affect (handling : Handling) (call : events_queue_handler.Call) (s : Hooks) : Hooks :=
  match call with
  | .pullHook hookSchema data =>
    { cache := (handling.pool setting hookSchema data s.cache).cache
      requested := s.requested ++ (handling.pull setting hookSchema data s.cache).started.filterMap Operation.sent }
  | _ => s

/-- The calls of a message that is handled: hooks are pulled, and other components reply
as they do. -/
def Handling.exec (handling : Handling) (n : Nat) :
    Exec events_queue_handler.Call events_queue_handler.Call.Reply Failure Hooks
  | .pullHook hookSchema data, s =>
    ((handling.outcome setting hookSchema data s.cache).getD (.ok ()),
      handling.affect setting (.pullHook hookSchema data) s)
  | call, s => (handling.arrival.reply n call, s)

def HookEvent.step (s : Hooks) : HookEvent → Hooks
  | register uuid query =>
    let stores : infra.Infra IdSource.counting := { infra.Infra.empty with redis := s.cache }
    { s with cache := (Program.run infra.exec (registerEventHook setting.parser uuid.text query) stores).2.redis }
  | handle handling =>
    (Program.runFrom (handling.exec setting) 0 (execute setting.handler handling.arrival.message) s).2
  | expire key => { s with cache := s.cache.delete key }

/-- What a run leaves. -/
def hooksAfter (events : List HookEvent) : Hooks :=
  events.foldl (HookEvent.step setting) ⟨KeyValue.empty, []⟩

/-- The requests that were made for the hook under a key. -/
def requestsUnder (key : String) (requested : List (String × HookRequest)) : List HookRequest :=
  (requested.filter fun entry => entry.1 == key).map Prod.snd

section board

theorem Saves.distinct_concat (saves : Saves) {saved : Saved}
    (h : saved.uuid.text ∉ saves.list.map fun saved => saved.uuid.text) :
    ((saves.list ++ [saved]).map fun saved => saved.uuid.text).Nodup := by
  rw [List.map_append, List.map_singleton, List.nodup_append]
  refine ⟨saves.distinct, List.nodup_singleton _, fun text htext other hother hsame => h ?_⟩
  rw [← List.mem_singleton.mp hother, ← hsame]
  exact htext

theorem Saves.distinct_filter (saves : Saves) (p : Saved → Bool) :
    ((saves.list.filter p).map fun saved => saved.uuid.text).Nodup :=
  saves.distinct.sublist (List.filter_sublist.map _)

/-- Hooks with one more, where its identifier is not taken. -/
def Saves.add (saves : Saves) (saved : Saved) : Saves :=
  if h : saved.uuid.text ∈ saves.list.map fun saved => saved.uuid.text then saves
  else ⟨saves.list ++ [saved], saves.distinct_concat h⟩

def Saves.filter (saves : Saves) (p : Saved → Bool) : Saves :=
  ⟨saves.list.filter p, saves.distinct_filter p⟩

/-- The hooks that wait, and the requests that were made. -/
structure Board where
  pending : Saves
  requested : List (String × HookRequest)

/-- A hook is called for by an event once it is due, if it was registered for that event or
for a schema that goes on after it and a colon. -/
def Saved.called (now : Now) (saved : Saved) : Bool :=
  saved.hook.Due now && (NEW_HOOK == saved.hook.responseSchema ||
    decide (NEW_HOOK.toList ++ [':'] <+: saved.hook.responseSchema.toList))

/-- The requests of the hooks that are called for. -/
def requestsFor (baseUrl : String) (now : Now) (data : Value) (list : List Saved) : List (String × HookRequest) :=
  (list.filter (Saved.called now)).filterMap fun saved => (saved.hook.request baseUrl data).map (saved.key, ·)

/-- The payload of a message that parses as JSON, satisfies the schema of events and tells
of a new hook. -/
def heard (handler : EventsQueueHandler) (message : Message) : Option Value := do
  let body ← message.body
  let parsed ← json.parse body
  let value ← (handler.eventPayloadSchema (ofJson parsed)).toOption
  if value.schema = .domainEvent ∧ value.event = NEW_HOOK then some value.payload else none

/-- What an event means: a hook waits until it expires or is called for. It is then
requested with the payload of the event, once. -/
def Board.step (board : Board) : HookEvent → Board
  | .register uuid query =>
    if query.responseSchema = "" then board else { board with pending := board.pending.add ⟨uuid, query⟩ }
  | .handle handling =>
    match heard setting.handler handling.arrival.message with
    | none => board
    | some data =>
      { pending := board.pending.filter fun saved => !saved.called handling.now
        requested := board.requested ++ requestsFor setting.baseUrl handling.now data board.pending.list }
  | .expire key => { board with pending := board.pending.filter (·.key != key) }

def boardAfter (events : List HookEvent) : Board :=
  events.foldl (Board.step setting) ⟨⟨[], List.nodup_nil⟩, []⟩

end board

section cache

variable (parser : DateParser)

theorem entries_saveAll {list : List Saved} (hdistinct : (list.map fun saved => saved.uuid.text).Nodup) :
    (saveAll parser list).redis.entries = list.map fun saved => (saved.key, savedText saved.hook) := by
  induction list using List.reverseRecOn with
  | nil => rfl
  | append_singleton list saved ih =>
    rw [List.map_append, List.map_singleton] at hdistinct
    have hbefore := ih (List.Nodup.of_append_left hdistinct)
    have hfresh : saved.key ∉ (saveAll parser list).redis.entries.map Prod.fst := by
      rw [hbefore, List.map_map]
      intro hmem
      obtain ⟨other, hother, hsame⟩ := List.mem_map.mp hmem
      apply List.disjoint_of_nodup_append hdistinct (List.mem_map_of_mem hother)
      rw [List.mem_singleton]
      exact (hookKey_injective hsame).2
    unfold saveAll at hfresh hbefore ⊢
    rw [List.foldl_concat, run_save, List.map_append, ← hbefore]
    exact json.setField_of_not_mem _ hfresh

/-- A deleted hook leaves the cache as if it had not been saved. -/
theorem Saves.cache_delete (saves : Saves) (key : String) :
    (saves.cache parser).delete key = (saves.filter (·.key != key)).cache parser := by
  have hentries : ((saves.cache parser).delete key).entries = ((saves.filter (·.key != key)).cache parser).entries := by
    change (saveAll parser saves.list).redis.entries.filter _ = (saveAll parser (saves.list.filter _)).redis.entries
    rw [entries_saveAll parser saves.distinct, entries_saveAll parser (saves.distinct_filter _), List.filter_map]
    rfl
  exact KeyValue.eq_of_entries_eq hentries

/-- So do several ones. -/
theorem Saves.cache_foldl_delete (saves : Saves) (keys : List String) :
    keys.foldl KeyValue.delete (saves.cache parser) =
      (saves.filter fun saved => decide (saved.key ∉ keys)).cache parser := by
  induction keys generalizing saves with
  | nil => simp [Saves.filter]
  | cons key rest ih =>
    rw [List.foldl_cons, saves.cache_delete, ih]
    simp only [Saves.filter, List.filter_filter]
    congr 3
    funext saved
    by_cases hkey : saved.key = key
    · simp [hkey]
    · simp [hkey, bne_iff_ne]

theorem Saves.cache_add (saves : Saves) {saved : Saved}
    (h : saved.uuid.text ∉ saves.list.map fun saved => saved.uuid.text) :
    (saves.add saved).cache parser = (saves.cache parser).set saved.key (savedText saved.hook) := by
  rw [Saves.add, dif_neg h, Saves.cache, saveAll, List.foldl_concat, run_save]
  rfl

end cache

theorem serve_cases (redis : Redis) (faults : Faults) (n : Nat) (call : Call) (kv : KeyValue) :
    (serve redis faults n call kv).2 = kv ∨ ∃ key, (serve redis faults n call kv).2 = kv.delete key := by
  unfold serve
  cases faults n call with
  | some failure => exact Or.inl rfl
  | none =>
    cases call with
    | redisDel key => exact Or.inr ⟨key, rfl⟩
    | _ => exact Or.inl rfl

/-- Operations that go on delete keys and do nothing else to the cache. -/
theorem Pull.cache_after (pull : Pull) (redis : Redis) (faults : Faults) (kv : KeyValue) (turns : List Nat) :
    ∃ keys : List String, (pull.after redis faults kv turns).cache = keys.foldl KeyValue.delete kv := by
  refine program.Pool.afterTurns_invariant (P := fun pool => ∃ keys : List String,
    Pool.cache pool = keys.foldl KeyValue.delete kv) ⟨[], rfl⟩ ?_ turns
  rintro pool thread call next ⟨keys, hkeys⟩ _
  rw [cache_advance]
  obtain hsame | ⟨key, hdeleted⟩ := serve_cases redis faults pool.state.1 call (Pool.cache pool)
  · exact ⟨keys, hsame.trans hkeys⟩
  · refine ⟨keys ++ [key], ?_⟩
    rw [hdeleted, hkeys, List.foldl_concat]

/-- A message does to the hooks what pullHook does for the payload that is heard. -/
theorem effect_heard {setting : Setting} (hschema : RejectsNull setting.handler.eventPayloadSchema)
    (handling : Handling) (message : Message) (s : Hooks) :
    effect (handling.affect setting) (callOf setting.handler message) s =
      (heard setting.handler message).elim s fun data => handling.affect setting (.pullHook NEW_HOOK data) s := by
  have hheard : heard setting.handler message = (payloadOf setting.handler message).toOption.bind fun value =>
      if value.schema = .domainEvent ∧ value.event = NEW_HOOK then some value.payload else none := by
    rw [feature_flags.payloadOf_toOption hschema]
    unfold heard
    cases message.body with
    | none => rfl
    | some body =>
      change (json.parse body).bind _ = ((json.parse body).bind _).bind _
      cases json.parse body <;> rfl
  rw [hheard, callOf]
  cases payloadOf setting.handler message with
  | error failure => rfl
  | ok value =>
    change effect (handling.affect setting) (callFor setting.handler value) s =
      (if _ then _ else _ : Option Value).elim s _
    unfold callFor
    cases value.schema with
    | domainEvent =>
      dsimp only
      by_cases hevent : value.event = NEW_HOOK
      · rw [if_pos hevent, if_pos ⟨rfl, hevent⟩, hevent]
        rfl
      · rw [if_neg hevent, if_neg fun h => hevent h.2]
        rfl
    | broadcast => rfl
    | newConnection => rfl
    | disableLogin => cases validatedBeforeEmitEvent setting.handler value <;> rfl
    | disableAllRoutes => cases validatedBeforeEmitEvent setting.handler value <;> rfl

section handle

variable {setting : Setting} {handling : Handling} {saves : Saves} {data : Value}

theorem called_iff {now : Now} {saved : Saved} : saved.called now = true ↔ saved.hook.Due now = true ∧
    (NEW_HOOK = saved.hook.responseSchema ∨ NEW_HOOK.toList ++ [':'] <+: saved.hook.responseSchema.toList) := by
  simp [Saved.called]

/-- What pullHook has done to one hook once it has ended. -/
theorem pulled_called {result : Except Failure Unit}
    (houtcome : handling.outcome setting NEW_HOOK data (saves.cache setting.parser) = some result) {saved : Saved}
    (hsaved : saved ∈ saves.list) :
    (handling.pull setting NEW_HOOK data (saves.cache setting.parser)).requestsOf saved.key =
        (if saved.called handling.now then (saved.hook.request setting.baseUrl data).toList else []) ∧
      ((handling.pool setting NEW_HOOK data (saves.cache setting.parser)).cache.get saved.key = none ↔
        saved.called handling.now = true) := by
  have hplain : Plain NEW_HOOK := plain_newHook
  have hsettled := settled_of_pulled handling.onlyRequests rfl rfl houtcome
  by_cases hcalled : saved.called handling.now = true
  · obtain ⟨hdue, hpattern⟩ := called_iff.mp hcalled
    have hattempted := attempted_of_plain hplain rfl hsettled hsaved hdue hpattern
    rw [if_pos hcalled]
    exact ⟨hattempted.once, iff_of_true hattempted.gone hcalled⟩
  · have huntouched : Untouched (handling.pull setting NEW_HOOK data (saves.cache setting.parser))
        (handling.pool setting NEW_HOOK data (saves.cache setting.parser)) saved := by
      refine untouched_of_not_pulled rfl hsettled hsaved ?_ ?_
      · rintro ⟨hlisted, hdue⟩
        exact hcalled (called_iff.mpr ⟨hdue, (saves.mem_listed_of_plain _ _ hplain hsaved).mp hlisted⟩)
      · intro other hother _ hkey
        rw [deletedKey_of_listed hplain hother] at hkey
        exact saves.eq_of_key_eq (Saves.mem_listed.mp hother).1 hsaved hkey
    rw [if_neg hcalled]
    refine ⟨huntouched.notRequested, iff_of_false (fun hgone => ?_) hcalled⟩
    cases hgone.symm.trans huntouched.kept

/-- The hooks that were called for are gone, and all others stay. -/
theorem cache_pool {result : Except Failure Unit}
    (houtcome : handling.outcome setting NEW_HOOK data (saves.cache setting.parser) = some result) :
    (handling.pool setting NEW_HOOK data (saves.cache setting.parser)).cache =
      (saves.filter fun saved => !saved.called handling.now).cache setting.parser := by
  obtain ⟨keys, hkeys⟩ := (handling.pull setting NEW_HOOK data (saves.cache setting.parser)).cache_after setting.redis
    handling.faults (saves.cache setting.parser) handling.turns
  have hcache : (handling.pool setting NEW_HOOK data (saves.cache setting.parser)).cache =
      (saves.filter fun saved => decide (saved.key ∉ keys)).cache setting.parser :=
    hkeys.trans (saves.cache_foldl_delete setting.parser keys)
  have hsame : saves.filter (fun saved => decide (saved.key ∉ keys)) =
      saves.filter fun saved => !saved.called handling.now := by
    simp only [Saves.filter, Saves.mk.injEq]
    apply List.filter_congr
    intro saved hsaved
    have hgone := (pulled_called houtcome hsaved).2
    rw [hcache] at hgone
    have hget : ((saves.filter fun saved => decide (saved.key ∉ keys)).cache setting.parser).get saved.key = none ↔
        saved.key ∈ keys := by
      rw [Option.eq_none_iff_forall_ne_some]
      constructor
      · intro hnone
        by_contra hkey
        exact hnone _ ((Saves.get_cache _ _).mpr ⟨saved, List.mem_filter.mpr ⟨hsaved, decide_eq_true hkey⟩, rfl, rfl⟩)
      · intro hkey text htext
        obtain ⟨other, hother, hsame, _⟩ := (Saves.get_cache _ _).mp htext
        have hnot := of_decide_eq_true (List.mem_filter.mp hother).2
        exact hnot (hsame ▸ hkey)
    rw [hget] at hgone
    rw [Bool.eq_iff_iff, decide_eq_true_eq, Bool.not_eq_true', ← Bool.not_eq_true, hgone]
  rw [hcache, hsame]

theorem requestsUnder_append (key : String) (first second : List (String × HookRequest)) :
    requestsUnder key (first ++ second) = requestsUnder key first ++ requestsUnder key second := by
  rw [requestsUnder, List.filter_append, List.map_append, ← requestsUnder, ← requestsUnder]

/-- The requests among the operations that were started. -/
theorem requestsUnder_started (key : String) (pull : Pull) :
    requestsUnder key (pull.started.filterMap Operation.sent) = pull.requestsOf key := by
  unfold requestsUnder Pull.requestsOf
  induction pull.started with
  | nil => rfl
  | cons operation rest ih =>
    cases operation with
    | delete other => exact ih
    | request other hookRequest =>
      by_cases hkey : other = key
      · simpa [Operation.sent, Operation.requestOf, hkey] using ih
      · simpa [Operation.sent, Operation.requestOf, hkey] using ih

theorem requestsUnder_cons (baseUrl key : String) (now : Now) (data : Value) (saved : Saved) (rest : List Saved) :
    requestsUnder key (requestsFor baseUrl now data (saved :: rest)) =
      (if saved.called now ∧ saved.key = key then (saved.hook.request baseUrl data).toList else []) ++
        requestsUnder key (requestsFor baseUrl now data rest) := by
  unfold requestsFor requestsUnder
  by_cases hcalled : saved.called now = true
  · rw [List.filter_cons_of_pos hcalled, List.filterMap_cons]
    by_cases hkey : saved.key = key
    · cases saved.hook.request baseUrl data <;> simp [hcalled, hkey]
    · cases saved.hook.request baseUrl data <;> simp [hkey]
  · rw [List.filter_cons_of_neg hcalled]
    simp [hcalled]

theorem requestsUnder_of_not_mem {baseUrl key : String} {now : Now} {data : Value} {list : List Saved}
    (h : key ∉ list.map Saved.key) : requestsUnder key (requestsFor baseUrl now data list) = [] := by
  induction list with
  | nil => rfl
  | cons saved rest ih =>
    rw [List.map_cons, List.mem_cons, not_or] at h
    rw [requestsUnder_cons, if_neg fun hboth => h.1 hboth.2.symm, ih h.2, List.append_nil]

theorem requestsUnder_of_mem {baseUrl : String} {now : Now} {data : Value} {list : List Saved}
    (hnodup : (list.map Saved.key).Nodup) {saved : Saved} (hsaved : saved ∈ list) :
    requestsUnder saved.key (requestsFor baseUrl now data list) =
      if saved.called now then (saved.hook.request baseUrl data).toList else [] := by
  induction list with
  | nil => cases hsaved
  | cons other rest ih =>
    rw [List.map_cons, List.nodup_cons] at hnodup
    rw [requestsUnder_cons]
    obtain rfl | hrest := List.mem_cons.mp hsaved
    · rw [requestsUnder_of_not_mem hnodup.1, List.append_nil]
      simp only [and_true]
    · have hne : other.key ≠ saved.key := fun hsame => hnodup.1 (hsame ▸ List.mem_map_of_mem hrest)
      rw [if_neg fun hboth => hne hboth.2, List.nil_append, ih hnodup.2 hrest]

theorem Saves.nodup_keys (saves : Saves) : (saves.list.map Saved.key).Nodup := by
  apply List.Nodup.map_on _ (.of_map _ saves.distinct)
  exact fun saved hsaved other hother hkey => saves.eq_of_key_eq hsaved hother hkey

/-- The requests that pullHook makes are those that the event asks for. -/
theorem requestsUnder_pull {result : Except Failure Unit}
    (houtcome : handling.outcome setting NEW_HOOK data (saves.cache setting.parser) = some result) (key : String) :
    (handling.pull setting NEW_HOOK data (saves.cache setting.parser)).requestsOf key =
      requestsUnder key (requestsFor setting.baseUrl handling.now data saves.list) := by
  by_cases hkey : key ∈ saves.list.map Saved.key
  · obtain ⟨saved, hsaved, rfl⟩ := List.mem_map.mp hkey
    rw [(pulled_called houtcome hsaved).1, requestsUnder_of_mem saves.nodup_keys hsaved]
  · rw [requestsUnder_of_not_mem hkey]
    have hpull : handling.pull setting NEW_HOOK data (saves.cache setting.parser) = _ := pulled_eq ..
    rw [hpull]
    apply requestsOf_operations_of_not_mem
    intro hmem
    obtain ⟨saved, hsaved, hsame⟩ := List.mem_map.mp hmem
    exact hkey (List.mem_map.mpr ⟨saved, (Saves.mem_listed.mp hsaved).1, hsame⟩)

end handle

/-- An identifier that is registered was not registered before, and pullHook ends. -/
def Admissible (setting : Setting) (before : List HookEvent) : HookEvent → Prop
  | .register uuid _ => ∀ other query, HookEvent.register other query ∈ before → other.text ≠ uuid.text
  | .handle handling => ∀ data, heard setting.handler handling.arrival.message = some data →
    (handling.outcome setting NEW_HOOK data (hooksAfter setting before).cache).isSome = true
  | .expire _ => True

/-- The application is as its board says. -/
structure Tracked (setting : Setting) (events : List HookEvent) (s : Hooks) (board : Board) : Prop where
  cache : s.cache = board.pending.cache setting.parser
  requested : ∀ key, requestsUnder key s.requested = requestsUnder key board.requested
  registered : ∀ saved ∈ board.pending.list, HookEvent.register saved.uuid saved.hook ∈ events
  known : ∀ key, requestsUnder key board.requested ≠ [] →
    ∃ uuid query, HookEvent.register uuid query ∈ events ∧ key = hookKey query.responseSchema uuid.text
  waiting : ∀ saved ∈ board.pending.list, requestsUnder saved.key board.requested = []
  once : ∀ key, (requestsUnder key board.requested).length ≤ 1

variable {setting : Setting} {events : List HookEvent} {s : Hooks} {board : Board}

theorem Tracked.more (h : Tracked setting events s board) (event : HookEvent) :
    Tracked setting (events ++ [event]) s board where
  cache := h.cache
  requested := h.requested
  registered := fun saved hsaved => List.mem_append_left _ (h.registered saved hsaved)
  known := by
    intro key hkey
    obtain ⟨uuid, query, hquery, hsame⟩ := h.known key hkey
    exact ⟨uuid, query, List.mem_append_left _ hquery, hsame⟩
  waiting := h.waiting
  once := h.once

/-- Hooks that are gone without a request. -/
theorem Tracked.filter (h : Tracked setting events s board) (p : Saved → Bool) {cache : KeyValue}
    (hcache : cache = (board.pending.filter p).cache setting.parser) :
    Tracked setting events { s with cache := cache } { board with pending := board.pending.filter p } where
  cache := hcache
  requested := h.requested
  registered := fun saved hsaved => h.registered saved (List.mem_filter.mp hsaved).1
  known := h.known
  waiting := fun saved hsaved => h.waiting saved (List.mem_filter.mp hsaved).1
  once := h.once

theorem Tracked.register (h : Tracked setting events s board) (uuid : Uuid) (query : RegisterEventHookInterface)
    (hfresh : ∀ other query, HookEvent.register other query ∈ events → other.text ≠ uuid.text) :
    Tracked setting (events ++ [.register uuid query]) ((HookEvent.register uuid query).step setting s)
      (board.step setting (.register uuid query)) := by
  by_cases hempty : query.responseSchema = ""
  · have hsame : (HookEvent.register uuid query).step setting s = s := by
      unfold HookEvent.step registerEventHook
      simp [hempty]
    rw [hsame, Board.step, if_pos hempty]
    exact h.more _
  have hnew : uuid.text ∉ board.pending.list.map fun saved => saved.uuid.text := by
    intro hmem
    obtain ⟨saved, hsaved, hsame⟩ := List.mem_map.mp hmem
    exact hfresh _ _ (h.registered saved hsaved) hsame
  have hlist : (board.pending.add ⟨uuid, query⟩).list = board.pending.list ++ [⟨uuid, query⟩] := by
    rw [Saves.add, dif_neg hnew]
  have hstep : (HookEvent.register uuid query).step setting s =
      { s with cache := s.cache.set (hookKey query.responseSchema uuid.text) (savedText query) } := by
    unfold HookEvent.step registerEventHook
    simp only [ne_eq, hempty, not_false_eq_true, if_true]
    rw [Program.run_bind_of_ok _ (run_save setting.parser uuid.text query.responseSchema query _)]
    rfl
  have hnone : requestsUnder (hookKey query.responseSchema uuid.text) board.requested = [] := by
    by_contra hsome
    obtain ⟨other, otherQuery, hother, hkey⟩ := h.known _ hsome
    exact hfresh _ _ hother (hookKey_injective hkey).2.symm
  have hmore := h.more (.register uuid query)
  rw [hstep, Board.step, if_neg hempty]
  refine ⟨?_, hmore.requested, ?_, hmore.known, ?_, hmore.once⟩
  · rw [Saves.cache_add setting.parser board.pending hnew, h.cache]
    rfl
  · intro saved hsaved
    rw [hlist] at hsaved
    obtain hold | rfl := List.mem_append.mp hsaved |>.imp_right List.mem_singleton.mp
    · exact hmore.registered saved hold
    · simp
  · intro saved hsaved
    rw [hlist] at hsaved
    obtain hold | rfl := List.mem_append.mp hsaved |>.imp_right List.mem_singleton.mp
    · exact h.waiting saved hold
    · exact hnone

theorem Tracked.handle (hschema : RejectsNull setting.handler.eventPayloadSchema) (h : Tracked setting events s board)
    (handling : Handling) (hends : ∀ data, heard setting.handler handling.arrival.message = some data →
      (handling.outcome setting NEW_HOOK data s.cache).isSome = true) :
    Tracked setting (events ++ [.handle handling]) ((HookEvent.handle handling).step setting s)
      (board.step setting (.handle handling)) := by
  have hworld : ∀ n call (s : Hooks), (handling.exec setting n call s).2 = handling.affect setting call s := by
    intro n call s
    cases call <;> rfl
  have hstep : (HookEvent.handle handling).step setting s =
      effect (handling.affect setting) (callOf setting.handler handling.arrival.message) s :=
    runFrom_execute hworld _ _ s fun _ => rfl
  have hmore := h.more (.handle handling)
  rw [hstep, effect_heard hschema, Board.step]
  cases hheard : heard setting.handler handling.arrival.message with
  | none => exact hmore
  | some data =>
    obtain ⟨result, houtcome⟩ := Option.isSome_iff_exists.mp (hends data hheard)
    rw [h.cache] at houtcome
    have hpull : ∀ key, (handling.pull setting NEW_HOOK data s.cache).requestsOf key =
        requestsUnder key (requestsFor setting.baseUrl handling.now data board.pending.list) := by
      intro key
      rw [h.cache, requestsUnder_pull houtcome]
    have hgone := hmore.filter (fun saved => !saved.called handling.now) (cache_pool houtcome)
    refine ⟨?_, fun key => ?_, hgone.registered, fun key hkey => ?_, fun saved hsaved => ?_, fun key => ?_⟩
    · change (handling.pool setting NEW_HOOK data s.cache).cache = _
      rw [h.cache]
      exact cache_pool houtcome
    · change requestsUnder key (s.requested ++ (handling.pull setting NEW_HOOK data s.cache).started.filterMap _) = _
      rw [requestsUnder_append, requestsUnder_append, requestsUnder_started, hpull, h.requested]
    · rw [requestsUnder_append, ne_eq, List.append_eq_nil_iff, not_and_or] at hkey
      obtain hold | hnew := hkey
      · exact hmore.known key hold
      · by_cases hmem : key ∈ board.pending.list.map Saved.key
        · obtain ⟨saved, hsaved, rfl⟩ := List.mem_map.mp hmem
          exact ⟨saved.uuid, saved.hook, hmore.registered saved hsaved, rfl⟩
        · exact absurd (requestsUnder_of_not_mem hmem) hnew
    · obtain ⟨hmem, hnot⟩ := List.mem_filter.mp hsaved
      rw [requestsUnder_append, h.waiting saved hmem, requestsUnder_of_mem board.pending.nodup_keys hmem,
        if_neg (by simpa using hnot), List.append_nil]
    · rw [requestsUnder_append]
      by_cases hmem : key ∈ board.pending.list.map Saved.key
      · obtain ⟨saved, hsaved, rfl⟩ := List.mem_map.mp hmem
        rw [h.waiting saved hsaved, requestsUnder_of_mem board.pending.nodup_keys hsaved, List.nil_append]
        split
        · cases saved.hook.request setting.baseUrl data <;> simp
        · simp
      · rw [requestsUnder_of_not_mem hmem, List.append_nil]
        exact h.once key

theorem tracked_after (hschema : RejectsNull setting.handler.eventPayloadSchema)
    (hadmissible : Stepwise (Admissible setting) events) :
    Tracked setting events (hooksAfter setting events) (boardAfter setting events) := by
  induction events using List.reverseRecOn with
  | nil =>
    have hcache : KeyValue.empty = (Saves.mk [] List.nodup_nil).cache setting.parser := rfl
    exact ⟨hcache, fun _ => rfl, by simp [boardAfter], by simp [boardAfter, requestsUnder], by simp [boardAfter],
      by simp [boardAfter, requestsUnder]⟩
  | append_singleton events event ih =>
    obtain ⟨hbefore, hevent⟩ := stepwise_snoc.mp hadmissible
    have h := ih hbefore
    rw [hooksAfter, boardAfter, List.foldl_concat, List.foldl_concat, ← hooksAfter, ← boardAfter]
    cases event with
    | register uuid query => exact h.register uuid query hevent
    | handle handling => exact h.handle hschema handling hevent
    | expire key =>
      have hcache : (hooksAfter setting events).cache.delete key =
          ((boardAfter setting events).pending.filter (·.key != key)).cache setting.parser := by
        rw [h.cache, Saves.cache_delete]
      exact (h.more (.expire key)).filter _ hcache

/-- In every run of registrations, messages and expiries, whatever requests fail and in
whatever order what pullHook starts goes on, the cache holds the hooks that wait on the
board and nothing else, and every hook is requested just as the board says: at most once,
with the payload of the first event that calls for it. -/
theorem hooks_as_board (hschema : RejectsNull setting.handler.eventPayloadSchema) (events : List HookEvent)
    (hadmissible : Stepwise (Admissible setting) events) :
    (hooksAfter setting events).cache = (boardAfter setting events).pending.cache setting.parser ∧
    ∀ key, requestsUnder key (hooksAfter setting events).requested =
        requestsUnder key (boardAfter setting events).requested ∧
      (requestsUnder key (hooksAfter setting events).requested).length ≤ 1 := by
  have h := tracked_after hschema hadmissible
  refine ⟨h.cache, fun key => ⟨h.requested key, ?_⟩⟩
  rw [h.requested key]
  exact h.once key

def newHookPayload : json.Value :=
  .obj [("event", .str NEW_HOOK)]

/-- The body of a message that tells of a new hook. -/
def newHookEvent : json.Value :=
  .obj [("schema", .str "DOMAIN_EVENT"), ("payload", newHookPayload)]

/-- A message that is handled while every request fails. -/
def newHookHandling : Handling where
  arrival :=
    { message :=
        { messageId := some "1"
          receiptHandle := some "r"
          body := some newHookEvent.stringify
          objectId := "66f000000000000000000001" }
      reply := fun _ _ => .error (.plain { message := "socket hang up" }) }
  now := someTime
  faults := timeouts
  turns := [1, 0]
  onlyRequests := fun _ _ => rfl

def localSetting : Setting :=
  ⟨.iso, .prefixes, "", validatingHandler⟩

theorem heard_newHookHandling :
    heard localSetting.handler newHookHandling.arrival.message = some (ofJson newHookPayload) := by
  have hproper : newHookEvent.Proper := by
    simp [newHookEvent, newHookPayload, json.Value.proper_obj_iff, json.Value.Proper.str]
  have hparse : json.parse newHookEvent.stringify = some newHookEvent := json.parse_stringify _ hproper.keysOnce
  have hvalid : localSetting.handler.eventPayloadSchema (ofJson newHookEvent) =
      .ok ⟨ofJson newHookEvent, .domainEvent, ofJson newHookPayload, NEW_HOOK⟩ := by
    change validateEvent (ofJson newHookEvent) = _
    unfold validateEvent
    rfl
  have hbody : newHookHandling.arrival.message.body = some newHookEvent.stringify := rfl
  simp [heard, hbody, hparse, hvalid, Except.toOption]

/-- A hook is registered, and the event that calls for it comes twice. -/
def newHookTwice : List HookEvent :=
  [.register newHook.uuid newHook.hook, .handle newHookHandling, .handle newHookHandling]

def newHookAnswer : HookRequest :=
  ⟨"POST".toLower, .str "http://localhost:4000/api/hook", ofJson newHookPayload⟩

theorem boardAfter_newHook : boardAfter localSetting (newHookTwice.take 1) = ⟨.one newHook, []⟩ := by
  simp [boardAfter, newHookTwice, Board.step, newHook, registered, Saves.add, Saves.one]

theorem called_newHook : newHook.called someTime = true := by
  simp [called_iff, RegisterEventHookInterface.Due, newHook, registered, NEW_HOOK]

theorem request_newHook (data : Value) : newHook.hook.request "" data =
    some ⟨"POST".toLower, .str "http://localhost:4000/api/hook", data⟩ := by
  simp [RegisterEventHookInterface.request, newHook, registered, HttpMethodsEnum.text]

theorem boardAfter_called : boardAfter localSetting (newHookTwice.take 2) =
    ⟨⟨[], List.nodup_nil⟩, [(newHook.key, newHookAnswer)]⟩ := by
  have hstep : boardAfter localSetting (newHookTwice.take 2) =
      (boardAfter localSetting (newHookTwice.take 1)).step localSetting (.handle newHookHandling) := by
    simp [boardAfter, newHookTwice]
  have hcalled : newHook.called newHookHandling.now = true := called_newHook
  rw [hstep, boardAfter_newHook, Board.step, heard_newHookHandling]
  have hrequest : newHook.hook.request localSetting.baseUrl (ofJson newHookPayload) = some newHookAnswer :=
    request_newHook _
  simp [Saves.filter, Saves.one, requestsFor, hcalled, hrequest]

theorem pull_newHook (data : Value) :
    newHookHandling.pull localSetting NEW_HOOK data ((Saves.one newHook).cache .iso) =
      ⟨[.request newHook.key ⟨"POST".toLower, .str "http://localhost:4000/api/hook", data⟩, .delete newHook.key],
        none⟩ := by
  have hplain : Plain NEW_HOOK := plain_newHook
  have hsame : NEW_HOOK = newHook.hook.responseSchema := rfl
  have hkey : deletedKey newHook.key NEW_HOOK = newHook.key := (deletedKey_eq_iff newHook newHook).mpr ⟨rfl, rfl⟩
  have hdue : newHook.hook.Due someTime = true := (called_iff.mp called_newHook).1
  have hone := pulled_one .iso .prefixes "" someTime data hplain (Or.inl hsame)
  rw [Saved.operations, if_pos hdue, hkey, request_newHook] at hone
  exact hone

theorem outcome_newHook (data : Value) :
    (newHookHandling.outcome localSetting NEW_HOOK data ((Saves.one newHook).cache .iso)).isSome = true := by
  rw [Handling.outcome, Handling.pool, pull_newHook]
  rfl

theorem outcome_empty (data : Value) :
    (newHookHandling.outcome localSetting NEW_HOOK data ((Saves.mk [] List.nodup_nil).cache .iso)).isSome = true := by
  have hpull : newHookHandling.pull localSetting NEW_HOOK data ((Saves.mk [] List.nodup_nil).cache .iso) = ⟨[], none⟩ :=
    pulled_eq ..
  rw [Handling.outcome, Handling.pool, hpull]
  rfl

theorem admissible_newHookTwice : Stepwise (Admissible localSetting) newHookTwice := by
  have hschema : RejectsNull localSetting.handler.eventPayloadSchema := validatingHandler_rejectsNull
  have hone : newHookTwice.take 1 = [] ++ [.register newHook.uuid newHook.hook] := rfl
  have htwo : newHookTwice.take 2 = newHookTwice.take 1 ++ [.handle newHookHandling] := rfl
  have hthree : newHookTwice = newHookTwice.take 2 ++ [.handle newHookHandling] := rfl
  have hfirst : Stepwise (Admissible localSetting) (newHookTwice.take 1) := by
    rw [hone, stepwise_snoc]
    exact ⟨.of_forall (by simp), by simp [Admissible]⟩
  have hsecond : Stepwise (Admissible localSetting) (newHookTwice.take 2) := by
    rw [htwo, stepwise_snoc]
    refine ⟨hfirst, fun data _ => ?_⟩
    rw [(tracked_after hschema hfirst).cache, boardAfter_newHook]
    exact outcome_newHook data
  rw [hthree, stepwise_snoc]
  refine ⟨hsecond, fun data _ => ?_⟩
  rw [(tracked_after hschema hsecond).cache, boardAfter_called]
  exact outcome_empty data

/-- The hook is requested for the first event, and not again. -/
theorem hooks_as_board_newHook :
    requestsUnder newHook.key (hooksAfter localSetting newHookTwice).requested = [newHookAnswer] := by
  have hstep : boardAfter localSetting newHookTwice =
      (boardAfter localSetting (newHookTwice.take 2)).step localSetting (.handle newHookHandling) := by
    simp [boardAfter, newHookTwice]
  rw [((hooks_as_board validatingHandler_rejectsNull newHookTwice admissible_newHookTwice).2
    newHook.key).1, hstep, boardAfter_called, Board.step, heard_newHookHandling]
  simp [requestsUnder, requestsFor]

end node_backend.webhook_service

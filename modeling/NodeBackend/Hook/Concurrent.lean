import NodeBackend.Hook.Delivery
import NodeBackend.Program.History

namespace node_backend.webhook_service

open js store program
open node_backend.exceptions

/-- A call of pullHook, with the time that it reads. -/
structure PullCall where
  now : Now
  hookSchema : String
  data : Value

abbrev Record : Type :=
  Entry Call Call.Reply Failure

/-- A run of pullHook: its listing with the calls that were made for it, and, once its
loop has ended, the operations that the loop started. -/
structure Run where
  pullCall : PullCall
  program : Promise Pull
  history : List Record
  operations : List (Promise Unit)

/-- The cache that several replicas share, and their runs. -/
structure Replicas where
  cache : KeyValue
  runs : List Run

/-- What a call may reply and leave of the cache. One that fails may have had its effect. -/
def Served (redis : Redis) (call : Call) (cache : KeyValue) (reply : Except Failure call.Reply)
    (cache' : KeyValue) : Prop :=
  exec redis call cache = (reply, cache') ∨
    ∃ failure, reply = .error failure ∧ (cache' = cache ∨ cache' = (exec redis call cache).2)

/-- The operations of a listing that has ended with its loop. -/
def startedBy : Promise Pull → List Operation
  | .done pull => pull.started
  | _ => []

/-- The requests that a run has sent for the hook under a key. They are sent as the loop
starts them. -/
def Run.requestsOf (run : Run) (key : String) : List HookRequest :=
  (startedBy run.program).filterMap (Operation.requestOf key)

/-- A run after a call of its listing. -/
def Run.replied (run : Run) (entry : Record) (program : Promise Pull) : Run :=
  { run with
    program := program
    history := run.history ++ [entry]
    operations := (startedBy program).map Operation.promise }

/-- The run read a hook while it was there. -/
def Run.HasRead (run : Run) (key : String) : Prop :=
  ∃ text, (⟨.redisGet key, .ok (some text)⟩ : Record) ∈ run.history

variable (parser : DateParser) (redis : Redis) (baseUrl : String)

def PullCall.program (pullCall : PullCall) : Promise Pull :=
  pullHook parser baseUrl pullCall.now pullCall.hookSchema pullCall.data

/-- What may happen at any time: a run begins, an entry expires, or one of the calls that
are awaited is served, of a listing or of an operation. -/
inductive Happens : Replicas → Replicas → Prop
  | pull (w : Replicas) (pullCall : PullCall) :
    Happens w { w with runs := w.runs ++ [⟨pullCall, pullCall.program parser baseUrl, [], []⟩] }
  | expire (w : Replicas) (key : String) : Happens w { w with cache := w.cache.delete key }
  | list {w : Replicas} {n : Nat} {run : Run} {call : Call} {next : Except Failure call.Reply → Promise Pull}
    {reply : Except Failure call.Reply} {cache' : KeyValue} (hrun : w.runs[n]? = some run)
    (hawaits : run.program = .await call next) (hserved : Served redis call w.cache reply cache') :
    Happens w
      { cache := cache'
        runs := w.runs.set n (run.replied ⟨call, reply⟩ (next reply)) }
  | operate {w : Replicas} {n m : Nat} {run : Run} {call : Call} {next : Except Failure call.Reply → Promise Unit}
    {reply : Except Failure call.Reply} {cache' : KeyValue} (hrun : w.runs[n]? = some run)
    (hawaits : run.operations[m]? = some (.await call next)) (hserved : Served redis call w.cache reply cache') :
    Happens w
      { cache := cache'
        runs := w.runs.set n { run with operations := run.operations.set m (next reply) } }

/-- From hooks that are stored, and no run, to any moment of any runs. -/
def Reachable (cache : KeyValue) (w : Replicas) : Prop :=
  Relation.ReflTransGen (Happens parser redis baseUrl) ⟨cache, []⟩ w

variable {parser redis baseUrl}

theorem Served.get_of_get {call : Call} {cache cache' : KeyValue} {reply : Except Failure call.Reply}
    (h : Served redis call cache reply cache') {key : String} (hgone : cache.get key = none) :
    cache'.get key = none := by
  have hexec : (exec redis call cache).2.get key = none := by
    cases call with
    | redisDel other => exact KeyValue.get_delete_eq_none hgone other
    | redisKeys pattern | redisGet other | requestHook request => exact hgone
  obtain hserved | ⟨failure, _, rfl | rfl⟩ := h
  · rw [hserved] at hexec
    exact hexec
  · exact hgone
  · exact hexec

/-- What a listing may see: the keys that Redis lists are distinct. -/
def Seen (_before : List Record) (entry : Record) : Prop :=
  ∀ pattern keys, entry = ⟨.redisKeys pattern, .ok keys⟩ → keys.Nodup

theorem Served.seen {call : Call} {cache cache' : KeyValue} {reply : Except Failure call.Reply}
    (h : Served redis call cache reply cache') (before : List Record) : Seen before ⟨call, reply⟩ := by
  intro pattern keys hentry
  cases hentry
  obtain hserved | ⟨failure, hreply, _⟩ := h
  · cases hserved
    exact redis.nodup _ _ cache.keys
  · cases hreply

/-- A value that asks for a request was read under the key of its entry. -/
def Backed (history : List Record) (entry : HookEntry) : Prop :=
  ∀ key, entry.key = some key → entry.value.prop "responseMethod" ≠ .undefined →
    ∃ text, (⟨.redisGet key, .ok (some text)⟩ : Record) ∈ history

theorem Backed.mono {history later : List Record} {entry : HookEntry} (h : Backed history entry) :
    Backed (history ++ later) entry := by
  intro key hkey hmethod
  obtain ⟨text, hmem⟩ := h key hkey hmethod
  exact ⟨text, List.mem_append_left _ hmem⟩

theorem backed_hookEntry (history : List Record) (key : String) (reply : Except Failure (Option String)) :
    Backed (history ++ [⟨.redisGet key, reply⟩]) (hookEntry key reply) := by
  intro other hother hmethod
  cases reply with
  | error failure => cases hother
  | ok value =>
    cases hother
    cases value with
    | none => exact absurd rfl hmethod
    | some text => exact ⟨text, List.mem_append_right _ (List.mem_singleton.mpr rfl)⟩

theorem attempt_redisGet (key : String) (history : List Record) :
    (perform (.redisGet key)).attempt.Ensures (record Seen) history
      (fun value history' => history' = history ++ [⟨.redisGet key, value⟩]) fun _ _ => False := by
  intro reply history' hrecord
  cases reply <;> exact hrecord.2

/-- The entries of some keys: at most one for each of them, and each backed by its reading. -/
theorem readEntries_ensures (keys : List String) (history : List Record) :
    (readEntries keys).Ensures (record Seen) history
      (fun entries history' => (entries.filterMap HookEntry.key).Sublist keys ∧
        (∀ entry ∈ entries, Backed history' entry) ∧ history <+: history') fun _ _ => False := by
  induction keys generalizing history with
  | nil => exact ⟨List.Sublist.refl _, by simp, List.prefix_refl _⟩
  | cons key rest ih =>
    unfold readEntries
    apply Program.Ensures.bind (attempt_redisGet key history)
    intro value history' hvalue
    apply Program.Ensures.bind (ih history')
    intro entries later h
    obtain ⟨hkeys, hbacked, more, hmore⟩ := h
    subst hvalue
    refine ⟨?_, ?_, ?_⟩
    · cases value with
      | ok text => exact hkeys.cons_cons key
      | error failure => exact hkeys.cons key
    · intro entry hentry
      obtain rfl | hrest := List.mem_cons.mp hentry
      · rw [← hmore]
        exact (backed_hookEntry history key value).mono
      · exact hbacked entry hrest
    · exact (List.prefix_append history _).trans ⟨more, hmore⟩

/-- What the loop starts for a hook under a key. Without a method there is no request. -/
theorem startHook_cases {baseUrl hookSchema : String} {data : Value} {entry : HookEntry} {operations : List Operation}
    (h : startHook baseUrl hookSchema data entry = .ok operations) : ∃ key, entry.key = some key ∧
      (operations = [.delete (deletedKey key hookSchema)] ∨
        ∃ request, operations = [.request key request, .delete (deletedKey key hookSchema)] ∧
          entry.value.prop "responseMethod" ≠ .undefined) := by
  unfold startHook at h
  cases hmethod : lowerCase (entry.value.prop "responseMethod") with
  | error failure =>
    rw [hmethod] at h
    cases h
  | ok responseMethod =>
    rw [hmethod] at h
    cases hkey : entry.key with
    | none =>
      rw [hkey] at h
      cases h
    | some key =>
      rw [hkey] at h
      refine ⟨key, rfl, ?_⟩
      cases responseMethod with
      | none =>
        cases h
        exact Or.inl rfl
      | some method =>
        have hdefined : entry.value.prop "responseMethod" ≠ .undefined := by
          intro hundefined
          rw [hundefined] at hmethod
          cases hmethod
        have hstarted := Except.ok.inj h
        dsimp only at hstarted
        rw [← hstarted]
        split
        · exact Or.inr ⟨_, rfl, hdefined⟩
        · exact Or.inl rfl

/-- At most one request for each entry of a key. -/
theorem requestsOf_startHooks (baseUrl hookSchema : String) (now : Now) (data : Value) (entries : List HookEntry)
    (key : String) : ((startHooks baseUrl hookSchema now data entries).requestsOf key).length ≤
      (entries.filterMap HookEntry.key).count key := by
  unfold Pull.requestsOf
  induction entries with
  | nil => exact Nat.le_refl 0
  | cons entry rest ih =>
    have hrest : (rest.filterMap HookEntry.key).count key ≤ ((entry :: rest).filterMap HookEntry.key).count key := by
      apply List.Sublist.count_le
      exact (List.sublist_cons_self entry rest).filterMap _
    rw [startHooks]
    split
    · cases hstarted : startHook baseUrl hookSchema data entry with
      | error failure => simp
      | ok operations =>
        obtain ⟨other, hother, rfl | ⟨request, rfl, _⟩⟩ := startHook_cases hstarted
        · exact ih.trans hrest
        · rw [List.filterMap_cons_some hother, List.count_cons]
          by_cases hkey : other = key
          · simp [List.filterMap_cons, Operation.requestOf, hkey]
            omega
          · simp [List.filterMap_cons, Operation.requestOf, hkey]
            omega
    · exact ih.trans hrest

theorem backed_of_requestsOf {baseUrl hookSchema : String} {now : Now} {data : Value} {entries : List HookEntry}
    {key : String} (h : (startHooks baseUrl hookSchema now data entries).requestsOf key ≠ []) :
    ∃ entry ∈ entries, entry.key = some key ∧ entry.value.prop "responseMethod" ≠ .undefined := by
  unfold Pull.requestsOf at h
  induction entries with
  | nil => exact absurd rfl h
  | cons entry rest ih =>
    have hlater : (startHooks baseUrl hookSchema now data rest).started.filterMap (Operation.requestOf key) ≠ [] →
        ∃ other ∈ entry :: rest, other.key = some key ∧ other.value.prop "responseMethod" ≠ .undefined := by
      intro hrest
      obtain ⟨other, hmem, hother⟩ := ih hrest
      exact ⟨other, List.mem_cons_of_mem _ hmem, hother⟩
    rw [startHooks] at h
    split at h
    · cases hstarted : startHook baseUrl hookSchema data entry with
      | error failure =>
        rw [hstarted] at h
        exact absurd rfl h
      | ok operations =>
        rw [hstarted] at h
        obtain ⟨other, hother, rfl | ⟨request, rfl, hmethod⟩⟩ := startHook_cases hstarted
        · exact hlater h
        · by_cases hkey : other = key
          · subst hkey
            exact ⟨entry, List.mem_cons_self, hother, hmethod⟩
          · apply hlater
            simpa [Operation.requestOf, hkey] using h
    · exact hlater h

theorem prop_payloadBuilder (parser : DateParser) (data : Value) {key : String} (hkey : key ≠ "sendAt") :
    (payloadBuilder parser data).prop key = data.prop key := by
  unfold payloadBuilder
  split
  · split
    · rfl
    · rw [Value.prop, json.lookup_setField, if_neg hkey, Value.prop]
  · rfl

theorem list_ensures (parser : DateParser) (hookSchema : String) :
    (list parser hookSchema).Ensures (record Seen) []
      (fun entries history => (entries.filterMap HookEntry.key).Nodup ∧ ∀ entry ∈ entries, Backed history entry)
      fun _ _ => True := by
  unfold list getByKeyPattern
  refine Program.Ensures.bind (R := fun entries history => (entries.filterMap HookEntry.key).Nodup ∧
    ∀ entry ∈ entries, Backed history entry) ?_ ?_
  · apply Program.Ensures.bind (R := fun keys _ => keys.Nodup)
    · refine Program.ensures_perform (fun keys history hrecord => ?_) fun _ _ _ => trivial
      exact hrecord.1 _ keys rfl
    · intro keys history hnodup
      refine (readEntries_ensures keys history).mono ?_ fun _ _ hfalse => hfalse.elim
      intro entries history' ⟨hkeys, hbacked, _⟩
      exact ⟨hkeys.nodup hnodup, hbacked⟩
  · intro entries history ⟨hnodup, hbacked⟩
    refine ⟨?_, ?_⟩
    · rw [List.filterMap_map]
      exact hnodup
    · intro entry hentry
      obtain ⟨read, hread, rfl⟩ := List.mem_map.mp hentry
      intro key hkey hmethod
      rw [prop_payloadBuilder parser _ (by simp)] at hmethod
      exact hbacked read hread key hkey hmethod

/-- A run that has listed requests each hook once at most, and only hooks that it read. -/
def Fair (pull : Pull) (history : List Record) : Prop :=
  ∀ key, (pull.requestsOf key).length ≤ 1 ∧
    (pull.requestsOf key ≠ [] → ∃ text, (⟨.redisGet key, .ok (some text)⟩ : Record) ∈ history)

theorem program_ensures (parser : DateParser) (baseUrl : String) (pullCall : PullCall) :
    (pullCall.program parser baseUrl).Ensures (record Seen) [] Fair fun _ _ => True := by
  unfold PullCall.program pullHook
  apply Program.Ensures.bind (list_ensures parser pullCall.hookSchema)
  intro entries history h
  obtain ⟨hnodup, hbacked⟩ := h
  intro key
  constructor
  · exact (requestsOf_startHooks _ _ _ _ entries key).trans (List.nodup_iff_count_le_one.mp hnodup key)
  · intro hrequested
    obtain ⟨entry, hentry, hkey, hmethod⟩ := backed_of_requestsOf hrequested
    exact hbacked entry hentry key hkey hmethod

/-- A run is where the replies to its listing's calls have led it. -/
def Run.Led (parser : DateParser) (baseUrl : String) (run : Run) : Prop :=
  Leads (run.pullCall.program parser baseUrl) run.history run.program ∧ Stepwise Seen run.history

theorem Run.Led.fair {run : Run} (h : run.Led parser baseUrl) (key : String) :
    (run.requestsOf key).length ≤ 1 ∧ (run.requestsOf key ≠ [] → run.HasRead key) := by
  obtain ⟨hleads, hseen⟩ := h
  have hends := (program_ensures parser baseUrl run.pullCall).leads hleads hseen
  unfold Run.requestsOf Run.HasRead
  cases hprogram : run.program with
  | done pull =>
    rw [hprogram] at hends
    exact hends key
  | throw failure => exact ⟨Nat.zero_le 1, fun hne => absurd rfl hne⟩
  | await call next => exact ⟨Nat.zero_le 1, fun hne => absurd rfl hne⟩

theorem Reachable.led {cache : KeyValue} {w : Replicas} (h : Reachable parser redis baseUrl cache w) :
    ∀ run ∈ w.runs, run.Led parser baseUrl := by
  induction h with
  | refl => simp
  | tail _ hhappens ih =>
    cases hhappens with
    | pull pullCall =>
      intro run hrun
      obtain hold | hnew := List.mem_append.mp hrun
      · exact ih run hold
      · rw [List.mem_singleton.mp hnew]
        exact ⟨.nil _, fun before entry after heq => by simp at heq⟩
    | expire key => exact ih
    | list hrun hawaits hserved =>
      intro other hother
      obtain hold | rfl := List.mem_or_eq_of_mem_set hother
      · exact ih other hold
      · obtain ⟨hleads, hstepwise⟩ := ih _ (List.mem_of_getElem? hrun)
        rw [hawaits] at hleads
        exact ⟨hleads.snoc _, stepwise_snoc.mpr ⟨hstepwise, hserved.seen _⟩⟩
    | operate hrun hawaits hserved =>
      intro other hother
      obtain hold | rfl := List.mem_or_eq_of_mem_set hother
      · exact ih other hold
      · have hled := ih _ (List.mem_of_getElem? hrun)
        exact hled

/-- The run with a number has read a hook. -/
def Replicas.HasRead (w : Replicas) (n : Nat) (key : String) : Prop :=
  ∃ run, w.runs[n]? = some run ∧ run.HasRead key

theorem getElem?_set_cases {Item : Type} {items : List Item} {n m : Nat} {item other : Item}
    (h : (items.set n item)[m]? = some other) : (m = n ∧ other = item) ∨ items[m]? = some other := by
  rw [List.getElem?_set] at h
  split at h
  · split at h
    · exact Or.inl ⟨by omega, (Option.some.inj h).symm⟩
    · cases h
  · exact Or.inr h

/-- Once a hook is gone it stays gone, and nobody reads it any more. -/
theorem Happens.gone {w w' : Replicas} (h : Happens parser redis baseUrl w w') {key : String}
    (hgone : w.cache.get key = none) :
    w'.cache.get key = none ∧ ∀ n, w'.HasRead n key → w.HasRead n key := by
  cases h with
  | pull pullCall =>
    refine ⟨hgone, fun n ⟨run, hrun, text, htext⟩ => ?_⟩
    dsimp only at hrun
    rw [List.getElem?_append] at hrun
    split at hrun
    · exact ⟨run, hrun, text, htext⟩
    · have hnew := List.mem_of_getElem? hrun
      rw [List.mem_singleton.mp hnew] at htext
      cases htext
  | expire other => exact ⟨KeyValue.get_delete_eq_none hgone other, fun n hread => hread⟩
  | @list n run call next reply cache' hrun hawaits hserved =>
    refine ⟨hserved.get_of_get hgone, fun m ⟨other, hother, text, htext⟩ => ?_⟩
    obtain ⟨rfl, rfl⟩ | hold := getElem?_set_cases hother
    · obtain hbefore | hnow := List.mem_append.mp htext
      · exact ⟨run, hrun, text, hbefore⟩
      · cases List.mem_singleton.mp hnow
        obtain hexec | ⟨failure, hfailure, _⟩ := hserved
        · have hreply : w.cache.get key = some text := Except.ok.inj (congrArg Prod.fst hexec)
          rw [hgone] at hreply
          cases hreply
        · cases hfailure
    · exact ⟨other, hold, text, htext⟩
  | @operate n m run call next reply cache' hrun hawaits hserved =>
    refine ⟨hserved.get_of_get hgone, fun k ⟨other, hother, text, htext⟩ => ?_⟩
    obtain ⟨rfl, rfl⟩ | hold := getElem?_set_cases hother
    · exact ⟨run, hrun, text, htext⟩
    · exact ⟨other, hold, text, htext⟩

theorem gone_later {w w' : Replicas} (h : Relation.ReflTransGen (Happens parser redis baseUrl) w w') {key : String}
    (hgone : w.cache.get key = none) : w'.cache.get key = none ∧ ∀ n, w'.HasRead n key → w.HasRead n key := by
  induction h with
  | refl => exact ⟨hgone, fun n hread => hread⟩
  | tail _ hhappens ih =>
    obtain ⟨hstill, hreads⟩ := hhappens.gone ih.1
    exact ⟨hstill, fun n hread => ih.2 n (hreads n hread)⟩

/-- A listing may go on to its end before anything else happens. -/
theorem happens_listed (p : Promise Pull) (w : Replicas) (n : Nat) (run : Run) (hrun : w.runs[n]? = some run)
    (hprogram : run.program = p) {pull : Pull} {cache : KeyValue}
    (hends : Program.run (exec redis) p w.cache = (.ok pull, cache)) :
    ∃ listed : Run, listed.program = .done pull ∧
      Relation.ReflTransGen (Happens parser redis baseUrl) w ⟨cache, w.runs.set n listed⟩ := by
  induction p generalizing w run with
  | done result =>
    cases hends
    refine ⟨run, hprogram, ?_⟩
    obtain ⟨hlt, rfl⟩ := List.getElem?_eq_some_iff.mp hrun
    rw [List.set_getElem_self]
  | throw failure => cases hends
  | await call next ih =>
    have hserved : Served redis call w.cache (exec redis call w.cache).1 (exec redis call w.cache).2 := Or.inl rfl
    have hstep : Happens parser redis baseUrl w _ := .list hrun hprogram hserved
    have hlt : n < w.runs.length := (List.getElem?_eq_some_iff.mp hrun).1
    obtain ⟨listed, hlisted, hrest⟩ := ih (exec redis call w.cache).1
      ⟨(exec redis call w.cache).2, w.runs.set n (run.replied ⟨call, (exec redis call w.cache).1⟩ (next _))⟩
      (run.replied ⟨call, (exec redis call w.cache).1⟩ (next _)) (List.getElem?_set_self hlt) rfl hends
    refine ⟨listed, hlisted, .head hstep ?_⟩
    rw [List.set_set] at hrest
    exact hrest

def newHookCall : PullCall :=
  ⟨someTime, "NEW_HOOK", .undefined⟩

def newHookRun : Run :=
  ⟨newHookCall, newHookCall.program .iso "", [], []⟩

/-- Two replicas that take the same event list a hook before either of them deletes it. -/
theorem reachable_twice : ∃ first second : Run, first.program = .done newHookPull ∧
    second.program = .done newHookPull ∧
    Reachable .iso .prefixes "" ((Saves.one newHook).cache .iso) ⟨(Saves.one newHook).cache .iso, [first, second]⟩ := by
  have hends : Program.run (exec .prefixes) newHookRun.program ((Saves.one newHook).cache .iso) =
      (.ok newHookPull, (Saves.one newHook).cache .iso) := by
    rw [← pulled_newHook .iso .prefixes someTime, pulled_eq]
    exact run_pullHook (Saves.one newHook) .iso .prefixes "" someTime "NEW_HOOK" .undefined
  have hbegin : Reachable .iso .prefixes "" ((Saves.one newHook).cache .iso)
      ⟨(Saves.one newHook).cache .iso, [newHookRun, newHookRun]⟩ :=
    .tail (.tail .refl (.pull _ newHookCall)) (.pull _ newHookCall)
  obtain ⟨first, hfirst, hlisted⟩ := happens_listed _ ⟨(Saves.one newHook).cache .iso, [newHookRun, newHookRun]⟩ 0
    newHookRun rfl rfl hends
  obtain ⟨second, hsecond, hlistedToo⟩ := happens_listed _ ⟨(Saves.one newHook).cache .iso, [first, newHookRun]⟩ 1
    newHookRun rfl rfl hends
  exact ⟨first, second, hfirst, hsecond, (hbegin.trans hlisted).trans hlistedToo⟩

/-- However many runs go on at once, each of them requests a hook once at most, and from
the moment that a hook is gone only runs that had read it request it. -/
theorem requests_fair {cache : KeyValue} {w : Replicas} (h : Reachable parser redis baseUrl cache w) :
    (∀ run ∈ w.runs, ∀ key, (run.requestsOf key).length ≤ 1) ∧
    ∀ w', Relation.ReflTransGen (Happens parser redis baseUrl) w w' → ∀ key, w.cache.get key = none →
      ∀ n run, w'.runs[n]? = some run → run.requestsOf key ≠ [] → w.HasRead n key := by
  constructor
  · intro run hrun key
    exact ((h.led run hrun).fair key).1
  · intro w' hlater key hgone n run hrun hrequested
    have hreachable : Reachable parser redis baseUrl cache w' := h.trans hlater
    have hread := ((hreachable.led run (List.mem_of_getElem? hrun)).fair key).2 hrequested
    exact (gone_later hlater hgone).2 n ⟨run, hrun, hread⟩

theorem requests_fair_twice : ∃ w : Replicas, w.runs.length = 2 ∧
    (∀ run ∈ w.runs, ∀ key, (run.requestsOf key).length ≤ 1) ∧
    ∀ w', Relation.ReflTransGen (Happens .iso .prefixes "") w w' → ∀ key, w.cache.get key = none →
      ∀ n run, w'.runs[n]? = some run → run.requestsOf key ≠ [] → w.HasRead n key := by
  obtain ⟨first, second, _, _, hreachable⟩ := reachable_twice
  exact ⟨_, rfl, requests_fair hreachable⟩

/-- The hook is requested by both of them. -/
theorem requested_twice : ¬ ∀ (parser : DateParser) (redis : Redis) (baseUrl : String) (cache : KeyValue)
    (w : Replicas), Reachable parser redis baseUrl cache w →
    ∀ key, (w.runs.flatMap fun run => run.requestsOf key).length ≤ 1 := by
  intro h
  obtain ⟨first, second, hfirst, hsecond, hreachable⟩ := reachable_twice
  have hlength := h _ _ _ _ _ hreachable newHook.key
  have hrequests : ∀ run : Run, run.program = .done newHookPull → run.requestsOf newHook.key = [newHookRequest] := by
    intro run hprogram
    rw [Run.requestsOf, hprogram]
    simp [startedBy, newHookPull, Operation.requestOf]
  rw [List.flatMap_cons, List.flatMap_cons, hrequests first hfirst, hrequests second hsecond] at hlength
  simp at hlength

end node_backend.webhook_service

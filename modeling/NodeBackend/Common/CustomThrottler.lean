import NodeBackend.Common.RequestInterface
import NodeBackend.Core.Exceptions
import NodeBackend.Js.NearestEven
import NodeBackend.Program.Run

namespace node_backend.custom_throttler_guard

open js program
open node_backend.exceptions

/-- What the guard reads of an http request. -/
structure HttpRequest extends RequestInterface where
  ip : Option String := none
  remoteAddress : Option String := none

/-- What the guard reads of a ws event: the id of its socket and its pattern. -/
structure WsEvent where
  socketId : Option String := none
  pattern : String

/-- A call of a type that the guard counts. -/
inductive Event
  | http (request : HttpRequest)
  | ws (event : WsEvent)

inductive ExecutionContext
  | event (event : Event)
  | other (contextType : String)

inductive Resolvable
  | value (value : Number)
  | function (resolve : ExecutionContext → Except Failure Number)

structure ThrottlerOptions where
  name : Option String := none
  limit : Resolvable
  ttl : Resolvable
  blockDuration : Option Resolvable := none
  skipIf : Option (ExecutionContext → Except Failure Bool) := none

/-- The metadata that the decorator sets. -/
def customThrottlerDecorator (options : ThrottlerOptions) : ThrottlerOptions :=
  { options with name := some (options.name.getD "custom") }

/-- The metadata under CUSTOM_THROTTLER_DECORATOR of a handler and of its class. -/
structure Reflector where
  handler : Option ThrottlerOptions
  controller : Option ThrottlerOptions

/-- The metadata of a handler and a class that are decorated, each with options or not at all. -/
def Reflector.decorated (handler controller : Option ThrottlerOptions) : Reflector :=
  ⟨handler.map customThrottlerDecorator, controller.map customThrottlerDecorator⟩

def getCustomThrottlers (reflector : Reflector) : List ThrottlerOptions :=
  reflector.handler.toList ++ reflector.controller.toList

structure ThrottlerData where
  name : String
  ttl : Number
  limit : Number
  blockDuration : Option Number

def resolveValue (context : ExecutionContext) : Resolvable → Except Failure Number
  | .value value => .ok value
  | .function resolve => resolve context

def throttlerName (throttler : ThrottlerOptions) : String :=
  throttler.name.getD "default"

def getThrottlerData (context : ExecutionContext) (throttler : ThrottlerOptions) : Except Failure ThrottlerData := do
  let limit ← resolveValue context throttler.limit
  let ttl ← resolveValue context throttler.ttl
  let blockDuration ← throttler.blockDuration.mapM (resolveValue context)
  return ⟨throttlerName throttler, ttl, limit, blockDuration⟩

/-- `skipIf && skipIf(context) === true`. -/
def skips (context : ExecutionContext) (throttler : ThrottlerOptions) : Except Failure Bool :=
  match throttler.skipIf with
  | none => .ok false
  | some skipIf => skipIf context

inductive Call
  | increment (key : String) (ttl limit : Number) (blockDuration : Option Number) (throttlerName : String)
  | header (name : String) (value : Number)

structure ThrottlerStorageRecord where
  totalHits : Number
  timeToExpire : Number
  isBlocked : Bool
  timeToBlockExpire : Number

abbrev Call.Reply : Call → Type
  | increment .. => ThrottlerStorageRecord
  | header .. => Unit

/-- The details of the exception for too many requests. -/
structure TooManyRequests where
  key : String
  tracker : String
  ttl : Number
  limit : Number
  totalHits : Number
  timeToExpire : Number
  timeToBlockExpire : Number

/-- What the guard rejects with: exceptions.manyRequests, or what a function among the options threw. -/
inductive Rejection
  | manyRequests (message : String) (details : TooManyRequests)
  | failed (failure : Failure)

abbrev Promise (A : Type) : Type :=
  Program Call Call.Reply Rejection A

def increment (key : String) (data : ThrottlerData) : Promise ThrottlerStorageRecord :=
  Program.perform (Call.increment key data.ttl data.limit data.blockDuration data.name)

def header (name : String) (value : Number) : Promise Unit :=
  Program.perform (Call.header name value)

/-- A value that a function among the options gives, or its exception. -/
def given {A : Type} (outcome : Except Failure A) : Promise A :=
  Program.ofExcept (outcome.mapError .failed)

@[simp] theorem given_ok {A : Type} (a : A) : given (.ok a) = .done a := rfl

@[simp] theorem given_error {A : Type} (failure : Failure) :
    (given (.error failure) : Promise A) = .throw (.failed failure) := rfl

def throwException (key tracker : String) (data : ThrottlerData) (record : ThrottlerStorageRecord) : Promise Unit :=
  Program.throw (.manyRequests "Too Many Requests/Events/Retries"
    { key, tracker, ttl := data.ttl, limit := data.limit, totalHits := record.totalHits,
      timeToExpire := record.timeToExpire, timeToBlockExpire := record.timeToBlockExpire })

def getRoute (request : HttpRequest) : String :=
  "[" ++ request.method.toUpper ++ "]" ++ request_interface.path request.toRequestInterface

def generateKey (throttlerName clientContext clientId callCode : String) : String :=
  "CustomThrottlerGuard:" ++ throttlerName ++ ":" ++ clientContext ++ ":" ++ clientId ++ ":" ++ callCode

def headerPrefix : String := "X-RateLimit"

section Guard

variable (rounding : Rounding)

def handleHttpRequest (request : HttpRequest) (data : ThrottlerData) : Promise Bool := do
  let ip := (request.ip.or request.remoteAddress).getD "_"
  let key := generateKey data.name "http" ip (getRoute request)
  let record ← increment key data
  header (headerPrefix ++ "-Limit-" ++ data.name) data.limit
  header (headerPrefix ++ "-Remaining-" ++ data.name) (rounding.subtract data.limit record.totalHits).maxZero
  header (headerPrefix ++ "-Reset-" ++ data.name) record.timeToExpire
  if record.isBlocked then
    header "Retry-After" record.timeToBlockExpire
    throwException key ip data record
  return true

def handleWsEvent (event : WsEvent) (data : ThrottlerData) : Promise Bool := do
  let socketId := event.socketId.getD "_"
  let key := generateKey data.name "ws" socketId event.pattern
  let record ← increment key data
  if record.isBlocked then throwException key socketId data record
  return true

/-- The switch on the type of a call. -/
def handleCall (context : ExecutionContext) (data : ThrottlerData) : Promise Bool :=
  match context with
  | .event (.http request) => handleHttpRequest rounding request data
  | .event (.ws event) => handleWsEvent event data
  | .other _ => return false

/-- One turn of the loop in canActivate. -/
def runThrottler (context : ExecutionContext) (throttler : ThrottlerOptions) : Promise Bool := do
  let data ← given (getThrottlerData context throttler)
  let skipped ← given (skips context throttler)
  if skipped then return true else handleCall rounding context data

def runThrottlers (context : ExecutionContext) : List ThrottlerOptions → Promise (List Bool)
  | [] => return []
  | throttler :: throttlers => do
    let cont ← runThrottler rounding context throttler
    let continues ← runThrottlers context throttlers
    return cont :: continues

/-- CustomThrottlerGuard.canActivate. -/
def canActivate (globalThrottlers : List ThrottlerOptions) (reflector : Reflector) (context : ExecutionContext) :
    Promise Bool := do
  let continues ← runThrottlers rounding context (globalThrottlers ++ getCustomThrottlers reflector)
  return continues.all id

end Guard

/-- The storage, by what an increment replies and leaves behind. -/
abbrev ThrottlerStorage (State : Type) : Type :=
  String → Number → Number → Option Number → String → State → ThrottlerStorageRecord × State

/-- An increment that was made, with the record that came back. -/
structure Increment where
  key : String
  data : ThrottlerData
  record : ThrottlerStorageRecord

structure Session (State : Type) where
  storage : State
  increments : List Increment := []
  headers : List (String × Number) := []

variable {State A : Type}

/-- The storage is incremented, and what is called is written down. -/
def ThrottlerStorage.exec (increment : ThrottlerStorage State) : Exec Call Call.Reply Rejection (Session State)
  | .increment key ttl limit blockDuration throttlerName, session =>
    let (record, storage) := increment key ttl limit blockDuration throttlerName session.storage
    (.ok record, { session with
      storage, increments := session.increments ++ [⟨key, ⟨throttlerName, ttl, limit, blockDuration⟩, record⟩] })
  | .header name value, session => (.ok (), { session with headers := session.headers ++ [(name, value)] })

/-- Every function among the options that a call reaches gives a value. -/
def Resolves (context : ExecutionContext) (throttler : ThrottlerOptions) : Prop :=
  (∃ data, getThrottlerData context throttler = .ok data) ∧ ∃ skipped, skips context throttler = .ok skipped

/-- The throttlers that do not skip a call. -/
def applicable (context : ExecutionContext) (throttlers : List ThrottlerOptions) : List ThrottlerOptions :=
  throttlers.filter fun throttler =>
    match skips context throttler with
    | .ok skipped => !skipped
    | .error _ => true

/-- The key that a throttler counts an event on. -/
def Event.key (event : Event) (throttlerName : String) : String :=
  match event with
  | .http request =>
    generateKey throttlerName "http" ((request.ip.or request.remoteAddress).getD "_") (getRoute request)
  | .ws event => generateKey throttlerName "ws" (event.socketId.getD "_") event.pattern

/-- The increment that a throttler counts an event by. -/
structure Counts (event : Event) (throttler : ThrottlerOptions) (increment : Increment) : Prop where
  key : increment.key = event.key (throttlerName throttler)
  data : getThrottlerData (.event event) throttler = .ok increment.data

/-- One increment for each applicable throttler and no other one, on pairwise different keys. -/
structure CountsOnce (event : Event) (throttlers : List ThrottlerOptions) (increments : List Increment) : Prop where
  counts : List.Forall₂ (Counts event) (applicable (.event event) throttlers) increments
  keys : (increments.map Increment.key).Nodup

/-- Some increment reports isBlocked. -/
def Blocked (increments : List Increment) : Prop :=
  ∃ increment ∈ increments, increment.record.isBlocked = true

/-- How some throttlers end: all have counted the event and none is blocked, or
one of them is, or a function among their options has thrown. -/
inductive Ending (event : Event) (throttlers : List ThrottlerOptions) (added : List Increment) :
    Except Rejection A → Prop
  | counted (result : A) (hresolves : ∀ throttler ∈ throttlers, Resolves (.event event) throttler)
      (hcounts : List.Forall₂ (Counts event) (applicable (.event event) throttlers) added) (hfree : ¬ Blocked added) :
      Ending event throttlers added (.ok result)
  | blocked (rejection : Rejection) (hblocked : Blocked added) : Ending event throttlers added (.error rejection)
  | thrown (rejection : Rejection) (hfree : ¬ Blocked added)
      (hthrows : ¬ ∀ throttler ∈ throttlers, Resolves (.event event) throttler) :
      Ending event throttlers added (.error rejection)

variable (rounding : Rounding) (storage : ThrottlerStorage State)

theorem not_blocked_nil : ¬ Blocked [] := by
  simp [Blocked]

theorem blocked_singleton {increment : Increment} : Blocked [increment] ↔ increment.record.isBlocked = true := by
  simp [Blocked]

theorem blocked_append {first second : List Increment} :
    Blocked (first ++ second) ↔ Blocked first ∨ Blocked second := by
  simp only [Blocked, List.mem_append]
  constructor
  · rintro ⟨increment, hmem | hmem, hblocked⟩
    · exact Or.inl ⟨increment, hmem, hblocked⟩
    · exact Or.inr ⟨increment, hmem, hblocked⟩
  · rintro (⟨increment, hmem, hblocked⟩ | ⟨increment, hmem, hblocked⟩)
    · exact ⟨increment, Or.inl hmem, hblocked⟩
    · exact ⟨increment, Or.inr hmem, hblocked⟩

/-- A computation that ends as the throttlers do. -/
def EndsAs (event : Event) (throttlers : List ThrottlerOptions) (p : Promise A) (session : Session State) : Prop :=
  ∃ added, (Program.run storage.exec p session).2.increments = session.increments ++ added ∧
    Ending event throttlers added (Program.run storage.exec p session).1

/-- What the storage replies to an increment of a session. -/
def ThrottlerStorage.reply (key : String) (data : ThrottlerData) (session : Session State) : ThrottlerStorageRecord :=
  (storage key data.ttl data.limit data.blockDuration data.name session.storage).1

/-- A session after an increment. -/
def ThrottlerStorage.counted (key : String) (data : ThrottlerData) (session : Session State) : Session State where
  storage := (storage key data.ttl data.limit data.blockDuration data.name session.storage).2
  increments := session.increments ++ [⟨key, data, storage.reply key data session⟩]
  headers := session.headers

theorem run_increment (key : String) (data : ThrottlerData) (f : ThrottlerStorageRecord → Promise A)
    (session : Session State) : Program.run storage.exec (increment key data >>= f) session =
      Program.run storage.exec (f (storage.reply key data session)) (storage.counted key data session) := rfl

theorem run_header (name : String) (value : Number) (f : Unit → Promise A) (session : Session State) :
    Program.run storage.exec (header name value >>= f) session =
      Program.run storage.exec (f ()) { session with headers := session.headers ++ [(name, value)] } := rfl

/-- A call of a counted type makes one increment, and is rejected where that is blocked. -/
theorem run_handleCall (event : Event) (data : ThrottlerData) (session : Session State) :
    ∃ increment ended session', Program.run storage.exec (handleCall rounding (.event event) data) session =
      (ended, session') ∧ session'.increments = session.increments ++ [increment] ∧
      increment.key = event.key data.name ∧ increment.data = data ∧
      ((increment.record.isBlocked = false ∧ ended = .ok true) ∨
        (increment.record.isBlocked = true ∧ ∃ rejection, ended = .error rejection)) := by
  cases event with
  | http request =>
    simp only [handleCall, handleHttpRequest, Event.key]
    rw [run_increment, run_header, run_header, run_header]
    split
    · next hblocked =>
      rw [run_header]
      exact ⟨_, _, _, rfl, rfl, rfl, rfl, Or.inr ⟨hblocked, _, rfl⟩⟩
    · next hfree => exact ⟨_, _, _, rfl, rfl, rfl, rfl, Or.inl ⟨Bool.eq_false_of_not_eq_true hfree, rfl⟩⟩
  | ws event =>
    simp only [handleCall, handleWsEvent, Event.key]
    rw [run_increment]
    split
    · next hblocked => exact ⟨_, _, _, rfl, rfl, rfl, rfl, Or.inr ⟨hblocked, _, rfl⟩⟩
    · next hfree => exact ⟨_, _, _, rfl, rfl, rfl, rfl, Or.inl ⟨Bool.eq_false_of_not_eq_true hfree, rfl⟩⟩

theorem getThrottlerData_name {context : ExecutionContext} {throttler : ThrottlerOptions} {data : ThrottlerData}
    (h : getThrottlerData context throttler = .ok data) : data.name = throttlerName throttler := by
  unfold getThrottlerData at h
  obtain ⟨limit, _, h⟩ := bind_eq_ok h
  obtain ⟨ttl, _, h⟩ := bind_eq_ok h
  obtain ⟨blockDuration, _, h⟩ := bind_eq_ok h
  cases h
  rfl

/-- One throttler counts an event, unless it skips it or a function among its options throws. -/
theorem run_runThrottler (event : Event) (throttler : ThrottlerOptions) (session : Session State) :
    EndsAs storage event [throttler] (runThrottler rounding (.event event) throttler) session := by
  unfold runThrottler
  cases hdata : getThrottlerData (.event event) throttler with
  | error failure =>
    refine ⟨[], by simp, .thrown (.failed failure) not_blocked_nil ?_⟩
    intro hresolves
    obtain ⟨⟨data, hok⟩, _⟩ := hresolves throttler (List.mem_singleton_self throttler)
    cases hdata.symm.trans hok
  | ok data =>
    cases hskip : skips (.event event) throttler with
    | error failure =>
      refine ⟨[], by simp, .thrown (.failed failure) not_blocked_nil ?_⟩
      intro hresolves
      obtain ⟨_, skipped, hok⟩ := hresolves throttler (List.mem_singleton_self throttler)
      cases hskip.symm.trans hok
    | ok skipped =>
      have hresolves : ∀ other ∈ [throttler], Resolves (.event event) other := by
        intro other hmem
        rw [List.mem_singleton.mp hmem]
        exact ⟨⟨data, hdata⟩, skipped, hskip⟩
      cases skipped with
      | true =>
        refine ⟨[], by simp, .counted true hresolves ?_ not_blocked_nil⟩
        simp [applicable, hskip]
      | false =>
        obtain ⟨increment, ended, session', hrun, hincrements, hkey, rfl, hended⟩ :=
          run_handleCall rounding storage event data session
        have happlicable : applicable (.event event) [throttler] = [throttler] := by simp [applicable, hskip]
        simp only [EndsAs, given_ok, Program.done_bind, Bool.false_eq_true, if_false, hrun]
        refine ⟨[increment], hincrements, ?_⟩
        obtain ⟨hfree, rfl⟩ | ⟨hblocked, rejection, rfl⟩ := hended
        · refine .counted true hresolves ?_ ?_
          · rw [happlicable]
            rw [getThrottlerData_name hdata] at hkey
            exact .cons ⟨hkey, hdata⟩ .nil
          · rw [blocked_singleton, hfree]
            simp
        · exact .blocked rejection (blocked_singleton.mpr hblocked)

/-- What more throttlers end with after those that have counted an event. -/
theorem Ending.after {event : Event} {throttlers more : List ThrottlerOptions} {first second : List Increment}
    {ended : Except Rejection A} (hresolves : ∀ throttler ∈ throttlers, Resolves (.event event) throttler)
    (hcounts : List.Forall₂ (Counts event) (applicable (.event event) throttlers) first) (hfree : ¬ Blocked first)
    (h : Ending event more second ended) : Ending event (throttlers ++ more) (first ++ second) ended := by
  cases h with
  | counted result hmore hcountsMore hfreeMore =>
    refine .counted result ?_ ?_ ?_
    · intro throttler hmem
      exact (List.mem_append.mp hmem).elim (hresolves throttler) (hmore throttler)
    · rw [applicable, List.filter_append]
      exact List.rel_append hcounts hcountsMore
    · rw [blocked_append]
      exact fun hblocked => hblocked.elim hfree hfreeMore
  | blocked rejection hblocked => exact .blocked rejection (blocked_append.mpr (Or.inr hblocked))
  | thrown rejection hfreeMore hthrows =>
    refine .thrown rejection ?_ ?_
    · rw [blocked_append]
      exact fun hblocked => hblocked.elim hfree hfreeMore
    · intro hall
      exact hthrows fun throttler hmem => hall throttler (List.mem_append_right _ hmem)

theorem EndsAs.bind {B : Type} {event : Event} {throttlers more : List ThrottlerOptions} {p : Promise A}
    {f : A → Promise B} {session : Session State} (hp : EndsAs storage event throttlers p session)
    (hf : ∀ a session', EndsAs storage event more (f a) session') :
    EndsAs storage event (throttlers ++ more) (p >>= f) session := by
  obtain ⟨first, hfirst, hending⟩ := hp
  cases hrun : Program.run storage.exec p session with
  | mk ended session' =>
    simp only [hrun] at hfirst hending
    cases hending with
    | counted result hresolves hcounts hfree =>
      obtain ⟨second, hsecond, hmore⟩ := hf result session'
      refine ⟨first ++ second, ?_, ?_⟩
      · rw [Program.run_bind_of_ok storage.exec hrun, hsecond, hfirst, List.append_assoc]
      · rw [Program.run_bind_of_ok storage.exec hrun]
        exact hmore.after hresolves hcounts hfree
    | blocked rejection hblocked =>
      rw [EndsAs, Program.run_bind_of_error storage.exec hrun]
      exact ⟨first, hfirst, .blocked rejection hblocked⟩
    | thrown rejection hfree hthrows =>
      rw [EndsAs, Program.run_bind_of_error storage.exec hrun]
      refine ⟨first, hfirst, .thrown rejection hfree ?_⟩
      intro hall
      exact hthrows fun throttler hmem => hall throttler (List.mem_append_left _ hmem)

theorem endsAs_done (event : Event) (result : A) (session : Session State) :
    EndsAs storage event [] (.done result) session :=
  ⟨[], by simp, .counted result (by simp) (by simp [applicable]) not_blocked_nil⟩

theorem run_runThrottlers (event : Event) (throttlers : List ThrottlerOptions) (session : Session State) :
    EndsAs storage event throttlers (runThrottlers rounding (.event event) throttlers) session := by
  induction throttlers generalizing session with
  | nil => exact endsAs_done storage event [] session
  | cons throttler throttlers ih =>
    have hrest : ∀ cont session', EndsAs storage event (throttlers ++ [])
        (runThrottlers rounding (.event event) throttlers >>= fun continues => .done (cont :: continues)) session' :=
      fun cont session' => (ih session').bind storage fun continues => endsAs_done storage event (cont :: continues)
    rw [List.append_nil] at hrest
    exact (run_runThrottler rounding storage event throttler session).bind storage hrest

/-- The throttlers of an event, with the metadata that two decorators set. -/
def throttlersOf (globalThrottlers : List ThrottlerOptions) (handler controller : Option ThrottlerOptions) :
    List ThrottlerOptions :=
  globalThrottlers ++ getCustomThrottlers (.decorated handler controller)

/-- What a call of the guard ends with, and the session it leaves behind. -/
def ThrottlerStorage.guarded (globalThrottlers : List ThrottlerOptions) (handler controller : Option ThrottlerOptions)
    (event : Event) (state : State) : Except Rejection Bool × Session State :=
  Program.run storage.exec (canActivate rounding globalThrottlers (.decorated handler controller) (.event event))
    { storage := state }

/-- How a call of the guard ends. -/
theorem ending_guarded (globalThrottlers : List ThrottlerOptions) (handler controller : Option ThrottlerOptions)
    (event : Event) (state : State) : Ending event (throttlersOf globalThrottlers handler controller)
      (storage.guarded rounding globalThrottlers handler controller event state).2.increments
      (storage.guarded rounding globalThrottlers handler controller event state).1 := by
  have hends : EndsAs storage event (throttlersOf globalThrottlers handler controller ++ [])
      (canActivate rounding globalThrottlers (.decorated handler controller) (.event event)) { storage := state } :=
    (run_runThrottlers rounding storage event _ _).bind storage
      fun continues => endsAs_done storage event (continues.all id)
  obtain ⟨added, hincrements, hending⟩ := hends
  rw [List.append_nil] at hending
  rw [ThrottlerStorage.guarded, hincrements, List.nil_append]
  exact hending

/-- A call of the guard that ends without rejecting has counted the event once for
each applicable throttler, and it rejects exactly where an increment is blocked. -/
structure CountedOnce (globalThrottlers : List ThrottlerOptions) (handler controller : Option ThrottlerOptions)
    (event : Event) (state : State) : Prop where
  counts : ∀ result session,
    storage.guarded rounding globalThrottlers handler controller event state = (.ok result, session) →
      CountsOnce event (throttlersOf globalThrottlers handler controller) session.increments
  rejects : (∃ rejection session,
    storage.guarded rounding globalThrottlers handler controller event state = (.error rejection, session)) ↔
      Blocked (storage.guarded rounding globalThrottlers handler controller event state).2.increments

theorem generateKey_eq_append (throttlerName clientContext clientId callCode : String) :
    generateKey throttlerName clientContext clientId callCode = "CustomThrottlerGuard:" ++ throttlerName ++
      (":" ++ clientContext ++ ":" ++ clientId ++ ":" ++ callCode) := by
  unfold generateKey
  simp only [String.append_assoc]

theorem generateKey_injective (clientContext clientId callCode : String) :
    Function.Injective fun throttlerName => generateKey throttlerName clientContext clientId callCode := by
  intro name name' h
  simp only [generateKey_eq_append] at h
  rw [String.append_left_inj] at h
  exact (String.append_right_inj _).mp h

/-- An event is counted on one key for each name. -/
theorem key_injective (event : Event) : Function.Injective event.key := by
  cases event with
  | http request => exact generateKey_injective _ _ _
  | ws event => exact generateKey_injective _ _ _

/-- The keys of the increments are as different as the names of the throttlers. -/
theorem nodup_keys_iff {event : Event} {throttlers : List ThrottlerOptions} {increments : List Increment}
    (h : List.Forall₂ (Counts event) throttlers increments) :
    (increments.map Increment.key).Nodup ↔ (throttlers.map throttlerName).Nodup := by
  have hkeys : increments.map Increment.key = (throttlers.map throttlerName).map event.key := by
    induction h with
    | nil => rfl
    | cons hcounts _ ih => rw [List.map_cons, List.map_cons, List.map_cons, ih, hcounts.key]
  rw [hkeys]
  exact List.nodup_map_iff (key_injective event)

/-- A storage that blocks nothing. -/
def unlimited : ThrottlerStorage Unit := fun _ _ _ _ _ _ => (⟨.zero, .zero, false, .zero⟩, ())

theorem run_unlimited (p : Promise A) {session : Session Unit} (h : ¬ Blocked session.increments) :
    ¬ Blocked (Program.run unlimited.exec p session).2.increments := by
  induction p generalizing session with
  | done result => exact h
  | throw error => exact h
  | await call next ih =>
    rw [Program.run_await]
    apply ih
    cases call with
    | header name value => exact h
    | increment key ttl limit blockDuration throttlerName =>
      simp only [ThrottlerStorage.exec, blocked_append, blocked_singleton]
      rintro (hblocked | hblocked)
      · exact h hblocked
      · cases hblocked

/-- The guard counts an event once for each applicable throttler in every storage
exactly if no function among the options throws and no two of them have one name. -/
theorem countedOnce_iff (globalThrottlers : List ThrottlerOptions) (handler controller : Option ThrottlerOptions)
    (event : Event) :
    (∀ (State : Type) (storage : ThrottlerStorage State) (state : State),
      CountedOnce rounding storage globalThrottlers handler controller event state) ↔
    (∀ throttler ∈ throttlersOf globalThrottlers handler controller, Resolves (.event event) throttler) ∧
      ((applicable (.event event) (throttlersOf globalThrottlers handler controller)).map throttlerName).Nodup := by
  constructor
  · intro h
    obtain ⟨hcounts, hrejects⟩ := h Unit unlimited ()
    have hending := ending_guarded rounding unlimited globalThrottlers handler controller event ()
    have hfree : ¬ Blocked (unlimited.guarded rounding globalThrottlers handler controller event ()).2.increments :=
      run_unlimited _ not_blocked_nil
    cases hguarded : unlimited.guarded rounding globalThrottlers handler controller event () with
    | mk ended session =>
      rw [hguarded] at hrejects hending hfree
      cases hending with
      | counted result hresolves hcounted _ =>
        exact ⟨hresolves, (nodup_keys_iff hcounted).mp (hcounts result session hguarded).keys⟩
      | blocked rejection hblocked => exact absurd hblocked hfree
      | thrown rejection _ _ => exact absurd (hrejects.mp ⟨rejection, session, rfl⟩) hfree
  · rintro ⟨hresolves, hnodup⟩ State storage state
    have hending := ending_guarded rounding storage globalThrottlers handler controller event state
    cases hguarded : storage.guarded rounding globalThrottlers handler controller event state with
    | mk ended session =>
      rw [hguarded] at hending
      constructor
      · intro result session' hended
        rw [hguarded] at hended
        obtain ⟨rfl, rfl⟩ := Prod.mk.inj hended
        cases hending with
        | counted _ _ hcounted _ => exact ⟨hcounted, (nodup_keys_iff hcounted).mpr hnodup⟩
      · rw [hguarded]
        cases hending with
        | counted result _ _ hfree =>
          refine ⟨?_, fun hblocked => absurd hblocked hfree⟩
          rintro ⟨rejection, session', hended⟩
          cases hended
        | blocked rejection hblocked => exact ⟨fun _ => hblocked, fun _ => ⟨rejection, session, rfl⟩⟩
        | thrown _ _ hthrows => exact absurd hresolves hthrows

/-- Options without a name, which let one request through. -/
def unnamed : ThrottlerOptions where
  limit := .value .one
  ttl := .value .one

def getUsers : HttpRequest where
  ip := some "10.0.0.1"
  method := "GET"
  originalUrl := "/users"
  url := "/users"

/-- A handler and its class that are both decorated without a name count one request twice on one key. -/
theorem not_countedOnce_unnamed : ¬ ∀ (rounding : Rounding) (globalThrottlers : List ThrottlerOptions)
    (handler controller : Option ThrottlerOptions) (event : Event) (State : Type) (storage : ThrottlerStorage State)
    (state : State), (globalThrottlers.map throttlerName).Nodup →
      CountedOnce rounding storage globalThrottlers handler controller event state := by
  intro hclaim
  have hcounted := hclaim Rounding.even [] (some unnamed) (some unnamed) (.http getUsers) Unit unlimited () .nil
  obtain ⟨hcounts, hkeys⟩ := hcounted.counts true _ rfl
  have hnames := (nodup_keys_iff hcounts).mp hkeys
  have hcustom : (applicable (.event (.http getUsers)) (throttlersOf [] (some unnamed) (some unnamed))).map
      throttlerName = ["custom", "custom"] := rfl
  rw [hcustom] at hnames
  simp at hnames

end node_backend.custom_throttler_guard

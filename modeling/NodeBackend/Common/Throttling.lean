import NodeBackend.Common.CustomThrottler
import NodeBackend.Js.Text
import NodeBackend.Program.Admission
import NodeBackend.Program.Isolation

namespace node_backend.custom_throttler_guard

open js program
open node_backend.exceptions

/-- Whom an event is counted for: the type of its call, the client and what it calls. -/
structure Caller where
  context : String
  clientId : String
  callCode : String
  deriving DecidableEq

def Event.caller : Event → Caller
  | .http request => ⟨"http", (request.ip.or request.remoteAddress).getD "_", getRoute request⟩
  | .ws event => ⟨"ws", event.socketId.getD "_", event.pattern⟩

theorem Event.key_eq (event : Event) (throttlerName : String) : event.key throttlerName =
    generateKey throttlerName event.caller.context event.caller.clientId event.caller.callCode := by
  cases event <;> rfl

/-- The address of an http client has no bracket, and the id of a socket no colon. -/
def Event.Addressed : Event → Prop
  | .http request => '[' ∉ ((request.ip.or request.remoteAddress).getD "_").toList
  | .ws event => ':' ∉ (event.socketId.getD "_").toList

/-- The characters of a key. -/
theorem toList_generateKey (name clientContext clientId callCode : String) :
    (generateKey name clientContext clientId callCode).toList = "CustomThrottlerGuard:".toList ++
      (name.toList ++ ':' :: (clientContext.toList ++ ':' :: (clientId.toList ++ ':' :: callCode.toList))) := by
  unfold generateKey
  simp only [String.toList_append]
  have hcolon : ":".toList = [':'] := rfl
  rw [hcolon]
  simp only [List.append_assoc, List.cons_append, List.nil_append]

theorem getRoute_toList (request : HttpRequest) : ∃ rest, (getRoute request).toList = '[' :: rest := by
  unfold getRoute
  have hbracket : "[".toList = ['['] := rfl
  simp only [String.toList_append, hbracket, List.append_assoc, List.cons_append, List.nil_append]
  exact ⟨_, rfl⟩

/-- A key tells the name of its throttler and the caller. -/
theorem caller_eq_of_key_eq {event event' : Event} {name name' : String} (hname : ':' ∉ name.toList)
    (hname' : ':' ∉ name'.toList) (haddressed : event.Addressed) (haddressed' : event'.Addressed)
    (h : event.key name = event'.key name') : name = name' ∧ event.caller = event'.caller := by
  have htext := congrArg String.toList h
  rw [Event.key_eq, Event.key_eq, toList_generateKey, toList_generateKey] at htext
  obtain ⟨hsame, hrest⟩ := eq_of_separator_append hname hname' (List.append_cancel_left htext)
  refine ⟨String.toList_injective hsame, ?_⟩
  have hcontext : ∀ event : Event, ':' ∉ event.caller.context.toList := by
    intro event
    cases event with
    | http request => exact (by decide : ':' ∉ "http".toList)
    | ws event => exact (by decide : ':' ∉ "ws".toList)
  obtain ⟨hcontexts, hcall⟩ := eq_of_separator_append (hcontext event) (hcontext event') hrest
  cases event with
  | http request =>
    cases event' with
    | http request' =>
      -- The route is what begins with the first bracket.
      obtain ⟨route, hroute⟩ := getRoute_toList request
      obtain ⟨route', hroute'⟩ := getRoute_toList request'
      have hfree : ∀ clientId : String, '[' ∉ clientId.toList → '[' ∉ clientId.toList ++ [':'] := by
        intro clientId hclient
        simpa using hclient
      dsimp only [Event.caller] at hcall
      rw [hroute, hroute', List.append_cons, List.append_cons (String.toList _) ':' ('[' :: route')] at hcall
      obtain ⟨hip, hpath⟩ := eq_of_separator_append (hfree _ haddressed) (hfree _ haddressed') hcall
      have hcode : getRoute request = getRoute request' := String.toList_injective (by rw [hroute, hroute', hpath])
      rw [Event.caller, Event.caller, hcode, String.toList_injective (List.append_inj_left' hip rfl)]
    | ws event' => exact absurd hcontexts (by decide : "http".toList ≠ "ws".toList)
  | ws event =>
    cases event' with
    | http request' => exact absurd hcontexts (by decide : "ws".toList ≠ "http".toList)
    | ws event' =>
      obtain ⟨hid, hpattern⟩ := eq_of_separator_append haddressed haddressed' hcall
      have hcode : event.pattern = event'.pattern := String.toList_injective hpattern
      rw [Event.caller, Event.caller, hcode, String.toList_injective hid]

/-- A storage with a cell under each key, by what an increment and the time make of a cell. -/
structure Timed (Cell Tick : Type) where
  hit : Number → Number → Option Number → String → Cell → ThrottlerStorageRecord × Cell
  pass : Tick → Cell → Cell

/-- A call that comes to the guard, with the throttlers that are set for it. -/
structure Guarded where
  globalThrottlers : List ThrottlerOptions
  handler : Option ThrottlerOptions
  controller : Option ThrottlerOptions
  event : Event

def Guarded.throttlers (guarded : Guarded) : List ThrottlerOptions :=
  throttlersOf guarded.globalThrottlers guarded.handler guarded.controller

/-- The names of throttlers have no colon. -/
structure Guarded.Proper (guarded : Guarded) : Prop where
  addressed : guarded.event.Addressed
  named : ∀ throttler ∈ guarded.throttlers, ':' ∉ (throttlerName throttler).toList

section

variable {Cell Tick : Type} (timed : Timed Cell Tick) (rounding : Rounding)

def Timed.storage : ThrottlerStorage (String → Cell) := fun key ttl limit blockDuration throttlerName cells =>
  ((timed.hit ttl limit blockDuration throttlerName (cells key)).1,
    Function.update cells key (timed.hit ttl limit blockDuration throttlerName (cells key)).2)

def Timed.wait (tick : Tick) (session : Session (String → Cell)) : Session (String → Cell) :=
  { session with storage := fun key => timed.pass tick (session.storage key) }

def Guarded.program (guarded : Guarded) : Promise Bool :=
  canActivate rounding guarded.globalThrottlers (.decorated guarded.handler guarded.controller) (.event guarded.event)

/-- What runs for a call, or for none in its place. -/
def programOf : Option Guarded → Promise Bool
  | some guarded => guarded.program rounding
  | none => .done true

/-- Calls that are guarded at the same time, after some turns. -/
def guardAll (calls : List (Option Guarded)) (cells : String → Cell) (schedule : List (Move Tick)) :
    Pool Call Call.Reply Rejection Bool (Session (String → Cell)) :=
  Pool.run timed.storage.exec timed.wait (Pool.start { storage := cells } (calls.map (programOf rounding))) schedule

/-- The calls of one caller, and none of the others. -/
def callsOf (caller : Caller) (calls : List Guarded) : List (Option Guarded) :=
  calls.map fun guarded => if guarded.event.caller = caller then some guarded else none

end

section

variable {Kind : Call → Prop} (rounding : Rounding)

theorem only_given {A : Type} (outcome : Except Failure A) : (given outcome : Promise A).Only Kind := by
  cases outcome <;> trivial

/-- The guard increments the keys of its throttlers and sets headers. -/
theorem only_program (guarded : Guarded) (hheader : ∀ name value, Kind (.header name value))
    (hincrement : ∀ throttler ∈ guarded.throttlers, ∀ ttl limit blockDuration name,
      Kind (.increment (guarded.event.key (throttlerName throttler)) ttl limit blockDuration name)) :
    (guarded.program rounding).Only Kind := by
  have hset : ∀ name value, (header name value).Only Kind := fun name value => Program.only_perform (hheader name value)
  have hcall : ∀ throttler ∈ guarded.throttlers, ∀ data, data.name = throttlerName throttler →
      (handleCall rounding (.event guarded.event) data).Only Kind := by
    intro throttler hthrottler data hname
    have hone : ∀ ttl limit blockDuration name,
        Kind (.increment (guarded.event.key data.name) ttl limit blockDuration name) := by
      rw [hname]
      exact hincrement throttler hthrottler
    cases hevent : guarded.event with
    | http request =>
      rw [hevent] at hone
      refine (Program.only_perform (hone _ _ _ _)).bind fun record => ?_
      refine (hset _ _).bind fun _ => (hset _ _).bind fun _ => (hset _ _).bind fun _ => ?_
      split
      · exact (hset _ _).bind fun _ => trivial
      · trivial
    | ws event =>
      rw [hevent] at hone
      refine (Program.only_perform (hone _ _ _ _)).bind fun record => ?_
      split <;> trivial
  have hall : ∀ throttlers : List ThrottlerOptions, (∀ throttler ∈ throttlers, throttler ∈ guarded.throttlers) →
      (runThrottlers rounding (.event guarded.event) throttlers).Only Kind := by
    intro throttlers hsubset
    induction throttlers with
    | nil => trivial
    | cons throttler rest ih =>
      refine Program.Only.bind ?_ fun cont =>
        (ih fun other hother => hsubset other (List.mem_cons_of_mem _ hother)).bind fun _ => trivial
      unfold runThrottler
      cases hdata : getThrottlerData (.event guarded.event) throttler with
      | error failure => trivial
      | ok data =>
        rw [given_ok, Program.done_bind]
        refine (only_given _).bind fun skipped => ?_
        cases skipped with
        | true => trivial
        | false => exact hcall throttler (hsubset throttler List.mem_cons_self) data (getThrottlerData_name hdata)
  exact (hall _ fun throttler hthrottler => hthrottler).bind fun _ => trivial

end

section isolation

variable {Cell Tick : Type} {timed : Timed Cell Tick} {rounding : Rounding}

/-- The keys that a caller is counted on. -/
def Caller.keys (caller : Caller) (key : String) : Prop :=
  ∃ name : String, ':' ∉ name.toList ∧ key = generateKey name caller.context caller.clientId caller.callCode

/-- Calls that increment keys of some kind only. -/
def Increments (Key : String → Prop) : Call → Prop
  | .increment key .. => Key key
  | .header .. => True

/-- The cells of a caller. -/
def Caller.cells (caller : Caller) (session : Session (String → Cell)) (key : {key // caller.keys key}) : Cell :=
  session.storage key

theorem sees_cells (timed : Timed Cell Tick) (caller : Caller) : Sees timed.storage.exec (Increments caller.keys)
    (Increments fun key => ¬ caller.keys key) (caller.cells : Session (String → Cell) → _) where
  reply := by
    intro call session session' hcall hview
    cases call with
    | header name value => rfl
    | increment key ttl limit blockDuration name =>
      have hcell : session.storage key = session'.storage key := congrFun hview ⟨key, hcall⟩
      simp only [ThrottlerStorage.exec, Timed.storage, hcell]
  state := by
    intro call session session' hcall hview
    cases call with
    | header name value => exact hview
    | increment key ttl limit blockDuration name =>
      have hcell : session.storage key = session'.storage key := congrFun hview ⟨key, hcall⟩
      funext other
      have hother : session.storage other = session'.storage other := congrFun hview other
      simp only [Caller.cells, ThrottlerStorage.exec, Timed.storage, hcell, Function.update_apply, hother]
  frame := by
    intro call session hcall
    cases call with
    | header name value => rfl
    | increment key ttl limit blockDuration name =>
      funext other
      have hne : (other : String) ≠ key := by
        intro heq
        rw [← heq] at hcall
        exact hcall other.property
      simp only [Caller.cells, ThrottlerStorage.exec, Timed.storage, Function.update_of_ne hne]

theorem Guarded.Proper.key_iff {guarded other : Guarded} (h : guarded.Proper) (hother : other.Proper)
    {throttler : ThrottlerOptions} (hthrottler : throttler ∈ other.throttlers) :
    guarded.event.caller.keys (other.event.key (throttlerName throttler)) ↔
      other.event.caller = guarded.event.caller := by
  constructor
  · intro hkey
    obtain ⟨name, hname, heq⟩ := hkey
    rw [← Event.key_eq] at heq
    exact (caller_eq_of_key_eq (hother.named throttler hthrottler) hname hother.addressed h.addressed heq).2
  · intro hsame
    exact ⟨_, hother.named throttler hthrottler, by rw [Event.key_eq, hsame]⟩

theorem only_programOf {calls : List (Option Guarded)} {Key : String → Prop} {i : Nat} {p : Promise Bool}
    (hp : (calls.map (programOf rounding))[i]? = some p)
    (hkey : ∀ guarded, calls[i]? = some (some guarded) → ∀ throttler ∈ guarded.throttlers,
      Key (guarded.event.key (throttlerName throttler))) : p.Only (Increments Key) := by
  rw [List.getElem?_map, Option.map_eq_some_iff] at hp
  obtain ⟨call, hcall, rfl⟩ := hp
  cases call with
  | none => trivial
  | some guarded =>
    refine only_program rounding guarded (fun _ _ => trivial) ?_
    intro throttler hthrottler _ _ _ _
    exact hkey guarded hcall throttler hthrottler

/-- How callers are guarded has nothing to do with each other: whatever the storage makes
of a hit, the calls of one end in any order of turns as if no other had called, and the
cells that they are counted in are the same. -/
theorem callers_isolated (timed : Timed Cell Tick) (rounding : Rounding) (calls : List Guarded)
    (hproper : ∀ guarded ∈ calls, guarded.Proper) (cells : String → Cell) (schedule : List (Move Tick)) (i : Nat)
    (guarded : Guarded) (hcall : calls[i]? = some guarded) :
    (guardAll timed rounding (calls.map some) cells schedule).threads[i]? =
      (guardAll timed rounding (callsOf guarded.event.caller calls) cells schedule).threads[i]? ∧
    guarded.event.caller.cells (guardAll timed rounding (calls.map some) cells schedule).state =
      guarded.event.caller.cells
        (guardAll timed rounding (callsOf guarded.event.caller calls) cells schedule).state := by
  have hguarded := hproper guarded (List.mem_of_getElem? hcall)
  let mine : Nat → Bool := fun j => (calls[j]?).any fun other => decide (other.event.caller = guarded.event.caller)
  have hmine : ∀ (j : Nat) (other : Guarded), calls[j]? = some other →
      (mine j = true ↔ other.event.caller = guarded.event.caller) := by
    intro j other hother
    simp [mine, hother]
  have hfull : ∀ (j : Nat) (other : Guarded), (calls.map some)[j]? = some (some other) → calls[j]? = some other := by
    intro j other hother
    simpa using hother
  have hstart : Pool.Alike (Increments guarded.event.caller.keys)
      (Increments fun key => ¬ guarded.event.caller.keys key)
      (Caller.cells guarded.event.caller) mine
      (Pool.start { storage := cells } ((calls.map some).map (programOf rounding)))
      (Pool.start { storage := cells } ((callsOf guarded.event.caller calls).map (programOf rounding))) := by
    refine ⟨rfl, ?_, ?_, ?_, ?_⟩
    · intro j hj
      cases hother : calls[j]? with
      | none => simp [Pool.start, callsOf, hother]
      | some other => simp [Pool.start, callsOf, hother, (hmine j other hother).mp hj]
    · intro j p hj hp
      refine only_programOf hp fun other hother throttler hthrottler => ?_
      have hother' := hfull j other hother
      exact (hguarded.key_iff (hproper other (List.mem_of_getElem? hother')) hthrottler).mpr
        ((hmine j other hother').mp hj)
    · intro j p hj hp
      refine only_programOf hp fun other hother throttler hthrottler hkey => ?_
      have hother' := hfull j other hother
      have hsame := (hguarded.key_iff (hproper other (List.mem_of_getElem? hother')) hthrottler).mp hkey
      rw [(hmine j other hother').mpr hsame] at hj
      cases hj
    · intro j p hj hp
      refine only_programOf hp fun other hother throttler hthrottler hkey => ?_
      rw [callsOf, List.getElem?_map, Option.map_eq_some_iff] at hother
      obtain ⟨other', hother', hkept⟩ := hother
      split at hkept
      · next hsame =>
        rw [(hmine j other' hother').mpr hsame] at hj
        cases hj
      · cases hkept
  have hevent : ∀ tick (session session' : Session (String → Cell)),
      guarded.event.caller.cells session = guarded.event.caller.cells session' →
      guarded.event.caller.cells (timed.wait tick session) = guarded.event.caller.cells (timed.wait tick session') := by
    intro tick session session' hview
    funext key
    exact congrArg (timed.pass tick) (congrFun hview key)
  have hend := hstart.run (sees_cells timed guarded.event.caller) hevent schedule
  exact ⟨hend.same i ((hmine i guarded hcall).mpr rfl), hend.view⟩

end isolation

section limit

variable {Cell Tick : Type} {timed : Timed Cell Tick} {rounding : Rounding}

/-- A storage counts the hits of a cell while its window is current: a hit that is not
blocked is one more, and within the limit. -/
structure Counting (timed : Timed Cell Tick) (count : Cell → Nat) (Current : Cell → Prop) : Prop where
  kept : ∀ ttl limit blockDuration name cell, Current (timed.hit ttl limit blockDuration name cell).2 →
    count cell ≤ count (timed.hit ttl limit blockDuration name cell).2
  free : ∀ ttl (limit : ℕ) hlimit blockDuration name cell,
    Current (timed.hit ttl (.finite ⟨false, limit, hlimit⟩) blockDuration name cell).2 →
    (timed.hit ttl (.finite ⟨false, limit, hlimit⟩) blockDuration name cell).1.isBlocked = false →
      count cell < count (timed.hit ttl (.finite ⟨false, limit, hlimit⟩) blockDuration name cell).2 ∧
        count (timed.hit ttl (.finite ⟨false, limit, hlimit⟩) blockDuration name cell).2 ≤ limit
  pass : ∀ tick cell, Current (timed.pass tick cell) → count cell ≤ count (timed.pass tick cell)

/-- One of the throttlers of a call has a name and a limit, and does not skip the call. -/
def Guarded.LimitedTo (guarded : Guarded) (name : String) (limit : ℕ) : Prop :=
  ∃ throttler ∈ guarded.throttlers, throttlerName throttler = name ∧
    skips (.event guarded.event) throttler = .ok false ∧
    ∃ data, getThrottlerData (.event guarded.event) throttler = .ok data ∧
      ∃ hlimit, data.limit = .finite ⟨false, limit, hlimit⟩

/-- An increment of a key under a limit that is not blocked. -/
def Granted (key : String) (limit : ℕ) : (call : Call) → Except Rejection call.Reply → Prop
  | .increment key' _ limit' _ _, reply =>
    key' = key ∧ (∃ hlimit, limit' = .finite ⟨false, limit, hlimit⟩) ∧
      ∃ record, reply = .ok record ∧ record.isBlocked = false
  | .header .., _ => False

theorem demands_increment {A : Type} {key : String} {limit : ℕ} {hlimit : Representable limit} {data : ThrottlerData}
    {f : ThrottlerStorageRecord → Promise A} (hdata : data.limit = .finite ⟨false, limit, hlimit⟩)
    (hblocked : ∀ record : ThrottlerStorageRecord, record.isBlocked = true → (f record).Demands (Granted key limit)) :
    (increment key data >>= f).Demands (Granted key limit) := by
  intro reply hreply
  cases reply with
  | error rejection => trivial
  | ok record =>
    refine hblocked record (Bool.eq_true_of_not_eq_false fun hfree => hreply ?_)
    exact ⟨rfl, ⟨hlimit, hdata⟩, record, rfl, hfree⟩

theorem demands_handleCall (event : Event) {data : ThrottlerData} {limit : ℕ} {hlimit : Representable limit}
    (hdata : data.limit = .finite ⟨false, limit, hlimit⟩) :
    (handleCall rounding (.event event) data).Demands (Granted (event.key data.name) limit) := by
  cases event with
  | http request =>
    refine demands_increment hdata fun record hblocked => ?_
    refine Program.demands_bind fun _ => Program.demands_bind fun _ => Program.demands_bind fun _ => ?_
    rw [if_pos hblocked]
    exact Program.demands_bind fun _ => trivial
  | ws event =>
    refine demands_increment hdata fun record hblocked => ?_
    rw [if_pos hblocked]
    trivial

/-- No call of the guard returns without such an increment. -/
theorem demands_program {guarded : Guarded} {name : String} {limit : ℕ} (h : guarded.LimitedTo name limit) :
    (guarded.program rounding).Demands (Granted (guarded.event.key name) limit) := by
  obtain ⟨throttler, hthrottler, rfl, hskips, data, hdata, hlimit, hvalue⟩ := h
  have hone : (runThrottler rounding (.event guarded.event) throttler).Demands
      (Granted (guarded.event.key (throttlerName throttler)) limit) := by
    unfold runThrottler
    rw [hdata, hskips, ← getThrottlerData_name hdata]
    exact demands_handleCall guarded.event hvalue
  have hall : ∀ throttlers : List ThrottlerOptions, throttler ∈ throttlers →
      (runThrottlers rounding (.event guarded.event) throttlers).Demands
        (Granted (guarded.event.key (throttlerName throttler)) limit) := by
    intro throttlers hmem
    induction throttlers with
    | nil => cases hmem
    | cons other rest ih =>
      obtain rfl | hrest := List.mem_cons.mp hmem
      · exact hone.bind
      · exact Program.demands_bind fun _ => (ih hrest).bind
  exact (hall _ hthrottler).bind

section

variable {count : Cell → Nat} {Current : Cell → Prop} (hcounting : Counting timed count Current) (key : String)

include hcounting

theorem Counting.exec_kept (call : Call) (session : Session (String → Cell))
    (hnow : Current ((timed.storage.exec call session).2.storage key)) :
    count (session.storage key) ≤ count ((timed.storage.exec call session).2.storage key) := by
  cases call with
  | header name value => exact le_refl _
  | increment key' ttl limit blockDuration name =>
    simp only [ThrottlerStorage.exec, Timed.storage] at hnow ⊢
    by_cases hkey : key = key'
    · subst hkey
      rw [Function.update_self] at hnow ⊢
      exact hcounting.kept ttl limit blockDuration name _ hnow
    · rw [Function.update_of_ne hkey]

theorem Counting.exec_granted {limit : ℕ} (call : Call) (session : Session (String → Cell))
    (hnow : Current ((timed.storage.exec call session).2.storage key))
    (hgranted : Granted key limit call (timed.storage.exec call session).1) :
    count (session.storage key) < count ((timed.storage.exec call session).2.storage key) ∧
      count ((timed.storage.exec call session).2.storage key) ≤ limit := by
  cases call with
  | header name value => exact hgranted.elim
  | increment key' ttl limit' blockDuration name =>
    obtain ⟨rfl, ⟨hlimit, rfl⟩, record, hreply, hfree⟩ := hgranted
    simp only [ThrottlerStorage.exec, Timed.storage, Function.update_self] at hnow hreply ⊢
    cases hreply
    exact hcounting.free ttl limit hlimit blockDuration name _ hnow hfree

end

/-- While its window is current, no more calls of a caller come past a throttler than its
limit allows, less what was counted before: in any order of turns, whoever calls meanwhile. -/
theorem calls_limited (timed : Timed Cell Tick) (rounding : Rounding) {count : Cell → Nat} {Current : Cell → Prop}
    (hcounting : Counting timed count Current) (calls : List Guarded) (caller : Caller) (name : String) (limit : ℕ)
    (cells : String → Cell) (schedule : List (Move Tick))
    (hcurrent : ∀ front, front <+: schedule →
      Current ((guardAll timed rounding (calls.map some) cells front).state.storage
        (generateKey name caller.context caller.clientId caller.callCode)))
    (passed : List Nat) (hnodup : passed.Nodup)
    (hpassed : ∀ i ∈ passed, ∃ guarded, calls[i]? = some guarded ∧ guarded.event.caller = caller ∧
      guarded.LimitedTo name limit ∧
      ∃ result, (guardAll timed rounding (calls.map some) cells schedule).threads[i]? = some (.done result)) :
    passed.length ≤ limit - count (cells (generateKey name caller.context caller.clientId caller.callCode)) := by
  generalize hkey : generateKey name caller.context caller.clientId caller.callCode = key at hcurrent ⊢
  have hadmits : (guardAll timed rounding (calls.map some) cells schedule).Admits (Granted key limit)
      (fun i => ∃ guarded, calls[i]? = some guarded ∧ guarded.event.caller = caller ∧ guarded.LimitedTo name limit)
      (fun session => count (session.storage key)) (count (cells key)) limit := by
    refine Pool.run_admits (fun session : Session (String → Cell) => Current (session.storage key))
      (hcounting.exec_kept key) (hcounting.exec_granted key) (fun tick session hnow => hcounting.pass tick _ hnow) ?_
      schedule hcurrent
    rintro i p ⟨guarded, hcall, rfl, hlimited⟩ hp
    have hprogram : p = guarded.program rounding := by
      simpa [Pool.start, hcall, programOf, eq_comm] using hp
    rw [hprogram, ← hkey, ← Event.key_eq]
    exact demands_program hlimited
  refine hadmits.length_le hnodup fun i hi => ?_
  obtain ⟨guarded, hcall, hcaller, hlimited, hreturned⟩ := hpassed i hi
  exact ⟨⟨guarded, hcall, hcaller, hlimited⟩, hreturned⟩

end limit

/-- A storage that counts the hits of a cell and blocks what goes beyond the limit. -/
def hitCounter : Timed Nat Unit where
  hit _ limit _ _ hits :=
    match limit with
    | .finite x =>
      if hits < x.magnitude.num.toNat then (⟨.zero, .zero, false, .zero⟩, hits + 1)
      else (⟨.zero, .zero, true, .zero⟩, hits)
    | _ => (⟨.zero, .zero, true, .zero⟩, hits)
  pass _ hits := hits

theorem counting_hitCounter : Counting hitCounter id fun _ => True where
  kept := by
    intro ttl limit blockDuration name hits _
    unfold hitCounter
    cases limit with
    | finite x =>
      dsimp only
      split <;> simp
    | nan => exact le_refl _
    | infinity negative => exact le_refl _
  free := by
    intro ttl limit hlimit blockDuration name hits _ hfree
    unfold hitCounter at hfree ⊢
    dsimp only at hfree ⊢
    split at hfree
    · next hbelow =>
      rw [if_pos hbelow]
      simp only [Rat.num_natCast, Int.toNat_natCast] at hbelow
      exact ⟨Nat.lt_succ_self hits, hbelow⟩
    · cases hfree
  pass := by
    intro tick hits _
    exact le_refl _

/-- The options that the login is decorated with. -/
def login : ThrottlerOptions where
  name := some "login"
  limit := .value (.finite (Double.ofNat 4 (by norm_num)))
  ttl := .value (.finite (Double.ofNat 10000 (by norm_num)))
  blockDuration := some (.value (.finite (Double.ofNat 7200000 (by norm_num))))

/-- A login from an address. -/
def loginFrom (ip : String) : Guarded where
  globalThrottlers := []
  handler := some login
  controller := none
  event := .http { ip := some ip, method := "PUT", originalUrl := "/users", url := "/users" }

theorem proper_loginFrom {ip : String} (h : '[' ∉ ip.toList) : (loginFrom ip).Proper where
  addressed := h
  named := by
    intro throttler hthrottler
    obtain rfl := List.mem_singleton.mp hthrottler
    decide

/-- A login beside those of another client. -/
theorem callers_isolated_login :
    (guardAll hitCounter Rounding.even ([loginFrom "10.0.0.1", loginFrom "::1"].map some) (fun _ => 0)
      [.turn 1, .turn 0, .turn 1]).threads[0]? =
    (guardAll hitCounter Rounding.even (callsOf (loginFrom "10.0.0.1").event.caller
      [loginFrom "10.0.0.1", loginFrom "::1"]) (fun _ => 0) [.turn 1, .turn 0, .turn 1]).threads[0]? := by
  refine (callers_isolated hitCounter Rounding.even [loginFrom "10.0.0.1", loginFrom "::1"] ?_ (fun _ => 0)
    [.turn 1, .turn 0, .turn 1] 0 (loginFrom "10.0.0.1") rfl).1
  intro guarded hguarded
  rw [List.mem_cons, List.mem_singleton] at hguarded
  obtain rfl | rfl := hguarded
  · exact proper_loginFrom (by decide)
  · exact proper_loginFrom (by decide)

/-- RequestRateLimitConstants.short. -/
def short : ThrottlerOptions where
  name := some "short"
  limit := .value (.finite (Double.ofNat 3 (by norm_num)))
  ttl := .value (.finite (Double.ofNat 1000 (by norm_num)))
  blockDuration := some (.value (.finite (Double.ofNat 300000 (by norm_num))))

/-- A socket that asks for a reconnection. -/
def reconnect : Guarded where
  globalThrottlers := [short]
  handler := none
  controller := none
  event := .ws { socketId := some "s", pattern := "reconnect" }

theorem limitedTo_reconnect : reconnect.LimitedTo "short" 3 :=
  ⟨short, List.mem_singleton.mpr rfl, rfl, rfl, _, rfl, representable_of_lt (by norm_num), rfl⟩

/-- Four reconnections in turn. -/
def reconnections : Pool Call Call.Reply Rejection Bool (Session (String → Nat)) :=
  guardAll hitCounter Rounding.even ((List.replicate 4 reconnect).map some) (fun _ => 0)
    ([0, 1, 2, 3].map .turn)

/-- The first three come past the guard, and the last one is rejected. -/
theorem threads_reconnections :
    ∃ rejection, reconnections.threads = [.done true, .done true, .done true, .throw rejection] := by
  obtain ⟨ttl, limit, blockDuration, next, rejection, hprogram, hlimit, hfree, hblocked⟩ :
      ∃ ttl limit blockDuration next rejection,
        reconnect.program Rounding.even = .await (.increment (reconnect.event.key "short") ttl limit blockDuration
          "short") next ∧ limit = .finite (Double.ofNat 3 (by norm_num)) ∧
        next (.ok ⟨.zero, .zero, false, .zero⟩) = .done true ∧
        next (.ok ⟨.zero, .zero, true, .zero⟩) = .throw rejection := ⟨_, _, _, _, _, rfl, rfl, rfl, rfl⟩
  refine ⟨rejection, ?_⟩
  subst hlimit
  simp [reconnections, guardAll, programOf, hprogram, Pool.start, Pool.run, Pool.step, Pool.advance,
    ThrottlerStorage.exec, Timed.storage, hitCounter, Double.ofNat, hfree, hblocked]

theorem calls_limited_reconnections :
    (∃ rejection, reconnections.threads = [.done true, .done true, .done true, .throw rejection]) ∧
      [0, 1, 2].length ≤ 3 - id 0 := by
  refine ⟨threads_reconnections, ?_⟩
  refine calls_limited hitCounter Rounding.even counting_hitCounter (List.replicate 4 reconnect)
    reconnect.event.caller "short" 3 (fun _ => 0) ([0, 1, 2, 3].map .turn) (fun _ _ => trivial) [0, 1, 2] (by decide) ?_
  intro i hi
  obtain ⟨rejection, hthreads⟩ := threads_reconnections
  rw [reconnections] at hthreads
  rw [hthreads]
  rw [List.mem_cons, List.mem_cons, List.mem_singleton] at hi
  obtain rfl | rfl | rfl := hi
  · exact ⟨reconnect, rfl, rfl, limitedTo_reconnect, true, rfl⟩
  · exact ⟨reconnect, rfl, rfl, limitedTo_reconnect, true, rfl⟩
  · exact ⟨reconnect, rfl, rfl, limitedTo_reconnect, true, rfl⟩

end node_backend.custom_throttler_guard

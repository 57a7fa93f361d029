import NodeBackend.Core.RedisClient
import NodeBackend.Js.Text
import NodeBackend.Program.Ensures
import NodeBackend.Program.Gather
import NodeBackend.Program.Turns
import NodeBackend.Subscription.Service

namespace node_backend.cache_access_helper

/-- CacheAccessHelper.getId. -/
def getId (key keyPattern : String) : String :=
  js.replaceByNothing key (keyPattern ++ ":")

end node_backend.cache_access_helper

namespace node_backend.webhook_service

open js store program
open node_backend.exceptions node_backend.cache_access_helper
open node_backend.subscription_service (generateKey)

inductive HttpMethodsEnum
  | get
  | post
  | put
  | patch
  | delete
  deriving DecidableEq, Repr

def HttpMethodsEnum.text : HttpMethodsEnum → String
  | get => "GET"
  | post => "POST"
  | put => "PUT"
  | patch => "PATCH"
  | delete => "DELETE"

/-- A hook as registerEventHookSchema accepts it: an endpoint that is given is not
empty, and a date that is given denotes a time. -/
structure RegisterEventHookInterface where
  responseEndpoint : Option String
  responseMethod : HttpMethodsEnum
  responseSchema : String
  sendAt : Option Time
  endpoint_ne : responseEndpoint ≠ some ""

def RegisterEventHookInterface.toValue (hook : RegisterEventHookInterface) : Value :=
  .obj [
    ("responseEndpoint", hook.responseEndpoint.elim .undefined .str),
    ("responseMethod", .str hook.responseMethod.text),
    ("responseSchema", .str hook.responseSchema),
    ("sendAt", hook.sendAt.elim .undefined fun time => .date (some time))]

/-- Date.parse, which reads what a Date writes. -/
structure DateParser where
  parse : String → Option Time
  parse_toISOString : ∀ t : Time, parse t.toISOString = some t

def DateParser.iso : DateParser := ⟨parseISO, parseISO_toISOString⟩

/-- A time that a clock shows, which is after 1970. -/
structure Now extends Time where
  pos : 0 < ms

/-- CacheEnum.HOOKS. -/
def HOOKS : String := "hooks"

/-- A day, in seconds. -/
def hooksTimeToLive : Nat := 86400

variable (parser : DateParser)

def payloadBuilder (data : Value) : Value :=
  match data, data.prop "sendAt" with
  | .obj fields, .str text =>
    if text = "" then data else .obj (json.setField fields "sendAt" (.date (parser.parse text)))
  | _, _ => data

/-- The key of a hook, by its schema and its identifier. -/
def hookKey (hookSchema hookId : String) : String :=
  generateKey (hookSchema ++ (":" ++ hookId)) HOOKS

/-- WebhookService.save, with the identifier that was generated. -/
def save (uuid hookSchema : String) (data : Value) : infra.Promise String :=
  redis_client.set (hookKey hookSchema uuid) (payloadBuilder parser data) hooksTimeToLive

/-- A request to the endpoint of a hook. -/
structure HookRequest where
  method : String
  endpoint : Value
  data : Value

/-- What is awaited when hooks are pulled: a Redis command, or a request. -/
inductive Call
  | redisKeys (pattern : String)
  | redisGet (key : String)
  | redisDel (key : String)
  | requestHook (request : HookRequest)

abbrev Call.Reply : Call → Type
  | redisKeys _ => List String
  | redisGet _ => Option String
  | redisDel _ => Nat
  | requestHook _ => Unit

abbrev Promise (A : Type) : Type :=
  Program Call Call.Reply Failure A

def perform (call : Call) : Promise call.Reply :=
  Program.perform call

/-- An entry that RedisClient.getByKeyPattern lists. The key is missing where the
reading of its value failed. -/
structure HookEntry where
  key : Option String
  value : Value

def hookEntry (key : String) : Except Failure (Option String) → HookEntry
  | .ok value => ⟨some key, redis_client.parseValue (value.getD "null")⟩
  | .error _ => ⟨none, .undefined⟩

/-- Promise.allSettled of the readings. -/
def readEntries : List String → Promise (List HookEntry)
  | [] => return []
  | key :: rest => do
    let value ← (perform (.redisGet key)).attempt
    let entries ← readEntries rest
    return hookEntry key value :: entries

def getByKeyPattern (pattern : String) : Promise (List HookEntry) := do
  let keys ← perform (.redisKeys pattern)
  readEntries keys

/-- WebhookService.list. -/
def list (additionalPattern : String) : Promise (List HookEntry) := do
  let result ← getByKeyPattern (HOOKS ++ (":" ++ (additionalPattern ++ ":*")))
  return result.map fun entry => { entry with value := payloadBuilder parser entry.value }

/-- Whether the time is past that a hook waits for, and the time of a hook without one
is. Whatever is no date or denotes no time is never past. -/
def isDue (now : Now) : Value → Bool
  | .date (some time) => time.ms < now.ms
  | sendAt => !sendAt.truthy

/-- `hook?.responseMethod?.toLowerCase()`. -/
def lowerCase : Value → Except Failure (Option String)
  | .str text => .ok (some text.toLower)
  | .undefined => .ok none
  | .null => .ok none
  | _ => .error (.typeError ⟨"hook?.responseMethod?.toLowerCase is not a function"⟩)

/-- An operation that the loop starts: the request of the hook under a key, or the
deletion of a key. -/
inductive Operation
  | request (key : String) (request : HookRequest)
  | delete (key : String)

def Operation.promise : Operation → Promise Unit
  | request _ hookRequest => perform (.requestHook hookRequest)
  | delete key => do
    let _ ← perform (.redisDel key)
    return ()

/-- The key that WebhookService.delete makes of the identifier in a key. -/
def deletedKey (key hookSchema : String) : String :=
  hookKey hookSchema (getId (getId key HOOKS) hookSchema)

/-- The body of the loop for a hook that is due. -/
def startHook (baseUrl hookSchema : String) (data : Value) (entry : HookEntry) : Except Failure (List Operation) := do
  let responseEndpoint := (entry.value.prop "responseEndpoint").coalesce (.str baseUrl)
  let responseMethod ← lowerCase (entry.value.prop "responseMethod")
  match entry.key with
  | none => .error (.typeError ⟨"Cannot read properties of undefined (reading 'replace')"⟩)
  | some key =>
    let hooksToPull := match responseMethod with
      | some method =>
        if method ≠ "" ∧ responseEndpoint.truthy then [.request key ⟨method, responseEndpoint, data⟩] else []
      | none => []
    return hooksToPull ++ [.delete (deletedKey key hookSchema)]

/-- What was started when the loop ended, and the error that ended it early. -/
structure Pull where
  started : List Operation
  thrown : Option Failure

/-- The loop over the hooks of a schema. -/
def startHooks (baseUrl hookSchema : String) (now : Now) (data : Value) : List HookEntry → Pull
  | [] => ⟨[], none⟩
  | entry :: rest =>
    if isDue now (entry.value.prop "sendAt") then
      match startHook baseUrl hookSchema data entry with
      | .ok operations =>
        let pull := startHooks baseUrl hookSchema now data rest
        { pull with started := operations ++ pull.started }
      | .error failure => ⟨[], some failure⟩
    else startHooks baseUrl hookSchema now data rest

/-- WebhookService.pullHook until it waits for what it started. -/
def pullHook (baseUrl : String) (now : Now) (hookSchema : String) (data : Value) : Promise Pull := do
  let hookSchemaList ← list parser hookSchema
  return startHooks baseUrl hookSchema now data hookSchemaList

def Operation.deletes : Operation → Bool
  | request _ _ => false
  | delete _ => true

def Operation.requestOf (key : String) : Operation → Option HookRequest
  | request other hookRequest => if other = key then some hookRequest else none
  | delete _ => none

/-- The requests that were made for the hook under a key. -/
def Pull.requestsOf (pull : Pull) (key : String) : List HookRequest :=
  pull.started.filterMap (Operation.requestOf key)

/-- The places of some of the operations that were started. -/
def Pull.places (pull : Pull) (p : Operation → Bool) : List Nat :=
  (List.range pull.started.length).filter fun place => pull.started[place]?.any p

def Pull.hooksToDelete (pull : Pull) : List Nat :=
  pull.places Operation.deletes

def Pull.hooksToPull (pull : Pull) : List Nat :=
  pull.places fun operation => !operation.deletes

/-- A text without a metacharacter of the patterns of KEYS. -/
def Plain (text : String) : Prop :=
  text.toList.any ['*', '?', '[', ']', '\\'].contains = false

/-- Redis, with what KEYS replies for a pattern of the keys there are. A pattern that
is a text without metacharacters and a star stands for the keys with that prefix. -/
structure Redis where
  keys : String → List String → List String
  mem : ∀ pattern stored, ∀ key ∈ keys pattern stored, key ∈ stored
  nodup : ∀ pattern stored, stored.Nodup → (keys pattern stored).Nodup
  plain : ∀ text stored, Plain text → ∀ key ∈ stored, (key ∈ keys (text ++ "*") stored ↔ text.toList <+: key.toList)

/-- A Redis that takes every pattern for a text and a star. -/
def Redis.prefixes : Redis where
  keys pattern stored := stored.filter fun key => pattern.toList.dropLast <+: key.toList
  mem _ _ _ h := (List.mem_filter.mp h).1
  nodup _ _ h := h.filter _
  plain text stored _ key hkey := by
    have hdrop : (text ++ "*").toList.dropLast = text.toList := by
      rw [String.toList_append]
      exact List.dropLast_concat ..
    rw [hdrop, List.mem_filter, decide_eq_true_eq]
    exact and_iff_right hkey

/-- Reply and effect of a call that does not fail. -/
def exec (redis : Redis) : Exec Call Call.Reply Failure KeyValue
  | .redisKeys pattern, kv => (.ok (redis.keys pattern (kv.entries.map Prod.fst)), kv)
  | .redisGet key, kv => (.ok (kv.get key), kv)
  | .redisDel key, kv => (.ok (if (kv.get key).isSome then 1 else 0), kv.delete key)
  | .requestHook _, kv => (.ok (), kv)

/-- What pullHook starts on a cache. An error of the listing is thrown before
anything is started. -/
def pulled (redis : Redis) (baseUrl : String) (now : Now) (hookSchema : String) (data : Value) (kv : KeyValue) : Pull :=
  match (Program.run (exec redis) (pullHook parser baseUrl now hookSchema data) kv).1 with
  | .ok pull => pull
  | .error failure => ⟨[], some failure⟩

/-- The calls of a run that fail, by their number. -/
abbrev Faults : Type :=
  Nat → Call → Option Failure

def serve (redis : Redis) (faults : Faults) (n : Nat) : Exec Call Call.Reply Failure KeyValue := fun call kv =>
  match faults n call with
  | some failure => (.error failure, kv)
  | none => exec redis call kv

abbrev Pool : Type :=
  program.Pool Call Call.Reply Failure Unit (Nat × KeyValue)

def Pool.cache (pool : Pool) : KeyValue :=
  pool.state.2

/-- The operations after some turns. They were started together and go on by
themselves, whether or not pullHook still waits for them. -/
def Pull.after (pull : Pull) (redis : Redis) (faults : Faults) (kv : KeyValue) (turns : List Nat) : Pool :=
  program.Pool.afterTurns (serve redis faults) (pull.started.map Operation.promise) kv turns

/-- How pullHook has ended, if it has: after an error of the loop at once, else with
the deletions and then with the requests. -/
def Pull.outcome (pull : Pull) (pool : Pool) : Option (Except Failure Unit) :=
  match pull.thrown with
  | some failure => some (.error failure)
  | none =>
    match pool.gather pull.hooksToDelete with
    | some (.ok ()) => pool.gather pull.hooksToPull
    | other => other

end node_backend.webhook_service

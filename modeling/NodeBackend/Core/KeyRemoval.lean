import NodeBackend.Core.RedisClient

namespace node_backend.redis_client

open js store program
open node_backend.infra

/-- scanStream of ioredis: the batches of keys that it emits for its options, of the
keys that are stored. It takes the own properties of its options over, and sends a
pattern with the scan where `match` is one of them. A key may come more than once, and
a batch may be empty. -/
structure ScanStream where
  glob : String → String → Bool
  batches : Value → List String → List (List String)
  unmatched : ∀ options stored, options.spread.lookup "match" = none →
    ∀ key, key ∈ (batches options stored).flatten ↔ key ∈ stored
  matched : ∀ options pattern stored, options.spread.lookup "match" = some (.str pattern) →
    ∀ key, key ∈ (batches options stored).flatten ↔ key ∈ stored ∧ glob pattern key

/-- The deletions of a pipeline, in the order in which they were added. -/
def execPipeline : List String → Promise Unit
  | [] => return ()
  | key :: rest => do
    let _ ← delete key
    execPipeline rest

/-- What RedisClient.remove does with a batch. -/
def onData (keys : List String) : Promise Unit :=
  if keys.length ≠ 0 then execPipeline keys else return ()

/-- Every batch of a stream, one after the other. -/
def onStream : List (List String) → Promise Unit
  | [] => return ()
  | keys :: rest => do
    onData keys
    onStream rest

/-- RedisClient.remove until its stream has ended. -/
def remove (scan : ScanStream) (stored : List String) (keyPattern : String) : Promise Unit :=
  let scanValue := keyPattern ++ ":*"
  onStream (scan.batches (.str scanValue) stored)

variable {ids : IdSource}

def keysOf (s : Infra ids) : List String :=
  s.redis.entries.map Prod.fst

/-- The state after everything that `remove` streams is deleted. -/
def afterRemove (scan : ScanStream) (keyPattern : String) (s : Infra ids) : Infra ids :=
  (Program.run exec (remove scan (keysOf s) keyPattern) s).2

/-- The keys with the prefix are gone, and every other one is as it was. -/
def RemovesPrefix (scan : ScanStream) (keyPattern : String) (s : Infra ids) : Prop :=
  ∀ key, (afterRemove scan keyPattern s).redis.get key =
    if (keyPattern ++ ":").toList <+: key.toList then none else s.redis.get key

/-- A run that deletes the keys of a list, and changes nothing else. -/
def Deletes (ids : IdSource) (keys : List String) (p : Promise Unit) : Prop :=
  ∀ s : Infra ids, ∃ redis, Program.run exec p s = (.ok (), { s with redis := redis }) ∧
    ∀ key, redis.get key = if key ∈ keys then none else s.redis.get key

theorem deletes_nil : Deletes ids [] (pure ()) := by
  intro s
  exact ⟨s.redis, rfl, by simp⟩

theorem deletes_delete (key : String) : Deletes ids [key] (delete key >>= fun _ => pure ()) := by
  intro s
  have hdel := Program.run_perform (@exec ids) (.redisDel key) s
  refine ⟨s.redis.delete key, ?_, ?_⟩
  · rw [delete, perform, Program.run_bind_of_ok exec hdel]
    rfl
  · intro other
    rw [KeyValue.get_delete]
    simp only [List.mem_singleton]

theorem deletes_bind {keys more : List String} {p q : Promise Unit} (hp : Deletes ids keys p)
    (hq : Deletes ids more q) : Deletes ids (keys ++ more) (p >>= fun _ => q) := by
  intro s
  obtain ⟨redis, hrun, hget⟩ := hp s
  obtain ⟨redis', hrun', hget'⟩ := hq { s with redis := redis }
  refine ⟨redis', ?_, ?_⟩
  · rw [Program.run_bind_of_ok exec hrun, hrun']
  · intro key
    rw [hget', hget]
    by_cases hlater : key ∈ more <;> simp [hlater]

theorem deletes_execPipeline (keys : List String) : Deletes ids keys (execPipeline keys) := by
  induction keys with
  | nil => exact deletes_nil
  | cons key rest ih => exact deletes_bind (deletes_delete key) ih

/-- An empty batch sends nothing, as an empty pipeline would. -/
theorem deletes_onData (keys : List String) : Deletes ids keys (onData keys) := by
  unfold onData
  cases keys with
  | nil => exact deletes_nil
  | cons key rest => exact deletes_execPipeline (key :: rest)

theorem deletes_onStream (batches : List (List String)) : Deletes ids batches.flatten (onStream batches) := by
  induction batches with
  | nil => exact deletes_nil
  | cons keys rest ih => exact deletes_bind (deletes_onData keys) ih

/-- A text has no property of its own that is called `match`, so every key is deleted. -/
theorem afterRemove_get (scan : ScanStream) (keyPattern : String) (s : Infra ids) (key : String) :
    (afterRemove scan keyPattern s).redis.get key = none := by
  obtain ⟨redis, hrun, hget⟩ := deletes_onStream (scan.batches (.str (keyPattern ++ ":*")) (keysOf s)) s
  have hall := scan.unmatched (.str (keyPattern ++ ":*")) (keysOf s) rfl key
  rw [afterRemove, remove, hrun, hget]
  by_cases hstored : key ∈ keysOf s
  · rw [if_pos (hall.mpr hstored)]
  · rw [if_neg fun hstreamed => hstored (hall.mp hstreamed)]
    by_contra hkept
    exact hstored (KeyValue.mem_keys_iff.mpr hkept)

/-- The prefix alone is removed exactly where no other key is stored. -/
theorem removesPrefix_iff (scan : ScanStream) (keyPattern : String) (s : Infra ids) :
    RemovesPrefix scan keyPattern s ↔ ∀ key ∈ keysOf s, (keyPattern ++ ":").toList <+: key.toList := by
  constructor
  · intro hremoves key hstored
    by_contra hother
    have hget := hremoves key
    rw [afterRemove_get, if_neg hother] at hget
    exact KeyValue.mem_keys_iff.mp hstored hget.symm
  · intro hstored key
    rw [afterRemove_get]
    split
    case isTrue hbegins => rfl
    case isFalse hother =>
      by_contra hget
      exact hother (hstored key (KeyValue.mem_keys_iff.mpr fun hnone => hget hnone.symm))

/-- A stream of one batch, whose patterns are texts with a star at the end. -/
def ScanStream.oneBatch : ScanStream where
  glob pattern key := decide (pattern.toList.dropLast <+: key.toList)
  batches options stored :=
    match options.spread.lookup "match" with
    | some (.str pattern) => [stored.filter fun key => pattern.toList.dropLast <+: key.toList]
    | _ => [stored]
  unmatched options stored h key := by simp [h]
  matched options pattern stored h key := by simp [h]

/-- A cache that holds one hook. -/
def oneHook : Infra IdSource.counting :=
  { Infra.empty with redis := KeyValue.empty.set "hooks:broadcast:1" "null" }

/-- Removing the users takes a hook away. -/
theorem not_removesPrefix_users :
    (afterRemove ScanStream.oneBatch "users" oneHook).redis.get "hooks:broadcast:1" = none ∧
      ¬ RemovesPrefix ScanStream.oneBatch "users" oneHook := by
  refine ⟨afterRemove_get _ _ _ _, ?_⟩
  intro hremoves
  have hget := hremoves "hooks:broadcast:1"
  rw [afterRemove_get, if_neg (by decide)] at hget
  cases hget

end node_backend.redis_client

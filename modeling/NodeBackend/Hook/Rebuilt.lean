import NodeBackend.Hook.Started

namespace node_backend.webhook_service

open js store program
open node_backend.cache_access_helper
open node_backend.subscription_service (generateKey)

/-- WebhookService.delete. -/
def delete (hookId hookSchema : String) : Promise Bool := do
  let deleted ← perform (.redisDel (hookKey hookSchema hookId))
  return decide (deleted > 0)

/-- A key without its prefix, wherever else the prefix stands in it. -/
theorem getId_generateKey (id keyPattern : String) : getId (generateKey id keyPattern) keyPattern = id := by
  have hkey : (generateKey id keyPattern).toList = (keyPattern ++ ":").toList ++ id.toList := by
    unfold generateKey
    simp
  rw [getId, replaceByNothing, hkey, removeFirst_append, String.ofList_toList]

theorem getId_append (hookSchema rest : String) : getId (hookSchema ++ (":" ++ rest)) hookSchema = rest :=
  getId_generateKey rest hookSchema

/-- The identifier that pullHook takes out of a key of a schema. -/
theorem getId_getId_generateKey (hookSchema rest : String) :
    getId (getId (generateKey (hookSchema ++ (":" ++ rest)) HOOKS) HOOKS) hookSchema = rest := by
  rw [getId_generateKey, getId_append]

theorem deletedKey_generateKey (hookSchema rest : String) :
    deletedKey (generateKey (hookSchema ++ (":" ++ rest)) HOOKS) hookSchema =
      generateKey (hookSchema ++ (":" ++ rest)) HOOKS := by
  rw [deletedKey, getId_getId_generateKey, hookKey]

theorem run_delete (redis : Redis) (hookId hookSchema : String) (kv : KeyValue) :
    Program.run (exec redis) (delete hookId hookSchema) kv =
      (.ok (kv.get (hookKey hookSchema hookId)).isSome, kv.delete (hookKey hookSchema hookId)) := by
  have hdel := Program.run_perform (exec redis) (.redisDel (hookKey hookSchema hookId)) kv
  rw [delete, perform, Program.run_bind_of_ok (exec redis) hdel]
  cases kv.get (hookKey hookSchema hookId) <;> simp

/-- The deletion that pullHook starts is the one of the identifier in the key. -/
theorem promise_delete (key hookSchema : String) :
    (Operation.delete (deletedKey key hookSchema)).promise =
      delete (getId (getId key HOOKS) hookSchema) hookSchema >>= fun _ => pure () := by
  rw [Operation.promise, delete, deletedKey, perform, Program.perform_bind, Program.perform_bind, Program.await_bind]
  congr 1
  funext reply
  cases reply <;> simp

/-- The body of the loop starts one deletion, which is that of the key of its hook. -/
theorem delete_mem_startHook_iff {baseUrl hookSchema rest : String} {data value : Value} {operations : List Operation}
    (hstart : startHook baseUrl hookSchema data ⟨some (generateKey (hookSchema ++ (":" ++ rest)) HOOKS), value⟩ =
      .ok operations) (key : String) :
    .delete key ∈ operations ↔ key = generateKey (hookSchema ++ (":" ++ rest)) HOOKS := by
  unfold startHook at hstart
  obtain ⟨responseMethod, _, hstart⟩ := bind_eq_ok hstart
  cases hstart
  rw [deletedKey_generateKey, List.mem_append, List.mem_singleton, Operation.delete.injEq]
  apply or_iff_right
  intro hpull
  cases responseMethod with
  | none => cases hpull
  | some method =>
    dsimp only at hpull
    split at hpull
    · simp at hpull
    · cases hpull

/-- For a hook of the schema the loop of pullHook starts one deletion, which is
WebhookService.delete of the identifier taken out of its key and deletes that key,
whatever stands in the schema and after it. -/
theorem delete_rebuilt (redis : Redis) (hookSchema rest : String) (kv : KeyValue) :
    getId (getId (generateKey (hookSchema ++ (":" ++ rest)) HOOKS) HOOKS) hookSchema = rest ∧
    deletedKey (generateKey (hookSchema ++ (":" ++ rest)) HOOKS) hookSchema =
      generateKey (hookSchema ++ (":" ++ rest)) HOOKS ∧
    (∀ baseUrl data value operations,
      startHook baseUrl hookSchema data ⟨some (generateKey (hookSchema ++ (":" ++ rest)) HOOKS), value⟩ =
        .ok operations →
      ∀ key, .delete key ∈ operations ↔ key = generateKey (hookSchema ++ (":" ++ rest)) HOOKS) ∧
    (Operation.delete (generateKey (hookSchema ++ (":" ++ rest)) HOOKS)).promise =
      (delete (getId (getId (generateKey (hookSchema ++ (":" ++ rest)) HOOKS) HOOKS) hookSchema) hookSchema >>=
        fun _ => pure ()) ∧
    Program.run (exec redis)
      (delete (getId (getId (generateKey (hookSchema ++ (":" ++ rest)) HOOKS) HOOKS) hookSchema) hookSchema) kv =
      (.ok (kv.get (generateKey (hookSchema ++ (":" ++ rest)) HOOKS)).isSome,
        kv.delete (generateKey (hookSchema ++ (":" ++ rest)) HOOKS)) := by
  refine ⟨getId_getId_generateKey hookSchema rest, deletedKey_generateKey hookSchema rest,
    fun baseUrl data value operations hstart => delete_mem_startHook_iff hstart, ?_, ?_⟩
  · rw [← promise_delete, deletedKey_generateKey]
  · rw [run_delete, getId_getId_generateKey, hookKey]

end node_backend.webhook_service

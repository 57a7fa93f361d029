import NodeBackend.Hook.Saved

namespace node_backend.webhook_service

open js store program
open node_backend.exceptions node_backend.cache_access_helper
open node_backend.subscription_service (generateKey)

/-- A hook waits for its time to be past, and one without a time for nothing. -/
def RegisterEventHookInterface.Due (hook : RegisterEventHookInterface) (now : Now) : Bool :=
  hook.sendAt.all fun time => time.ms < now.ms

/-- The request that a hook asks for, if it or the configuration has an endpoint. -/
def RegisterEventHookInterface.request (hook : RegisterEventHookInterface) (baseUrl : String) (data : Value) :
    Option HookRequest :=
  let responseEndpoint := hook.responseEndpoint.getD baseUrl
  if responseEndpoint = "" then none else some ⟨hook.responseMethod.text.toLower, .str responseEndpoint, data⟩

theorem isDue_readHook (parser : DateParser) (now : Now) (hook : RegisterEventHookInterface) :
    isDue now ((readHook parser hook).prop "sendAt") = hook.Due now := by
  rw [(readHook_props parser hook).2.2, RegisterEventHookInterface.Due]
  cases hook.sendAt <;> rfl

/-- The operations that the loop starts for a hook that is listed. -/
def Saved.operations (baseUrl hookSchema : String) (now : Now) (data : Value) (saved : Saved) : List Operation :=
  if saved.hook.Due now then
    (saved.hook.request baseUrl data).toList.map (.request saved.key) ++ [.delete (deletedKey saved.key hookSchema)]
  else []

theorem HttpMethodsEnum.toLower_ne (method : HttpMethodsEnum) : method.text.toLower ≠ "" := by
  change method.text.map Char.toLower ≠ ""
  rw [Ne, String.map_eq_empty]
  cases method <;> decide

theorem startHook_saved (parser : DateParser) (baseUrl hookSchema : String) (data : Value) (saved : Saved) :
    startHook baseUrl hookSchema data ⟨some saved.key, readHook parser saved.hook⟩ =
      .ok ((saved.hook.request baseUrl data).toList.map (.request saved.key) ++
        [.delete (deletedKey saved.key hookSchema)]) := by
  obtain ⟨hendpoint, hmethod, _⟩ := readHook_props parser saved.hook
  have hcoalesce : ((readHook parser saved.hook).prop "responseEndpoint").coalesce (.str baseUrl) =
      .str (saved.hook.responseEndpoint.getD baseUrl) := by
    rw [hendpoint]
    cases saved.hook.responseEndpoint <;> rfl
  unfold startHook
  rw [hmethod, hcoalesce]
  unfold RegisterEventHookInterface.request
  by_cases hempty : saved.hook.responseEndpoint.getD baseUrl = ""
  · simp [lowerCase, hempty, Value.truthy]
  · simp [lowerCase, hempty, Value.truthy, HttpMethodsEnum.toLower_ne]

theorem startHooks_saved (parser : DateParser) (baseUrl hookSchema : String) (now : Now) (data : Value)
    (listed : List Saved) :
    startHooks baseUrl hookSchema now data (listed.map fun saved => ⟨some saved.key, readHook parser saved.hook⟩) =
      ⟨listed.flatMap (Saved.operations baseUrl hookSchema now data), none⟩ := by
  induction listed with
  | nil => rfl
  | cons saved rest ih =>
    rw [List.map_cons, startHooks, isDue_readHook, ih, startHook_saved, List.flatMap_cons, Saved.operations]
    cases saved.hook.Due now <;> rfl

section list

variable (saves : Saves) (parser : DateParser) (redis : Redis) (hookSchema : String)

/-- The keys that Redis lists for the hooks of a schema. -/
def Saves.keys : List String :=
  redis.keys (HOOKS ++ (":" ++ (hookSchema ++ ":*"))) ((saves.cache parser).entries.map Prod.fst)

/-- The hooks under these keys. -/
def Saves.listed : List Saved :=
  (saves.keys parser redis hookSchema).filterMap fun key => saves.list.find? (·.key = key)

variable {saves parser redis hookSchema}

theorem Saves.find_of_mem_keys {key : String} (h : key ∈ saves.keys parser redis hookSchema) :
    ∃ saved ∈ saves.list, saved.key = key ∧ saves.list.find? (·.key = key) = some saved := by
  obtain ⟨saved, hsaved, hkey⟩ := (saves.mem_keys parser).mp (redis.mem _ _ key h)
  cases hfound : saves.list.find? (·.key = key) with
  | none => exact absurd hkey (by simpa using List.find?_eq_none.mp hfound saved hsaved)
  | some found =>
    have hfoundKey : found.key = key := by simpa using List.find?_some hfound
    exact ⟨found, List.mem_of_find?_eq_some hfound, hfoundKey, rfl⟩

theorem Saves.map_key_listed :
    (saves.listed parser redis hookSchema).map Saved.key = saves.keys parser redis hookSchema := by
  rw [Saves.listed, List.map_filterMap]
  refine (List.filterMap_congr fun key hkey => ?_).trans List.filterMap_some
  obtain ⟨saved, _, rfl, hfound⟩ := Saves.find_of_mem_keys hkey
  rw [hfound, Option.map_some]

theorem Saves.mem_listed {saved : Saved} :
    saved ∈ saves.listed parser redis hookSchema ↔ saved ∈ saves.list ∧
      saved.key ∈ saves.keys parser redis hookSchema := by
  unfold Saves.listed
  rw [List.mem_filterMap]
  constructor
  · intro h
    obtain ⟨key, hkey, hfound⟩ := h
    have hsame : saved.key = key := by simpa using List.find?_some hfound
    exact ⟨List.mem_of_find?_eq_some hfound, hsame ▸ hkey⟩
  · rintro ⟨hsaved, hkey⟩
    obtain ⟨found, hfoundMem, hsame, hfound⟩ := Saves.find_of_mem_keys hkey
    rw [saves.eq_of_key_eq hfoundMem hsaved hsame] at hfound
    exact ⟨saved.key, hkey, hfound⟩

theorem Saves.nodup_map_key_listed : ((saves.listed parser redis hookSchema).map Saved.key).Nodup := by
  rw [Saves.map_key_listed]
  exact redis.nodup _ _ (saves.cache parser).keys

end list

theorem run_readEntries (redis : Redis) (keys : List String) (kv : KeyValue) :
    Program.run (exec redis) (readEntries keys) kv =
      (.ok (keys.map fun key => hookEntry key (.ok (kv.get key))), kv) := by
  induction keys with
  | nil => rfl
  | cons key rest ih =>
    have hread : Program.run (exec redis) (perform (.redisGet key)).attempt kv = (.ok (.ok (kv.get key)), kv) := rfl
    rw [readEntries, Program.run_bind_of_ok _ hread, Program.run_bind_of_ok _ ih]
    rfl

/-- What pullHook starts on the hooks that were saved. -/
theorem run_pullHook (saves : Saves) (parser : DateParser) (redis : Redis) (baseUrl : String) (now : Now)
    (hookSchema : String) (data : Value) :
    Program.run (exec redis) (pullHook parser baseUrl now hookSchema data) (saves.cache parser) =
      (.ok ⟨(saves.listed parser redis hookSchema).flatMap (Saved.operations baseUrl hookSchema now data), none⟩,
        saves.cache parser) := by
  have hentries : (saves.keys parser redis hookSchema).map
      (fun key => hookEntry key (.ok ((saves.cache parser).get key))) =
      (saves.listed parser redis hookSchema).map fun saved =>
        ⟨some saved.key, redis_client.parseValue (savedText saved.hook)⟩ := by
    rw [← Saves.map_key_listed, List.map_map]
    apply List.map_congr_left
    intro saved hsaved
    have hget := (saves.get_cache parser).mpr ⟨saved, (Saves.mem_listed.mp hsaved).1, rfl, rfl⟩
    rw [Function.comp_apply, hget]
    rfl
  have hlist : Program.run (exec redis) (list parser hookSchema) (saves.cache parser) =
      (.ok ((saves.listed parser redis hookSchema).map fun saved => ⟨some saved.key, readHook parser saved.hook⟩),
        saves.cache parser) := by
    have hkeys : Program.run (exec redis) (perform (.redisKeys (HOOKS ++ (":" ++ (hookSchema ++ ":*")))))
        (saves.cache parser) = (.ok (saves.keys parser redis hookSchema), saves.cache parser) := rfl
    have hread := run_readEntries redis (saves.keys parser redis hookSchema) (saves.cache parser)
    rw [hentries] at hread
    rw [list, getByKeyPattern, Program.run_bind_of_ok _ ((Program.run_bind_of_ok _ hkeys).trans hread)]
    simp only [Program.pure_eq, Program.run_done, List.map_map]
    rfl
  rw [pullHook, Program.run_bind_of_ok _ hlist, Program.pure_eq, Program.run_done, startHooks_saved]

theorem pulled_eq (saves : Saves) (parser : DateParser) (redis : Redis) (baseUrl : String) (now : Now)
    (hookSchema : String) (data : Value) :
    pulled parser redis baseUrl now hookSchema data (saves.cache parser) =
      ⟨(saves.listed parser redis hookSchema).flatMap (Saved.operations baseUrl hookSchema now data), none⟩ := by
  rw [pulled, run_pullHook]

section operations

variable {baseUrl hookSchema : String} {now : Now} {data : Value} {listed : List Saved}

theorem Saved.requestOf_operations (saved : Saved) (key : String) :
    (saved.operations baseUrl hookSchema now data).filterMap (Operation.requestOf key) =
      if saved.hook.Due now ∧ saved.key = key then (saved.hook.request baseUrl data).toList else [] := by
  unfold Saved.operations
  cases saved.hook.Due now with
  | false => simp
  | true =>
    by_cases hkey : saved.key = key
    · cases saved.hook.request baseUrl data <;> simp [Operation.requestOf, hkey]
    · cases saved.hook.request baseUrl data <;> simp [Operation.requestOf, hkey]

theorem requestsOf_operations_of_not_mem {key : String} (h : key ∉ listed.map Saved.key) :
    (listed.flatMap (Saved.operations baseUrl hookSchema now data)).filterMap (Operation.requestOf key) = [] := by
  rw [List.filterMap_eq_nil_iff]
  intro operation hoperation
  obtain ⟨saved, hsaved, hoperation⟩ := List.mem_flatMap.mp hoperation
  have hnone : (saved.operations baseUrl hookSchema now data).filterMap (Operation.requestOf key) = [] := by
    rw [saved.requestOf_operations, if_neg]
    rintro ⟨_, rfl⟩
    exact h (List.mem_map_of_mem hsaved)
  exact List.filterMap_eq_nil_iff.mp hnone operation hoperation

/-- Each hook is listed once, so that its request is made once. -/
theorem requestsOf_operations (hnodup : (listed.map Saved.key).Nodup) {saved : Saved} (hsaved : saved ∈ listed) :
    (listed.flatMap (Saved.operations baseUrl hookSchema now data)).filterMap (Operation.requestOf saved.key) =
      if saved.hook.Due now then (saved.hook.request baseUrl data).toList else [] := by
  induction listed with
  | nil => cases hsaved
  | cons other rest ih =>
    rw [List.map_cons, List.nodup_cons] at hnodup
    rw [List.flatMap_cons, List.filterMap_append, other.requestOf_operations]
    obtain rfl | hrest := List.mem_cons.mp hsaved
    · rw [requestsOf_operations_of_not_mem hnodup.1, List.append_nil]
      simp only [and_true]
    · have hne : other.key ≠ saved.key := fun hsame => hnodup.1 (hsame ▸ List.mem_map_of_mem hrest)
      rw [if_neg fun hboth => hne hboth.2, List.nil_append, ih hnodup.2 hrest]

theorem delete_mem_operations_iff {key : String} :
    .delete key ∈ listed.flatMap (Saved.operations baseUrl hookSchema now data) ↔
      ∃ saved ∈ listed, saved.hook.Due now = true ∧ deletedKey saved.key hookSchema = key := by
  simp only [List.mem_flatMap, Saved.operations]
  refine exists_congr fun saved => and_congr_right fun _ => ?_
  cases saved.hook.Due now with
  | false => simp
  | true => simp [eq_comm]

end operations

theorem getId_key (saved : Saved) :
    (getId saved.key HOOKS).toList = saved.hook.responseSchema.toList ++ ':' :: saved.uuid.text.toList := by
  have hkey : saved.key.toList = (HOOKS ++ ":").toList ++
      (saved.hook.responseSchema.toList ++ ':' :: saved.uuid.text.toList) := by
    rw [Saved.key, hookKey_toList, String.toList_append, List.append_assoc]
    rfl
  rw [getId, replaceByNothing, String.toList_ofList, hkey, removeFirst_append]

theorem deletedKey_toList (saved : Saved) (hookSchema : String) :
    (deletedKey saved.key hookSchema).toList = HOOKS.toList ++ ':' :: (hookSchema.toList ++ ':' ::
      removeFirst (hookSchema.toList ++ [':'])
        (saved.hook.responseSchema.toList ++ ':' :: saved.uuid.text.toList)) := by
  rw [deletedKey, hookKey_toList, getId, replaceByNothing, String.toList_ofList, getId_key, String.toList_append]
  rfl

/-- For a hook of the schema the identifier of another hook is not made. -/
theorem deletedKey_eq_iff (saved other : Saved) : deletedKey other.key saved.hook.responseSchema = saved.key ↔
    other.hook.responseSchema = saved.hook.responseSchema ∧ other.uuid.text = saved.uuid.text := by
  rw [← String.toList_inj, deletedKey_toList, Saved.key, hookKey_toList, List.append_cancel_left_eq, List.cons.injEq,
    List.append_cancel_left_eq, List.cons.injEq, and_iff_right rfl, and_iff_right rfl,
    removeFirst_eq_iff other.uuid.plain saved.uuid.plain (by rw [other.uuid.length, saved.uuid.length]),
    String.toList_inj, String.toList_inj]

/-- A key that the pattern of a schema stands for is made again from its parts. -/
theorem deletedKey_of_prefix {saved : Saved} {hookSchema : String}
    (h : hookSchema.toList ++ [':'] <+: saved.hook.responseSchema.toList ++ ':' :: saved.uuid.text.toList) :
    deletedKey saved.key hookSchema = saved.key := by
  obtain ⟨rest, hrest⟩ := h
  rw [← String.toList_inj, deletedKey_toList, Saved.key, hookKey_toList, ← hrest, removeFirst_append, List.append_assoc,
    List.singleton_append]

theorem plain_append {text more : String} : Plain (text ++ more) ↔ Plain text ∧ Plain more := by
  unfold Plain
  rw [String.toList_append, List.any_append, Bool.or_eq_false_iff]

theorem plain_pattern {hookSchema : String} (h : Plain hookSchema) : Plain (HOOKS ++ (":" ++ (hookSchema ++ ":"))) := by
  rw [plain_append, plain_append, plain_append]
  exact ⟨rfl, rfl, h, rfl⟩

/-- A pattern without metacharacters lists the hooks of its schema, and those of
every schema that goes on after a colon. -/
theorem Saves.mem_listed_of_plain (saves : Saves) (parser : DateParser) (redis : Redis) {hookSchema : String}
    (hplain : Plain hookSchema) {saved : Saved} (hsaved : saved ∈ saves.list) :
    saved ∈ saves.listed parser redis hookSchema ↔ hookSchema = saved.hook.responseSchema ∨
      hookSchema.toList ++ [':'] <+: saved.hook.responseSchema.toList := by
  have hstored : saved.key ∈ (saves.cache parser).entries.map Prod.fst :=
    (saves.mem_keys parser).mpr ⟨saved, hsaved, rfl⟩
  have hpattern : HOOKS ++ (":" ++ (hookSchema ++ ":*")) = HOOKS ++ (":" ++ (hookSchema ++ ":")) ++ "*" := by
    rw [← String.toList_inj]
    simp
  have hkey := redis.plain _ _ (plain_pattern hplain) saved.key hstored
  rw [Saves.mem_listed, and_iff_right hsaved, Saves.keys, hpattern, hkey, ← String.toList_inj,
    ← append_separator_prefix_iff saved.uuid.plain]
  have htext : (HOOKS ++ (":" ++ (hookSchema ++ ":"))).toList =
      HOOKS.toList ++ [':'] ++ (hookSchema.toList ++ [':']) := by
    simp
  have hkeyText : saved.key.toList =
      HOOKS.toList ++ [':'] ++ (saved.hook.responseSchema.toList ++ ':' :: saved.uuid.text.toList) := by
    rw [Saved.key, hookKey_toList, List.append_assoc, List.singleton_append]
  rw [htext, hkeyText, List.prefix_append_right_inj]

/-- One saved hook. -/
def Saves.one (saved : Saved) : Saves :=
  ⟨[saved], List.nodup_singleton _⟩

theorem Saves.listed_one (parser : DateParser) (redis : Redis) {hookSchema : String} (hplain : Plain hookSchema)
    {saved : Saved} (h : hookSchema = saved.hook.responseSchema ∨
      hookSchema.toList ++ [':'] <+: saved.hook.responseSchema.toList) :
    (Saves.one saved).listed parser redis hookSchema = [saved] := by
  have hmem : saved ∈ (Saves.one saved).list := List.mem_singleton.mpr rfl
  rw [← List.perm_singleton, List.perm_ext_iff_of_nodup (.of_map _ Saves.nodup_map_key_listed) (List.nodup_singleton _)]
  intro other
  rw [List.mem_singleton]
  constructor
  · intro hother
    exact List.mem_singleton.mp (Saves.mem_listed.mp hother).1
  · rintro rfl
    exact ((Saves.one other).mem_listed_of_plain parser redis hplain hmem).mpr h

theorem pulled_one (parser : DateParser) (redis : Redis) (baseUrl : String) (now : Now) {hookSchema : String}
    (data : Value) (hplain : Plain hookSchema) {saved : Saved} (h : hookSchema = saved.hook.responseSchema ∨
      hookSchema.toList ++ [':'] <+: saved.hook.responseSchema.toList) :
    pulled parser redis baseUrl now hookSchema data ((Saves.one saved).cache parser) =
      ⟨saved.operations baseUrl hookSchema now data, none⟩ := by
  rw [pulled_eq, Saves.listed_one parser redis hplain h, List.flatMap_singleton]

end node_backend.webhook_service

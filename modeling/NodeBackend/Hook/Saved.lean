import NodeBackend.Hook.Webhook

namespace node_backend.webhook_service

open js store program
open node_backend.exceptions node_backend.cache_access_helper
open node_backend.subscription_service (generateKey)

/-- An identifier of version 4: hexadecimal digits and hyphens, so many of them. -/
structure Uuid where
  text : String
  length : text.toList.length = 36
  plain : ':' ∉ text.toList

/-- A call of WebhookService.save with the schema of the hook. -/
structure Saved where
  uuid : Uuid
  hook : RegisterEventHookInterface

def Saved.key (saved : Saved) : String :=
  hookKey saved.hook.responseSchema saved.uuid.text

/-- Calls of WebhookService.save, none of which generated the identifier of another. -/
structure Saves where
  list : List Saved
  distinct : (list.map fun saved => saved.uuid.text).Nodup

def saveAll (parser : DateParser) (list : List Saved) : infra.Infra IdSource.counting :=
  list.foldl (fun s saved =>
    (Program.run infra.exec (save parser saved.uuid.text saved.hook.responseSchema saved.hook.toValue) s).2) .empty

/-- The cache that the calls lead to. -/
def Saves.cache (saves : Saves) (parser : DateParser) : KeyValue :=
  (saveAll parser saves.list).redis

/-- The text that is stored for a hook. -/
def savedText (hook : RegisterEventHookInterface) : String :=
  data_parser_helper.text false hook.toValue

theorem hookKey_toList (hookSchema hookId : String) :
    (hookKey hookSchema hookId).toList = HOOKS.toList ++ ':' :: (hookSchema.toList ++ ':' :: hookId.toList) := by
  unfold hookKey generateKey
  simp only [String.toList_append]
  rfl

theorem hookKey_injective {hookSchema hookSchema' : String} {uuid uuid' : Uuid}
    (h : hookKey hookSchema uuid.text = hookKey hookSchema' uuid'.text) :
    hookSchema = hookSchema' ∧ uuid.text = uuid'.text := by
  have hlists := congrArg String.toList h
  rw [hookKey_toList, hookKey_toList] at hlists
  have hrest := (List.cons.inj (List.append_cancel_left hlists)).2
  obtain ⟨hschema, huuid⟩ := eq_of_append_separator uuid.plain uuid'.plain hrest
  exact ⟨String.toList_inj.mp hschema, String.toList_inj.mp huuid⟩

theorem payloadBuilder_toValue (parser : DateParser) (hook : RegisterEventHookInterface) :
    payloadBuilder parser hook.toValue = hook.toValue := by
  obtain ⟨responseEndpoint, responseMethod, responseSchema, sendAt, _⟩ := hook
  cases sendAt <;> rfl

theorem run_save (parser : DateParser) (uuid hookSchema : String) (hook : RegisterEventHookInterface)
    {ids : IdSource} (s : infra.Infra ids) :
    Program.run infra.exec (save parser uuid hookSchema hook.toValue) s =
      (.ok "OK", { s with redis := s.redis.set (hookKey hookSchema uuid) (savedText hook) }) := by
  unfold save
  rw [payloadBuilder_toValue]
  exact redis_client.run_set rfl _ (by decide) s

theorem get_saveAll_concat (parser : DateParser) (list : List Saved) (saved : Saved) (key : String) :
    (saveAll parser (list ++ [saved])).redis.get key =
      if key = saved.key then some (savedText saved.hook) else (saveAll parser list).redis.get key := by
  unfold saveAll
  rw [List.foldl_concat, run_save]
  exact KeyValue.get_set _ _ _ _

theorem get_saveAll (parser : DateParser) {list : List Saved}
    (hdistinct : (list.map fun saved => saved.uuid.text).Nodup) {key text : String} :
    (saveAll parser list).redis.get key = some text ↔
      ∃ saved ∈ list, saved.key = key ∧ savedText saved.hook = text := by
  induction list using List.reverseRecOn with
  | nil => simp [saveAll, infra.Infra.empty]
  | append_singleton list saved ih =>
    rw [List.map_append, List.map_singleton] at hdistinct
    have hfresh : ∀ other ∈ list, other.key ≠ saved.key := by
      intro other hother hsame
      apply List.disjoint_of_nodup_append hdistinct (List.mem_map_of_mem hother)
      rw [List.mem_singleton]
      exact (hookKey_injective hsame).2
    rw [get_saveAll_concat]
    by_cases hkey : key = saved.key
    · rw [if_pos hkey]
      constructor
      · intro htext
        exact ⟨saved, by simp, hkey.symm, Option.some.inj htext⟩
      · rintro ⟨other, hother, hsame, rfl⟩
        obtain hold | hnew := List.mem_append.mp hother
        · exact absurd (hsame.trans hkey) (hfresh other hold)
        · rw [List.mem_singleton.mp hnew]
    · rw [if_neg hkey, ih (List.Nodup.of_append_left hdistinct)]
      constructor
      · rintro ⟨other, hother, h⟩
        exact ⟨other, List.mem_append_left _ hother, h⟩
      · rintro ⟨other, hother, hsame, htext⟩
        obtain hold | hnew := List.mem_append.mp hother
        · exact ⟨other, hold, hsame, htext⟩
        · rw [List.mem_singleton.mp hnew] at hsame
          exact absurd hsame.symm hkey

/-- The cache holds the saved hooks and nothing else. -/
theorem Saves.get_cache (saves : Saves) (parser : DateParser) {key text : String} :
    (saves.cache parser).get key = some text ↔
      ∃ saved ∈ saves.list, saved.key = key ∧ savedText saved.hook = text :=
  get_saveAll parser saves.distinct

theorem Saves.eq_of_key_eq (saves : Saves) {saved other : Saved} (hsaved : saved ∈ saves.list)
    (hother : other ∈ saves.list) (h : saved.key = other.key) : saved = other :=
  List.inj_on_of_nodup_map saves.distinct hsaved hother (hookKey_injective h).2

theorem Saves.mem_keys (saves : Saves) (parser : DateParser) {key : String} :
    key ∈ (saves.cache parser).entries.map Prod.fst ↔ ∃ saved ∈ saves.list, saved.key = key := by
  rw [KeyValue.mem_keys_iff, Option.ne_none_iff_exists']
  simp only [saves.get_cache parser]
  constructor
  · intro h
    obtain ⟨text, saved, hsaved, hkey, _⟩ := h
    exact ⟨saved, hsaved, hkey⟩
  · rintro ⟨saved, hsaved, hkey⟩
    exact ⟨_, saved, hsaved, hkey, rfl⟩

/-- The hook that a stored text is read as. -/
def readHook (parser : DateParser) (hook : RegisterEventHookInterface) : Value :=
  payloadBuilder parser (redis_client.parseValue (savedText hook))

theorem toValue_proper (hook : RegisterEventHookInterface) : hook.toValue.Proper := by
  refine .obj (by simp) fun field hfield => ?_
  simp only [List.mem_cons, List.not_mem_nil, or_false] at hfield
  obtain rfl | rfl | rfl | rfl := hfield
  · cases hook.responseEndpoint
    · exact .undefined
    · exact .str _
  · exact .str _
  · exact .str _
  · cases hook.sendAt
    · exact .undefined
    · exact .date _

theorem parseValue_savedText (hook : RegisterEventHookInterface) {fields : List (String × json.Value)}
    (h : hook.toValue.toJson = some (.obj fields)) :
    redis_client.parseValue (savedText hook) = .obj (fieldsOfJson fields) := by
  have htext : savedText hook = (json.Value.obj fields).stringify := by
    change (hook.toValue.toJson.map json.Value.stringify).getD "" = _
    rw [h]
    rfl
  rw [redis_client.parseValue, htext, data_parser_helper.toObject_stringify ((toValue_proper hook).toJson h)]
  change ofJson (.obj fields) = _
  rw [ofJson]

theorem toISOString_ne (time : Time) : time.toISOString ≠ "" := by
  intro h
  have hlist := congrArg (List.length ∘ String.toList) h
  simp [Time.toISOString, fieldText] at hlist

/-- A date that goes through JSON comes back. -/
theorem payloadBuilder_sendAt (parser : DateParser) {fields : List (String × Value)} (time : Time)
    (h : fields.lookup "sendAt" = some (.str time.toISOString)) :
    payloadBuilder parser (.obj fields) = .obj (json.setField fields "sendAt" (.date (some time))) := by
  have hprop : (Value.obj fields).prop "sendAt" = .str time.toISOString := by
    rw [Value.prop, h, Option.getD_some]
  unfold payloadBuilder
  rw [hprop]
  dsimp only
  rw [if_neg (toISOString_ne time), parser.parse_toISOString]

theorem payloadBuilder_absent (parser : DateParser) {fields : List (String × Value)}
    (h : fields.lookup "sendAt" = none) : payloadBuilder parser (.obj fields) = .obj fields := by
  have hprop : (Value.obj fields).prop "sendAt" = .undefined := by
    rw [Value.prop, h, Option.getD_none]
  unfold payloadBuilder
  rw [hprop]

/-- What a hook has is read back. -/
theorem readHook_props (parser : DateParser) (hook : RegisterEventHookInterface) :
    (readHook parser hook).prop "responseEndpoint" = hook.responseEndpoint.elim .undefined .str ∧
    (readHook parser hook).prop "responseMethod" = .str hook.responseMethod.text ∧
    (readHook parser hook).prop "sendAt" = hook.sendAt.elim .undefined fun time => .date (some time) := by
  obtain ⟨responseEndpoint, responseMethod, responseSchema, sendAt, hne⟩ := hook
  cases sendAt with
  | none =>
    cases responseEndpoint with
    | none =>
      rw [readHook, parseValue_savedText _ rfl, payloadBuilder_absent parser rfl]
      exact ⟨rfl, rfl, rfl⟩
    | some endpoint =>
      rw [readHook, parseValue_savedText _ rfl, payloadBuilder_absent parser rfl]
      exact ⟨rfl, rfl, rfl⟩
  | some time =>
    cases responseEndpoint with
    | none =>
      rw [readHook, parseValue_savedText _ rfl, payloadBuilder_sendAt parser time rfl]
      exact ⟨rfl, rfl, rfl⟩
    | some endpoint =>
      rw [readHook, parseValue_savedText _ rfl, payloadBuilder_sendAt parser time rfl]
      exact ⟨rfl, rfl, rfl⟩

end node_backend.webhook_service

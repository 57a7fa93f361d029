import NodeBackend.Hook.Delivery

namespace node_backend.webhook_service

open js store program
open node_backend.exceptions

/-- The due hooks of a schema were requested and deleted, and no other hook was. -/
def PulledExactly (saves : Saves) (now : Now) (hookSchema : String) (pull : Pull) (pool : Pool) : Prop :=
  ∀ saved ∈ saves.list,
    (saved.hook.responseSchema = hookSchema ∧ saved.hook.Due now = true →
      ∃ hookRequest, Attempted pull pool (some hookRequest) saved) ∧
    (¬ (saved.hook.responseSchema = hookSchema ∧ saved.hook.Due now = true) → Untouched pull pool saved)

/-- No due hook has a schema that goes on after the one that is pulled and a colon, and
every due hook of the one that is pulled has an endpoint, or the configuration has. -/
def Pullable (saves : Saves) (baseUrl : String) (now : Now) (hookSchema : String) : Prop :=
  ∀ saved ∈ saves.list, saved.hook.Due now = true →
    ¬ hookSchema.toList ++ [':'] <+: saved.hook.responseSchema.toList ∧
    (saved.hook.responseSchema = hookSchema → saved.hook.responseEndpoint.isSome = true ∨ baseUrl ≠ "")

theorem request_isSome_iff (hook : RegisterEventHookInterface) (baseUrl : String) (data : Value) :
    (hook.request baseUrl data).isSome = true ↔ hook.responseEndpoint.isSome = true ∨ baseUrl ≠ "" := by
  have hne := hook.endpoint_ne
  unfold RegisterEventHookInterface.request
  cases hendpoint : hook.responseEndpoint with
  | none => by_cases hempty : baseUrl = "" <;> simp [hempty]
  | some endpoint =>
    rw [hendpoint] at hne
    have hfull : endpoint ≠ "" := fun hempty => hne (congrArg some hempty)
    simp [hfull]

/-- A schema does not go on after itself. -/
theorem schema_ne_of_prefix {hookSchema responseSchema : String}
    (h : hookSchema.toList ++ [':'] <+: responseSchema.toList) : responseSchema ≠ hookSchema := by
  rintro rfl
  have hlength := h.length_le
  rw [List.length_append, List.length_singleton] at hlength
  omega

/-- Under a plain schema every hook that is listed is deleted under its own key. -/
theorem deletedKey_of_listed {saves : Saves} {parser : DateParser} {redis : Redis} {hookSchema : String}
    (hplain : Plain hookSchema) {saved : Saved} (hlisted : saved ∈ saves.listed parser redis hookSchema) :
    deletedKey saved.key hookSchema = saved.key := by
  have hpattern := (saves.mem_listed_of_plain parser redis hplain (Saves.mem_listed.mp hlisted).1).mp hlisted
  rw [← String.toList_inj] at hpattern
  exact deletedKey_of_prefix ((append_separator_prefix_iff saved.uuid.plain).mpr hpattern)

section pulled

variable {saves : Saves} {parser : DateParser} {redis : Redis} {baseUrl hookSchema : String} {now : Now} {data : Value}
  {faults : Faults} {pull : Pull} {pool : Pool} {result : Except Failure Unit} (hplain : Plain hookSchema)
  (hpull : pulled parser redis baseUrl now hookSchema data (saves.cache parser) = pull)
  (hsettled : Settled pull faults (saves.cache parser) pool result)

include hplain hpull hsettled

theorem attempted_of_plain {saved : Saved} (hsaved : saved ∈ saves.list) (hdue : saved.hook.Due now = true)
    (h : hookSchema = saved.hook.responseSchema ∨ hookSchema.toList ++ [':'] <+: saved.hook.responseSchema.toList) :
    Attempted pull pool (saved.hook.request baseUrl data) saved := by
  have hlisted := (saves.mem_listed_of_plain parser redis hplain hsaved).mpr h
  exact attempted_of_listed hpull hsettled hlisted hdue (deletedKey_of_listed hplain hlisted)

/-- A due hook of a longer schema is pulled too, and one without an endpoint is not
requested. -/
theorem pullable_of_exactly (hexact : PulledExactly saves now hookSchema pull pool) :
    Pullable saves baseUrl now hookSchema := by
  intro saved hsaved hdue
  obtain ⟨hown, hothers⟩ := hexact saved hsaved
  constructor
  · intro hlonger
    have hkept := (hothers fun h => schema_ne_of_prefix hlonger h.1).kept
    rw [Kept, (attempted_of_plain hplain hpull hsettled hsaved hdue (Or.inr hlonger)).gone] at hkept
    cases hkept
  · intro hschema
    obtain ⟨hookRequest, hsome⟩ := hown ⟨hschema, hdue⟩
    have honce := (attempted_of_plain hplain hpull hsettled hsaved hdue (Or.inl hschema.symm)).once
    rw [hsome.once] at honce
    apply (request_isSome_iff saved.hook baseUrl data).mp
    cases hrequest : saved.hook.request baseUrl data with
    | none =>
      rw [hrequest] at honce
      cases honce
    | some _ => rfl

theorem exactly_of_pullable (hpullable : Pullable saves baseUrl now hookSchema) :
    PulledExactly saves now hookSchema pull pool := by
  intro saved hsaved
  have hown : ∀ other ∈ saves.listed parser redis hookSchema, other.hook.Due now = true →
      other.hook.responseSchema = hookSchema := by
    intro other hother hdue
    have hmem := (Saves.mem_listed.mp hother).1
    have hpattern := (saves.mem_listed_of_plain parser redis hplain hmem).mp hother
    exact (hpattern.resolve_right (hpullable other hmem hdue).1).symm
  constructor
  · rintro ⟨hschema, hdue⟩
    have hsome := (request_isSome_iff saved.hook baseUrl data).mpr ((hpullable saved hsaved hdue).2 hschema)
    obtain ⟨hookRequest, hrequest⟩ := Option.isSome_iff_exists.mp hsome
    refine ⟨hookRequest, ?_⟩
    rw [← hrequest]
    exact attempted_of_plain hplain hpull hsettled hsaved hdue (Or.inl hschema.symm)
  · intro hnot
    refine untouched_of_not_pulled hpull hsettled hsaved (fun h => hnot ⟨hown saved h.1 h.2, h.2⟩) ?_
    intro other hother _ hkey
    rw [deletedKey_of_listed hplain hother] at hkey
    exact saves.eq_of_key_eq (Saves.mem_listed.mp hother).1 hsaved hkey

end pulled

/-- Where no call fails, pullHook touches exactly the due hooks of its schema just if no
due hook is saved under a longer schema and none of its own is without an endpoint. -/
theorem pulledExactly_iff (saves : Saves) (parser : DateParser) (redis : Redis) (baseUrl : String) (now : Now)
    {hookSchema : String} (hplain : Plain hookSchema) (data : Value) (turns : List Nat) {pull : Pull} {pool : Pool}
    {result : Except Failure Unit} (hpull : pulled parser redis baseUrl now hookSchema data (saves.cache parser) = pull)
    (hpool : pull.after redis (fun _ _ => none) (saves.cache parser) turns = pool)
    (hresult : pull.outcome pool = some result) :
    PulledExactly saves now hookSchema pull pool ↔ Pullable saves baseUrl now hookSchema := by
  have hsettled := settled_of_pulled (fun _ _ => rfl) hpull hpool hresult
  exact ⟨pullable_of_exactly hplain hpull hsettled, exactly_of_pullable hplain hpull hsettled⟩

/-- A hook of a schema that goes on after another one. -/
def replayHook : Saved :=
  ⟨⟨"9b2d4c1e-0a57-4d3c-8f6b-1e2a3c4d5f60", by simp, by simp⟩, registered "NEW_HOOK:replay"⟩

theorem pulledExactly_iff_newHook :
    PulledExactly (Saves.one newHook) someTime "NEW_HOOK" newHookPull
        (newHookPull.after .prefixes (fun _ _ => none) ((Saves.one newHook).cache .iso) [1, 0]) ↔
      Pullable (Saves.one newHook) "" someTime "NEW_HOOK" :=
  pulledExactly_iff (Saves.one newHook) .iso .prefixes "" someTime plain_newHook .undefined [1, 0]
    (pulled_newHook .iso .prefixes someTime) rfl rfl

def replayHookPull : Pull :=
  ⟨[.request replayHook.key newHookRequest, .delete replayHook.key], none⟩

theorem pulled_replayHook (parser : DateParser) (redis : Redis) (now : Now) :
    pulled parser redis "" now "NEW_HOOK" .undefined ((Saves.one replayHook).cache parser) = replayHookPull := by
  have hlonger : "NEW_HOOK".toList ++ [':'] <+: replayHook.hook.responseSchema.toList := by decide
  have hmem := ((Saves.one replayHook).mem_listed_of_plain parser redis plain_newHook
    (List.mem_singleton.mpr rfl)).mpr (Or.inr hlonger)
  rw [pulled_one parser redis "" now .undefined plain_newHook (Or.inr hlonger), Saved.operations,
    deletedKey_of_listed plain_newHook hmem]
  rfl

/-- It is requested and deleted when the shorter schema is pulled. -/
theorem replayHook_pulled : ¬ ∀ (saves : Saves) (parser : DateParser) (redis : Redis) (baseUrl : String) (now : Now)
    (hookSchema : String) (data : Value) (turns : List Nat) (pull : Pull) (pool : Pool) (result : Except Failure Unit),
    Plain hookSchema → pulled parser redis baseUrl now hookSchema data (saves.cache parser) = pull →
    pull.after redis (fun _ _ => none) (saves.cache parser) turns = pool → pull.outcome pool = some result →
    PulledExactly saves now hookSchema pull pool := by
  intro h
  have hexact := h (Saves.one replayHook) .iso .prefixes "" someTime "NEW_HOOK" .undefined [1, 0] replayHookPull _ _
    plain_newHook (pulled_replayHook .iso .prefixes someTime) rfl rfl
  have hother : ¬ (replayHook.hook.responseSchema = "NEW_HOOK" ∧ replayHook.hook.Due someTime = true) := by
    rintro ⟨hschema, _⟩
    exact absurd hschema (by decide)
  have huntouched := (hexact replayHook (List.mem_singleton.mpr rfl)).2 hother
  have hrequests := huntouched.notRequested
  cases hrequests

end node_backend.webhook_service

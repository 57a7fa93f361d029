import NodeBackend.Hook.Settled
import NodeBackend.Hook.Started

namespace node_backend.webhook_service

open js store program
open node_backend.exceptions

/-- A request that was made for the hook under a key came back without an error. -/
def Answered (pull : Pull) (pool : Pool) (key : String) : Prop :=
  ∃ (place : Nat) (hookRequest : HookRequest), pull.started[place]? = some (.request key hookRequest) ∧
    pool.returned place = true

def Kept (pool : Pool) (saved : Saved) : Prop :=
  pool.cache.get saved.key = some (savedText saved.hook)

def DeliveredOrKept (pull : Pull) (pool : Pool) (saved : Saved) : Prop :=
  Answered pull pool saved.key ∨ Kept pool saved

/-- A request for the hook under a key is still without an answer, or it failed. -/
def Unanswered (pull : Pull) (faults : Faults) (pool : Pool) (key : String) : Prop :=
  ∃ (place : Nat) (hookRequest : HookRequest), pull.started[place]? = some (.request key hookRequest) ∧
    (pool.threads[place]? = some (Operation.request key hookRequest).promise ∨
      ∃ n failure, faults n (.requestHook hookRequest) = some failure ∧ pool.thrown? place = some failure)

/-- The request of a hook was made once, however it ended, and the hook is gone. -/
structure Attempted (pull : Pull) (pool : Pool) (hookRequest : Option HookRequest) (saved : Saved) : Prop where
  once : pull.requestsOf saved.key = hookRequest.toList
  gone : pool.cache.get saved.key = none

/-- The hook was left alone. -/
structure Untouched (pull : Pull) (pool : Pool) (saved : Saved) : Prop where
  notRequested : pull.requestsOf saved.key = []
  kept : Kept pool saved

section pulled

variable {saves : Saves} {parser : DateParser} {redis : Redis} {baseUrl hookSchema : String} {now : Now} {data : Value}
  {faults : Faults} {pull : Pull} {pool : Pool} {result : Except Failure Unit} {saved : Saved}
  (hpull : pulled parser redis baseUrl now hookSchema data (saves.cache parser) = pull)
  (hsettled : Settled pull faults (saves.cache parser) pool result)

include hpull hsettled

/-- A hook that is due and whose key is made again when it is listed. -/
theorem attempted_of_listed (hlisted : saved ∈ saves.listed parser redis hookSchema) (hdue : saved.hook.Due now = true)
    (hkey : deletedKey saved.key hookSchema = saved.key) :
    Attempted pull pool (saved.hook.request baseUrl data) saved := by
  rw [pulled_eq] at hpull
  subst hpull
  refine ⟨?_, hsettled.deleted saved.key (delete_mem_operations_iff.mpr ⟨saved, hlisted, hdue, hkey⟩)⟩
  exact (requestsOf_operations Saves.nodup_map_key_listed hlisted).trans (if_pos hdue)

theorem untouched_of_not_pulled (hsaved : saved ∈ saves.list)
    (hnot : ¬ (saved ∈ saves.listed parser redis hookSchema ∧ saved.hook.Due now = true))
    (hkey : ∀ other ∈ saves.listed parser redis hookSchema, other.hook.Due now = true →
      deletedKey other.key hookSchema = saved.key → other = saved) : Untouched pull pool saved := by
  rw [pulled_eq] at hpull
  subst hpull
  have hget := (saves.get_cache parser).mpr ⟨saved, hsaved, rfl, rfl⟩
  have hnotDeleted : Operation.delete saved.key ∉
      (saves.listed parser redis hookSchema).flatMap (Saved.operations baseUrl hookSchema now data) := by
    intro hdelete
    obtain ⟨other, hother, hdue, hsame⟩ := delete_mem_operations_iff.mp hdelete
    cases hkey other hother hdue hsame
    exact hnot ⟨hother, hdue⟩
  refine ⟨?_, (hsettled.kept saved.key hnotDeleted).trans hget⟩
  by_cases hlisted : saved ∈ saves.listed parser redis hookSchema
  · have hdue : ¬ saved.hook.Due now = true := fun hdue => hnot ⟨hlisted, hdue⟩
    exact (requestsOf_operations Saves.nodup_map_key_listed hlisted).trans (if_neg hdue)
  · refine requestsOf_operations_of_not_mem fun hmem => hlisted ?_
    obtain ⟨other, hother, hsame⟩ := List.mem_map.mp hmem
    rwa [saves.eq_of_key_eq (Saves.mem_listed.mp hother).1 hsaved hsame] at hother

end pulled

/-- The listing does not fail, so all depends on what was started. -/
theorem settled_of_pulled {saves : Saves} {parser : DateParser} {redis : Redis} {baseUrl hookSchema : String}
    {now : Now} {data : Value} {faults : Faults} (hfaults : faults.OnlyRequests) {turns : List Nat} {pull : Pull}
    {pool : Pool} {result : Except Failure Unit}
    (hpull : pulled parser redis baseUrl now hookSchema data (saves.cache parser) = pull)
    (hpool : pull.after redis faults (saves.cache parser) turns = pool) (hresult : pull.outcome pool = some result) :
    Settled pull faults (saves.cache parser) pool result := by
  have hthrown : pull.thrown = none := by
    rw [← hpull, pulled_eq]
  subst hpool
  exact (pull.progress hfaults _ turns).settled hthrown hresult

theorem Attempted.mem_started {pull : Pull} {pool : Pool} {saved : Saved} {hookRequest : HookRequest}
    (h : Attempted pull pool (some hookRequest) saved) :
    ∃ (place : Nat), pull.started[place]? = some (.request saved.key hookRequest) := by
  have hrequest : hookRequest ∈ pull.requestsOf saved.key := by
    rw [h.once]
    exact List.mem_singleton.mpr rfl
  obtain ⟨operation, hoperation, hof⟩ := List.mem_filterMap.mp hrequest
  obtain ⟨place, hplace⟩ := List.mem_iff_getElem?.mp hoperation
  cases operation with
  | delete key => cases hof
  | request key other =>
    rw [Operation.requestOf] at hof
    split at hof
    · next hkey =>
      cases hof
      exact ⟨place, hkey ▸ hplace⟩
    · cases hof

/-- However requests fail, a due hook of the schema that pullHook was called with is
requested once and gone when pullHook has ended, unless Redis takes the schema for
another pattern and leaves the hook alone. A request that was made is answered or on
its way, or it is the one that failed, and none is left where pullHook returned. -/
theorem attempted_or_untouched (saves : Saves) (parser : DateParser) (redis : Redis) (baseUrl : String) (now : Now)
    (hookSchema : String) (data : Value) {faults : Faults} (hfaults : faults.OnlyRequests) (turns : List Nat)
    {pull : Pull} {pool : Pool} {result : Except Failure Unit}
    (hpull : pulled parser redis baseUrl now hookSchema data (saves.cache parser) = pull)
    (hpool : pull.after redis faults (saves.cache parser) turns = pool) (hresult : pull.outcome pool = some result) :
    (∀ saved ∈ saves.list, saved.hook.responseSchema = hookSchema → saved.hook.Due now = true →
      (Attempted pull pool (saved.hook.request baseUrl data) saved ∨ ¬ Plain hookSchema ∧ Untouched pull pool saved) ∧
      ((saved.hook.request baseUrl data).isSome = true →
        DeliveredOrKept pull pool saved ∨ result ≠ .ok () ∧ Unanswered pull faults pool saved.key)) ∧
    ∀ failure, result = .error failure → ∃ n hookRequest, faults n (.requestHook hookRequest) = some failure := by
  have hsettled := settled_of_pulled hfaults hpull hpool hresult
  refine ⟨fun saved hsaved hschema hdue => ?_, hsettled.failed⟩
  subst hschema
  by_cases hlisted : saved ∈ saves.listed parser redis saved.hook.responseSchema
  · have hattempted := attempted_of_listed hpull hsettled hlisted hdue ((deletedKey_eq_iff saved saved).mpr ⟨rfl, rfl⟩)
    refine ⟨Or.inl hattempted, fun hsome => ?_⟩
    obtain ⟨hookRequest, hrequest⟩ := Option.isSome_iff_exists.mp hsome
    rw [hrequest] at hattempted
    obtain ⟨place, hplace⟩ := hattempted.mem_started
    by_cases hreturned : pool.returned place = true
    · exact Or.inl (Or.inl ⟨place, hookRequest, hplace, hreturned⟩)
    · refine Or.inr ⟨fun hok => hreturned (hsettled.answered hok place _ hplace), place, hookRequest, hplace, ?_⟩
      exact (hsettled.requests place _ hookRequest hplace).resolve_left hreturned
  · have huntouched : Untouched pull pool saved := by
      apply untouched_of_not_pulled hpull hsettled hsaved (fun h => hlisted h.1)
      intro other hother _ hsame
      obtain ⟨hschema, huuid⟩ := (deletedKey_eq_iff saved other).mp hsame
      exact saves.eq_of_key_eq (Saves.mem_listed.mp hother).1 hsaved (by rw [Saved.key, Saved.key, hschema, huuid])
    refine ⟨Or.inr ⟨fun hplain => hlisted ?_, huntouched⟩, fun _ => Or.inl (Or.inr huntouched.kept)⟩
    exact (saves.mem_listed_of_plain parser redis hplain hsaved).mpr (Or.inl rfl)

/-- What a client registers for the events of a schema. -/
def registered (responseSchema : String) : RegisterEventHookInterface :=
  ⟨some "http://localhost:4000/api/hook", .post, responseSchema, none, by simp⟩

/-- A hook that waits for the next event of its schema. -/
def newHook : Saved :=
  ⟨⟨"3f1c5a52-7b1e-4f0a-9d2c-6a5e8b1f0c3d", by simp, by simp⟩, registered "NEW_HOOK"⟩

def newHookRequest : HookRequest :=
  ⟨"POST".toLower, .str "http://localhost:4000/api/hook", .undefined⟩

/-- Every request fails. -/
def timeouts : Faults := fun _ call =>
  match call with
  | .requestHook _ => some (.plain { message := "timeout of 30000ms exceeded" })
  | _ => none

def newHookPull : Pull :=
  ⟨[.request newHook.key newHookRequest, .delete newHook.key], none⟩

theorem plain_newHook : Plain "NEW_HOOK" := rfl

theorem pulled_newHook (parser : DateParser) (redis : Redis) (now : Now) :
    pulled parser redis "" now "NEW_HOOK" .undefined ((Saves.one newHook).cache parser) = newHookPull := by
  have hsame : "NEW_HOOK" = newHook.hook.responseSchema := rfl
  have hkey : deletedKey newHook.key "NEW_HOOK" = newHook.key := (deletedKey_eq_iff newHook newHook).mpr ⟨rfl, rfl⟩
  rw [pulled_one parser redis "" now .undefined plain_newHook (Or.inl hsame), Saved.operations, hkey]
  rfl

def someTime : Now :=
  ⟨⟨1713375408666, by simp⟩, by simp⟩

/-- The request of the one hook fails after the hook was deleted. -/
theorem attempted_or_untouched_newHook :
    Attempted newHookPull (newHookPull.after .prefixes timeouts ((Saves.one newHook).cache .iso) [1, 0])
        (newHook.hook.request "" .undefined) newHook ∨
      ¬ Plain "NEW_HOOK" ∧
        Untouched newHookPull (newHookPull.after .prefixes timeouts ((Saves.one newHook).cache .iso) [1, 0]) newHook :=
  ((attempted_or_untouched (Saves.one newHook) .iso .prefixes "" someTime "NEW_HOOK" .undefined
    (fun _ _ => rfl) [1, 0] (pulled_newHook .iso .prefixes someTime) rfl rfl).1 newHook
      (List.mem_singleton.mpr rfl) rfl rfl).1

/-- It was neither delivered nor kept. -/
theorem lost_newHook : ¬ ∀ (saves : Saves) (parser : DateParser) (redis : Redis) (baseUrl : String) (now : Now)
    (hookSchema : String) (data : Value) (faults : Faults) (turns : List Nat) (pull : Pull) (pool : Pool)
    (result : Except Failure Unit), faults.OnlyRequests →
    pulled parser redis baseUrl now hookSchema data (saves.cache parser) = pull →
    pull.after redis faults (saves.cache parser) turns = pool → pull.outcome pool = some result →
    ∀ saved ∈ saves.list, saved.hook.responseSchema = hookSchema → saved.hook.Due now = true →
      DeliveredOrKept pull pool saved := by
  intro h
  obtain ⟨place, hookRequest, hplace, hreturned⟩ | hkept :=
    h (Saves.one newHook) .iso .prefixes "" someTime "NEW_HOOK" .undefined timeouts [1, 0] newHookPull _ _
      (fun _ _ => rfl)
      (pulled_newHook .iso .prefixes someTime) rfl rfl newHook (List.mem_singleton.mpr rfl) rfl rfl
  · have hzero : place = 0 := by
      have hlt := (List.getElem?_eq_some_iff.mp hplace).1
      have hlength : newHookPull.started.length = 2 := rfl
      obtain rfl | hone : place = 0 ∨ place = 1 := by omega
      · rfl
      · subst hone
        cases hplace
    subst hzero
    cases hreturned
  · have hgone : Pool.cache (newHookPull.after .prefixes timeouts ((Saves.one newHook).cache .iso) [1, 0]) =
        ((Saves.one newHook).cache .iso).delete newHook.key := rfl
    rw [Kept, hgone, KeyValue.get_delete_self] at hkept
    cases hkept

end node_backend.webhook_service

import NodeBackend.Common.DataParser
import NodeBackend.Core.Infra

namespace node_backend.redis_client

open js store program
open node_backend.infra

def parseValue (strValue : String) : Value :=
  data_parser_helper.toObject strValue

/-- RedisClient.get. An absent key and an empty text both read as null. -/
def get (key : String) : Promise Value := do
  let value ← perform (.redisGet key)
  match value with
  | some text => return if text = "" then .null else parseValue text
  | none => return .null

/-- Seconds that an entry set without a time to live of its own stays. -/
def defaultTtl : Nat := 30

def set (key : String) (value : Value) (ttl : Nat) : Promise String := do
  let text ← Program.ofExcept ((data_parser_helper.toString false value).mapError .typeError)
  let result ← perform (.redisSet key text)
  let _ ← perform (.redisExpire key ttl)
  return result

def delete (key : String) : Promise Nat :=
  perform (.redisDel key)

variable {ids : IdSource}

/-- The value that a stored text reads as. -/
def reading (text : Option String) : Value :=
  match text with
  | some text => if text = "" then .null else parseValue text
  | none => .null

theorem run_get (key : String) (s : Infra ids) :
    Program.run exec (get key) s = (.ok (reading (s.redis.get key)), s) := by
  simp only [get, perform, Program.perform_bind, Program.run_await, exec]
  cases s.redis.get key <;> rfl

theorem set_eq {value : Value} (hprint : value.unprintable = false) (key : String) (ttl : Nat) :
    set key value ttl = perform (.redisSet key (data_parser_helper.text false value)) >>= fun result =>
      perform (.redisExpire key ttl) >>= fun _ => pure result := by
  rw [set, data_parser_helper.toString_of_printable false hprint]
  rfl

theorem run_set {value : Value} (hprint : value.unprintable = false) (key : String) {ttl : Nat} (httl : 0 < ttl)
    (s : Infra ids) : Program.run exec (set key value ttl) s =
      (.ok "OK", { s with redis := s.redis.set key (data_parser_helper.text false value) }) := by
  rw [set_eq hprint]
  simp only [perform, Program.perform_bind, Program.run_await, exec, Program.ofExcept, Program.done_bind,
    Program.pure_eq, Program.run_done]
  rw [if_neg (by omega)]

theorem run_set_of_unprintable {value : Value} (hprint : value.unprintable = true) (key : String) (ttl : Nat)
    (s : Infra ids) : Program.run exec (set key value ttl) s = (.error (.typeError cannotConvertToPrimitive), s) := by
  rw [set, data_parser_helper.toString_of_unprintable false hprint]
  rfl

/-- An empty text reads as null however it is decoded. -/
theorem reading_some (text : String) : reading (some text) = parseValue text := by
  rw [reading]
  by_cases htext : text = ""
  · subst htext
    rfl
  · rw [if_neg htext]

theorem run_get_after_set {value : Value} (hprint : value.unprintable = false) (key : String) {ttl : Nat}
    (httl : 0 < ttl) (s : Infra ids) : (Program.run exec (set key value ttl >>= fun _ => get key) s).1 =
      .ok (data_parser_helper.toObject (data_parser_helper.text false value)) := by
  rw [Program.run_bind_of_ok exec (run_set hprint key httl s), run_get, KeyValue.get_set_self, reading_some, parseValue]

/-- What is read back after a value was set is that value exactly if the encoder
keeps it, and so for the two conversions on their own. -/
theorem get_after_set_iff (s : Infra ids) (key : String) (v : json.ProperValue) :
    ((Program.run exec (set key (ofJson v.value) defaultTtl >>= fun _ => get key) s).1 = .ok (ofJson v.value) ↔
      data_parser_helper.Kept v.value) ∧
    ((data_parser_helper.toString false (ofJson v.value)).map data_parser_helper.toObject = .ok (ofJson v.value) ↔
      data_parser_helper.Kept v.value) := by
  refine ⟨?_, data_parser_helper.toObject_toString_iff false v.proper⟩
  rw [data_parser_helper.Kept, ← data_parser_helper.toObject_text_iff false v.proper]
  cases hprint : (ofJson v.value).unprintable with
  | false =>
    rw [run_get_after_set hprint key (by decide)]
    exact ⟨fun h => ⟨Except.ok.inj h, rfl⟩, fun h => congrArg Except.ok h.1⟩
  | true =>
    rw [Program.run_bind_of_error exec (run_set_of_unprintable hprint key defaultTtl s)]
    constructor
    · intro h
      cases h
    · intro h
      cases h.2

/-- A string is stored without quotes, so a greeting is not read back. -/
theorem get_after_set_string_lost :
    ¬ ∀ (s : Infra IdSource.counting) (key : String) (v : json.ProperValue),
      (Program.run exec (set key (ofJson v.value) defaultTtl >>= fun _ => get key) s).1 =
        .ok (ofJson v.value) := by
  intro h
  have hread := h Infra.empty "greeting" ⟨.str "hello", .str "hello"⟩
  rw [run_get_after_set rfl _ (by decide)] at hread
  have hcodec := (data_parser_helper.toObject_text_iff false (.str "hello")).mp (Except.ok.inj hread)
  exact hcodec (.str "hello")

end node_backend.redis_client

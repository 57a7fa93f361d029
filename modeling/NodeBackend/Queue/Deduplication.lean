import NodeBackend.Queue.Agreement

namespace node_backend.abstract_queue_producer

open js

/-- The date and the time of day down to the second, for a year of four digits. -/
def strDateWithSeconds (date : Time) : List Char :=
  date.toISOString.toList.take 19

/-- A dispatch, with what it reads of its surroundings. -/
structure Dispatch where
  reading : Reading
  dispatched : EventDispatchInterface

/-- The deduplication ids of two dispatches differ, if there are two. -/
def IdsDiffer (producer : AbstractQueueProducer) (hashing : String → Option String) (first second : Dispatch) : Prop :=
  ∀ params params', sendParams producer hashing first.reading first.dispatched = .ok params →
    sendParams producer hashing second.reading second.dispatched = .ok params' →
    params.messageDeduplicationId ≠ params'.messageDeduplicationId

/-- Dispatches within one second that differ in the schema only, of a payload that has an id. -/
structure Confused (first second : Dispatch) : Prop where
  schema : first.dispatched.schema ≠ second.dispatched.schema
  payload : first.dispatched.payload.data = second.dispatched.payload.data
  printable : first.dispatched.payload.fields.lookup "toString" = none
  date : strDateWithSeconds first.reading.date = strDateWithSeconds second.reading.date

theorem length_paddedDigits (width n : Nat) : (paddedDigits width n).length = width := by
  induction width with
  | zero => rfl
  | succ width ih => rw [paddedDigits, List.length_cons, ih]

theorem length_yearText (year : Int) : 4 ≤ (yearText year).length := by
  unfold yearText
  split
  · rw [length_paddedDigits]
  · split <;> simp [length_paddedDigits]

theorem length_strDateWithSeconds (date : Time) : (strDateWithSeconds date).length = 19 := by
  have hyear := length_yearText (civilFromDays (date.ms / 86400000)).year
  simp only [strDateWithSeconds, Time.toISOString, String.toList_ofList, List.length_take, List.length_append,
    fieldText, List.length_cons, length_paddedDigits]
  omega

/-- The hash and the second of an id can be told apart: the second has a fixed length. -/
theorem id_eq_iff {hash hash' : String} {date date' : Time} :
    hash ++ ("-" ++ String.ofList (strDateWithSeconds date)) =
        hash' ++ ("-" ++ String.ofList (strDateWithSeconds date')) ↔
      hash = hash' ∧ strDateWithSeconds date = strDateWithSeconds date' := by
  constructor
  · intro h
    have hlist := congrArg String.toList h
    simp only [String.toList_append, String.toList_ofList] at hlist
    have hlength : ("-".toList ++ strDateWithSeconds date).length =
        ("-".toList ++ strDateWithSeconds date').length := by
      rw [List.length_append, List.length_append, length_strDateWithSeconds, length_strDateWithSeconds]
    obtain ⟨hhash, hrest⟩ := List.append_inj' hlist hlength
    exact ⟨String.toList_inj.mp hhash, List.append_cancel_left hrest⟩
  · rintro ⟨rfl, hdate⟩
    rw [hdate]

variable {producer : AbstractQueueProducer} {sha : String → String}

/-- An id is there for a payload without a `toString` of its own, and made of the text
of the payload and the second. -/
theorem sendParams_eq_ok_iff {dispatch : Dispatch} {id : String} :
    (∃ params, sendParams producer (fun text => some (sha text)) dispatch.reading dispatch.dispatched = .ok params ∧
        params.messageDeduplicationId = id) ↔
      dispatch.dispatched.payload.fields.lookup "toString" = none ∧
        id = sha dispatch.dispatched.payload.data.stringify ++
          ("-" ++ String.ofList (strDateWithSeconds dispatch.reading.date)) := by
  unfold sendParams
  by_cases hown : dispatch.dispatched.payload.fields.lookup "toString" = none
  · rw [buildDeduplicationId_eq _ _ hown]
    constructor
    · rintro ⟨params, hparams, rfl⟩
      cases hparams
      exact ⟨hown, rfl⟩
    · rintro ⟨_, rfl⟩
      exact ⟨_, rfl, rfl⟩
  · rw [buildDeduplicationId_throws _ _ hown]
    constructor
    · rintro ⟨params, hparams, _⟩
      cases hparams
    · intro h
      exact absurd h.1 hown

theorem not_idsDiffer_of_confused {first second : Dispatch} (h : Confused first second) :
    ¬ IdsDiffer producer (fun text => some (sha text)) first second := by
  intro hdiffer
  have hsecond : second.dispatched.payload.fields.lookup "toString" = none := by
    rw [← json.Value.obj.inj h.payload]
    exact h.printable
  obtain ⟨params, hparams, hid⟩ := sendParams_eq_ok_iff.mpr ⟨h.printable, rfl⟩
  obtain ⟨params', hparams', hid'⟩ := sendParams_eq_ok_iff.mpr ⟨hsecond, rfl⟩
  apply hdiffer params params' hparams hparams'
  rw [hid, hid', h.payload, h.date]

/-- The text of an object tells it from all others, so the same hash is of the same payload. -/
theorem confused_of_ids_eq (hsha : Function.Injective sha) {first second : Dispatch} {params params' : ISendParams}
    (hfirst : sendParams producer (fun text => some (sha text)) first.reading first.dispatched = .ok params)
    (hsecond : sendParams producer (fun text => some (sha text)) second.reading second.dispatched = .ok params')
    (hids : params.messageDeduplicationId = params'.messageDeduplicationId)
    (hne : first.dispatched.schema ≠ second.dispatched.schema ∨
      first.dispatched.payload.data ≠ second.dispatched.payload.data) : Confused first second := by
  obtain ⟨hprintable, hid⟩ := sendParams_eq_ok_iff.mp ⟨params, hfirst, rfl⟩
  obtain ⟨_, hid'⟩ := sendParams_eq_ok_iff.mp ⟨params', hsecond, rfl⟩
  rw [hid, hid'] at hids
  obtain ⟨hhash, hdate⟩ := id_eq_iff.mp hids
  have hpayload : first.dispatched.payload.data = second.dispatched.payload.data :=
    json.stringify_inj first.dispatched.payload.proper.keysOnce second.dispatched.payload.proper.keysOnce (hsha hhash)
  have hschema : first.dispatched.schema ≠ second.dispatched.schema :=
    hne.resolve_right fun hdata => hdata hpayload
  exact ⟨hschema, hpayload, hprintable, hdate⟩

/-- Messages that differ get different ids, unless it is the schema alone that differs
and both are dispatched within one second. -/
theorem idsDiffer_iff (producer : AbstractQueueProducer) {sha : String → String} (hsha : Function.Injective sha)
    (first second : Dispatch) :
    (first.dispatched.schema ≠ second.dispatched.schema ∨
        first.dispatched.payload.data ≠ second.dispatched.payload.data →
      IdsDiffer producer (fun text => some (sha text)) first second) ↔ ¬ Confused first second := by
  constructor
  · intro hdiffer hconfused
    exact not_idsDiffer_of_confused hconfused (hdiffer (Or.inl hconfused.schema))
  · intro hnot hne params params' hfirst hsecond hids
    exact hnot (confused_of_ids_eq hsha hfirst hsecond hids hne)

def greeted (schema : infra.QueueSchemasEnum) : Dispatch where
  reading := someReading
  dispatched := ⟨greeting, schema, none, none⟩

theorem hash_injective : Function.Injective hash := by
  have hhead : ∀ text : String, "6df79ecd00994391867d0dfc8d263069e1980dca977fb6bdecfb2b8e635eb3d9" ≠ "-" ++ text := by
    intro text h
    have hlist := congrArg String.toList h
    simp at hlist
  intro first second h
  unfold hash at h
  split at h <;> split at h
  · simp [*]
  · exact absurd h (hhead second)
  · exact absurd h.symm (hhead first)
  · have hlist := congrArg String.toList h
    rw [String.toList_append, String.toList_append] at hlist
    exact String.toList_inj.mp (List.append_cancel_left hlist)

theorem idsDiffer_greeted :
    ((greeted .broadcast).dispatched.schema ≠ (greeted .newConnection).dispatched.schema ∨
        (greeted .broadcast).dispatched.payload.data ≠ (greeted .newConnection).dispatched.payload.data →
      IdsDiffer eventsQueueProducer (fun text => some (hash text)) (greeted .broadcast) (greeted .newConnection)) ↔
      ¬ Confused (greeted .broadcast) (greeted .newConnection) :=
  idsDiffer_iff eventsQueueProducer hash_injective (greeted .broadcast) (greeted .newConnection)

/-- A greeting of new connections is taken for a copy of the one for all. -/
theorem not_idsDiffer : ¬ ∀ (producer : AbstractQueueProducer) (sha : String → String), Function.Injective sha →
    ∀ first second : Dispatch,
      first.dispatched.schema ≠ second.dispatched.schema ∨
        first.dispatched.payload.data ≠ second.dispatched.payload.data →
      IdsDiffer producer (fun text => some (sha text)) first second := by
  intro h
  have hschema : (greeted .broadcast).dispatched.schema ≠ (greeted .newConnection).dispatched.schema := by
    simp [greeted]
  exact not_idsDiffer_of_confused ⟨hschema, rfl, rfl, rfl⟩
    (h eventsQueueProducer hash hash_injective (greeted .broadcast) (greeted .newConnection) (Or.inl hschema))

end node_backend.abstract_queue_producer

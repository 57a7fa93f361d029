import NodeBackend.Buffer.Encoding
import NodeBackend.Core.Exceptions

namespace node_backend.data_parser_helper

open js buffer
open node_backend.exceptions

/-- A stream, by the chunks that it delivers and the error that it may end with. -/
structure ByteStream where
  chunks : List Bytes
  failure : Option Failure := none

/-- What toBuffer is given. -/
inductive BufferSource
  | buffer (bytes : Bytes)
  | text (data : Units)
  | uint8Array (bytes : Bytes)
  | readable (stream : ByteStream)
  | blob (bytes : Bytes)
  | readableStream (stream : ByteStream)
  | other

def unsupportedBodyType : Failure :=
  .plain { name := some "Error", message := "Unsupported body type" }

def offsetOutOfBounds : Failure :=
  .plain { name := some "RangeError", message := "offset is out of bounds" }

/-- Buffer.concat. -/
def concat (chunks : List Bytes) : Bytes :=
  chunks.flatten

/-- DataParserHelper.readableToBuffer. -/
def readableToBuffer (data : ByteStream) : Except Failure Bytes :=
  match data.failure with
  | some failure => .error failure
  | none => .ok (concat data.chunks)

/-- The chunks that were read, and their length. -/
structure Collected where
  chunks : List Bytes
  totalLength : Nat

def Collected.empty : Collected := ⟨[], 0⟩

/-- The loop that reads until the stream is done. -/
def readChunks : List Bytes → Collected → Collected
  | [], collected => collected
  | value :: rest, collected =>
    readChunks rest ⟨collected.chunks ++ [value], collected.totalLength + value.length⟩

/-- The buffer that chunks are copied to, and the place of the next one. -/
structure Copying where
  combined : Bytes
  offset : Nat

def Copying.start (totalLength : Nat) : Copying := ⟨zeros totalLength, 0⟩

/-- Uint8Array.prototype.set, which throws for a chunk that goes past the end. -/
def set (target chunk : Bytes) (offset : Nat) : Except Failure Bytes :=
  if Fits target chunk offset then .ok (overwrite target chunk offset) else .error offsetOutOfBounds

/-- The loop that copies the chunks. -/
def copyChunks : List Bytes → Copying → Except Failure Copying
  | [], copying => .ok copying
  | chunk :: rest, copying => do
    let combined ← set copying.combined chunk copying.offset
    copyChunks rest ⟨combined, copying.offset + chunk.length⟩

/-- DataParserHelper.readableStreamToBuffer. -/
def readableStreamToBuffer (data : ByteStream) : Except Failure Bytes := do
  let collected := readChunks data.chunks Collected.empty
  match data.failure with
  | some failure => .error failure
  | none =>
    let copied ← copyChunks collected.chunks (Copying.start collected.totalLength)
    return copied.combined

/-- DataParserHelper.toBuffer. -/
def toBuffer (data : BufferSource) (encoding : BufferEncoding) : Except Failure Bytes :=
  match data with
  | .buffer bytes => .ok bytes
  | .text data => .ok (encoding.write data)
  | .uint8Array bytes => .ok bytes
  | .readable stream => readableToBuffer stream
  | .blob bytes => .ok bytes
  | .readableStream stream => readableStreamToBuffer stream
  | .other => .error unsupportedBodyType

/-- The reading loop keeps every chunk, and adds up their lengths. -/
theorem readChunks_eq (chunks : List Bytes) (collected : Collected) : readChunks chunks collected =
    ⟨collected.chunks ++ chunks, collected.totalLength + chunks.flatten.length⟩ := by
  induction chunks generalizing collected with
  | nil => simp [readChunks]
  | cons value rest ih =>
    rw [readChunks, ih]
    simp only [List.append_assoc, List.singleton_append, List.flatten_cons, List.length_append, Nat.add_assoc]

/-- What the copying loop keeps: the chunks so far stand at the front of the buffer, the
offset is behind them, and there is room for what is left. -/
structure Copied (done : List Bytes) (room : Nat) (copying : Copying) : Prop where
  combined : copying.combined = done.flatten ++ zeros room
  offset : copying.offset = done.flatten.length

theorem Copied.start (totalLength : Nat) : Copied [] totalLength (Copying.start totalLength) :=
  ⟨rfl, rfl⟩

theorem Copied.fits {done : List Bytes} {room : Nat} {copying : Copying} (h : Copied done room copying) {chunk : Bytes}
    (hroom : chunk.length ≤ room) : Fits copying.combined chunk copying.offset := by
  rw [h.combined, h.offset]
  exact fits_append_zeros hroom done.flatten

/-- A step of the loop. -/
theorem Copied.step {done : List Bytes} {room : Nat} {copying : Copying} (h : Copied done room copying)
    {chunk : Bytes} (hroom : chunk.length ≤ room) :
    ∃ combined, set copying.combined chunk copying.offset = .ok combined ∧
      Copied (done ++ [chunk]) (room - chunk.length) ⟨combined, copying.offset + chunk.length⟩ := by
  refine ⟨_, if_pos (h.fits hroom), ?_, ?_⟩
  · rw [h.combined, h.offset, overwrite_append_zeros]
    simp
  · rw [h.offset]
    simp

/-- A run of the loop. -/
theorem Copied.run {chunks done : List Bytes} {room : Nat} {copying : Copying} (h : Copied done room copying)
    (hroom : chunks.flatten.length ≤ room) :
    ∃ after, copyChunks chunks copying = .ok after ∧
      Copied (done ++ chunks) (room - chunks.flatten.length) after := by
  induction chunks generalizing done room copying with
  | nil =>
    refine ⟨copying, rfl, ?_⟩
    simpa using h
  | cons chunk rest ih =>
    rw [List.flatten_cons, List.length_append] at hroom
    obtain ⟨combined, hset, hstep⟩ := h.step (show chunk.length ≤ room by omega)
    obtain ⟨after, hcopy, hafter⟩ := ih hstep (by omega)
    refine ⟨after, ?_, ?_⟩
    · simp only [copyChunks, hset, bind, Except.bind, hcopy]
    · rw [List.append_assoc, List.singleton_append] at hafter
      rwa [List.flatten_cons, List.length_append, ← Nat.sub_sub]

theorem readableStreamToBuffer_eq (chunks : List Bytes) :
    readableStreamToBuffer { chunks := chunks } = .ok chunks.flatten := by
  obtain ⟨after, hcopy, hafter⟩ := (Copied.start chunks.flatten.length).run (le_refl chunks.flatten.length)
  have hcombined : after.combined = chunks.flatten := by
    rw [hafter.combined, Nat.sub_self, zeros_zero, List.append_nil, List.nil_append]
  unfold readableStreamToBuffer
  simp only [readChunks_eq, Collected.empty, List.nil_append, Nat.zero_add, hcopy, bind, Except.bind, pure, Except.pure,
    hcombined]

/-- Whatever a stream breaks its bytes into, they are put together again as a Uint8Array
or a Blob would hold them, and each chunk fits where it is copied to. -/
theorem toBuffer_chunks (chunks : List Bytes) (encoding : BufferEncoding) :
    toBuffer (.readableStream { chunks := chunks }) encoding = .ok chunks.flatten ∧
    toBuffer (.readable { chunks := chunks }) encoding = .ok chunks.flatten ∧
    toBuffer (.uint8Array chunks.flatten) encoding = .ok chunks.flatten ∧
    toBuffer (.blob chunks.flatten) encoding = .ok chunks.flatten ∧
    ∀ before chunk after, (readChunks chunks Collected.empty).chunks = before ++ chunk :: after →
      ∃ copying, copyChunks before (Copying.start (readChunks chunks Collected.empty).totalLength) = .ok copying ∧
        copying.combined.length = chunks.flatten.length ∧ Fits copying.combined chunk copying.offset := by
  refine ⟨readableStreamToBuffer_eq chunks, rfl, rfl, rfl, ?_⟩
  intro before chunk after hsplit
  rw [readChunks_eq] at hsplit ⊢
  simp only [Collected.empty, List.nil_append, Nat.zero_add] at hsplit ⊢
  have hlength : chunks.flatten.length = before.flatten.length + (chunk.length + after.flatten.length) := by
    rw [hsplit, List.flatten_append, List.flatten_cons, List.length_append, List.length_append]
  obtain ⟨copying, hcopy, hcopied⟩ := (Copied.start chunks.flatten.length).run
    (show before.flatten.length ≤ chunks.flatten.length by omega)
  refine ⟨copying, hcopy, ?_, hcopied.fits (by omega)⟩
  rw [hcopied.combined, List.nil_append, List.length_append, length_zeros]
  omega

end node_backend.data_parser_helper

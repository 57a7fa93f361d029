import NodeBackend.File.FilePaths
import NodeBackend.Program.Atomic
import NodeBackend.Program.History

namespace node_backend.file_strategy

open js buffer

def textContents : List Units :=
  ["text/plain", "text/csv", "text/xml", "application/json"].map units

def binariesContents : List Units :=
  ["application/pdf", "application/zip", "image/gif", "image/jpeg", "image/png", "image/svg+xml", "audio/mpeg",
    "audio/x-wav", "video/mpeg", "video/mp4", "video/webm"].map units

def binariesExtensions : List Units :=
  ["gif", "jpeg", "jpg", "png", "svg", "mp3", "mp4", "wav", "mov", "wmv"].map units

/-- FileStrategy.defineEncoding. An empty content type is as good as none. -/
def defineEncoding (fileName : Units) (contentType : Option Units) : BufferEncoding :=
  let given := contentType.getD []
  if textContents.contains given then .utf8
  else if binariesContents.contains given then .latin1
  else if binariesExtensions.any fun extension => decide (extension <:+: fileName) then .latin1
  else .utf8

end node_backend.file_strategy

namespace node_backend.upload_service

open js buffer program
open node_backend.exceptions node_backend.s3_client node_backend.data_parser_helper

/-- UploadService.getFile. A buffer that was downloaded is an object, so that the check for
a missing content never throws. -/
def getFile (filePath : Units) : Promise Bytes :=
  if filePath.length ≤ 0 then Program.throw (.http (buildException .contract { message := "Invalid filePath" }))
  else do
    let fileEncoding := file_strategy.defineEncoding filePath none
    let file ← s3_client.downloadFile filePath
    Program.ofExcept (toBuffer (.buffer file.content) fileEncoding)

end node_backend.upload_service

namespace node_backend.file_service

open js buffer program
open node_backend.exceptions node_backend.s3_client node_backend.data_parser_helper
open node_backend.upload_service (uploadPath)

/-- A file that is sent, with the headers that go with it. -/
structure FileContent where
  fileName : Units
  contentType : Units
  content : Bytes
  length : Nat

/-- FileService.downloadFile. -/
def downloadFile (isTestEnv : Bool) (fileNameHeader filePathHeader : Option Units) (acceptHeader : Units) :
    Promise FileContent :=
  let contentType :=
    if [units "application/octet-stream", units "text/plain"].contains acceptHeader then acceptHeader
    else units "application/octet-stream"
  Program.tryCatch (do
    let fileName := fileNameHeader.getD (units "file")
    let filePath := filePathHeader.getD []
    if isTestEnv then
      let testBuffer := BufferEncoding.ascii.write (units "TEST CONTENT")
      return ⟨fileName, contentType, testBuffer, testBuffer.length⟩
    else
      let fileBuffer ← upload_service.getFile filePath
      return ⟨fileName, contentType, fileBuffer, fileBuffer.length⟩)
    fun error => Program.throw (internalError error.asError.message)

/-- A call of FileService.downloadFile. -/
structure Download where
  isTestEnv : Bool
  fileNameHeader : Option Units
  filePathHeader : Option Units
  acceptHeader : Units := []

/-- The path that is asked for. -/
def Download.filePath (download : Download) : Units :=
  download.filePathHeader.getD []

inductive Request
  | upload (upload : Upload)
  | download (download : Download)

inductive Answer
  | uploaded (file : UploadedFile)
  | downloaded (file : FileContent)

def Request.program : Request → Promise Answer
  | .upload u => .uploaded <$> uploadFile u.isTestEnv u.file u.fileNameHeader u.acceptHeader
  | .download d => .downloaded <$> downloadFile d.isTestEnv d.fileNameHeader d.filePathHeader d.acceptHeader

/-- How a command fails: before it took effect, or after. -/
inductive Fault
  | refused (failure : Failure)
  | unanswered (failure : Failure)

/-- A bucket, by the commands that fail, its tags, and the chunks that a body comes in. -/
structure Bucket where
  fault : Nat → Option Fault
  etag : Bytes → Units
  etag_ne : ∀ body, etag body ≠ []
  chunks : Bytes → List Bytes
  flatten_chunks : ∀ body, (chunks body).flatten = body
  noSuchKey : Failure

/-- The objects of a bucket, by their keys. -/
abbrev Objects : Type :=
  Units → Option Bytes

def Fault.failure : Fault → Failure
  | refused failure => failure
  | unanswered failure => failure

def Fault.takesEffect : Fault → Bool
  | refused _ => false
  | unanswered _ => true

variable (bucket : Bucket)

/-- The nth command changes the bucket. -/
def Bucket.TakesEffect (n : Nat) : Prop :=
  (bucket.fault n).all Fault.takesEffect = true

instance (n : Nat) : Decidable (bucket.TakesEffect n) :=
  inferInstanceAs (Decidable (_ = true))

/-- What the nth command is replied, where it finds such objects. -/
def Bucket.reply (n : Nat) (objects : Objects) : (call : Call) → Except Failure call.Reply
  | .putObject _ body =>
    match bucket.fault n with
    | some fault => .error fault.failure
    | none => .ok (some (bucket.etag body))
  | .getObject key =>
    match bucket.fault n with
    | some fault => .error fault.failure
    | none =>
      match objects key with
      | some body => .ok ⟨some (.readable { chunks := bucket.chunks body }), some body.length⟩
      | none => .error bucket.noSuchKey

/-- What the nth command makes of the objects. -/
def Bucket.put (n : Nat) (objects : Objects) : Call → Objects
  | .putObject key body => if bucket.TakesEffect n then Function.update objects key (some body) else objects
  | .getObject _ => objects

def Bucket.exec (n : Nat) : Exec Call Call.Reply Failure Objects := fun call objects =>
  (bucket.reply n objects call, bucket.put n objects call)

/-- Requests that were started together, after some turns. -/
def together (requests : List Request) (objects : Objects) (turns : List Nat) :
    Pool Call Call.Reply Failure Answer (Nat × Objects) :=
  Pool.afterTurns bucket.exec (requests.map Request.program) objects turns

/-- What a command writes under a key, by the commands before it. -/
def written (key : Units) (before : List (Nat × Call)) (entry : Nat × Call) : Option Bytes :=
  match entry.2 with
  | .putObject other body => if other = key ∧ bucket.TakesEffect before.length then some body else none
  | .getObject _ => none

/-- The last body that was written under a key, or what was there before. -/
def stored (objects : Objects) (key : Units) (history : List (Nat × Call)) : Option Bytes :=
  (yields (written bucket key) history).getLast?.or (objects key)

variable {bucket}

theorem stored_snoc (objects : Objects) (key : Units) (history : List (Nat × Call)) (entry : Nat × Call) :
    stored bucket objects key (history ++ [entry]) =
      (written bucket key history entry).or (stored bucket objects key history) := by
  rw [stored, yields_snoc, stored]
  cases written bucket key history entry <;> simp

/-- The bucket holds under every key what was written to it last. -/
theorem replayed_eq_stored (objects : Objects) (history : List (Nat × Call)) (key : Units) :
    (replayed bucket.exec objects history).2 key = stored bucket objects key history := by
  induction history using List.reverseRecOn with
  | nil => rfl
  | append_singleton history entry ih =>
    have hput : (replayed bucket.exec objects (history ++ [entry])).2 =
        bucket.put history.length (replayed bucket.exec objects history).2 entry.2 := by
      rw [replayed_snoc, ← replayed_fst bucket.exec objects history]
      rfl
    rw [stored_snoc, ← ih, hput]
    obtain ⟨thread, call⟩ := entry
    cases call with
    | getObject other => rfl
    | putObject other body =>
      by_cases heffect : bucket.TakesEffect history.length
      · by_cases hkey : other = key
        · simp [Bucket.put, written, heffect, hkey]
        · have hne : key ≠ other := fun heq => hkey heq.symm
          simp [Bucket.put, written, heffect, hkey, Function.update_of_ne hne]
      · simp [Bucket.put, written, heffect]

/-- What an upload takes a reply to its command for. -/
def tagOf : Except Failure (Option Units) → Except Failure Units
  | .ok (some (unit :: rest)) => .ok (unit :: rest)
  | .ok _ => .error (caughtError (internalError "File not uploaded"))
  | .error failure => .error (caughtError failure)

theorem uploadFile_eq (key : Units) (body : Bytes) : s3_client.uploadFile key body =
    .await (.putObject key body) fun reply => Program.ofExcept (tagOf reply) := by
  unfold s3_client.uploadFile
  rw [send, Program.perform_bind, Program.tryCatch]
  congr 1
  funext reply
  obtain failure | _ | _ | ⟨unit, rest⟩ := reply <;> rfl

/-- What a download takes a reply to its command for. -/
def contentOf : Except Failure GetObjectOutput → Except Failure DownloadedFile
  | .ok ⟨some body, some (length + 1)⟩ =>
    match toBuffer body .utf8 with
    | .ok content => .ok ⟨content, length + 1⟩
    | .error failure => .error (caughtError failure)
  | .ok _ => .error (caughtError (internalError "Empty body"))
  | .error failure => .error (caughtError failure)

theorem downloadFile_eq (key : Units) : s3_client.downloadFile key =
    .await (.getObject key) fun reply => Program.ofExcept (contentOf reply) := by
  unfold s3_client.downloadFile
  rw [send, Program.perform_bind, Program.tryCatch]
  congr 1
  funext reply
  obtain failure | ⟨_ | body, _ | _ | length⟩ := reply
  case ok.some.some.succ =>
    simp only [Program.ofExcept_ok, Program.done_bind, contentOf]
    cases toBuffer body .utf8 <;> rfl
  all_goals rfl

/-- The key that a file is uploaded under. -/
def Upload.key (u : Upload) : Units :=
  uploadPath (fileUploadName u.file u.fileNameHeader)

/-- The file that is returned for some content. -/
def Download.fileContent (d : Download) (content : Bytes) : FileContent where
  fileName := d.fileNameHeader.getD (units "file")
  contentType :=
    if [units "application/octet-stream", units "text/plain"].contains d.acceptHeader then d.acceptHeader
    else units "application/octet-stream"
  content := content
  length := content.length

/-- What a request returns for an outcome of its service. -/
def answerOf {A : Type} (answer : A → Answer) : Except Failure A → Except Failure Answer
  | .ok a => .ok (answer a)
  | .error failure => .error (internalError failure.asError.message)

theorem upload_put {u : Upload} {body : Bytes} (htest : u.isTestEnv = false) (hbody : u.file.toBuffer = .ok body)
    (hne : body ≠ []) : ∃ contentType, (Request.upload u).program = .await (.putObject u.key body) fun reply =>
      Program.ofExcept (answerOf (fun tag => .uploaded ⟨u.key, contentType, some tag⟩) (tagOf reply)) := by
  refine ⟨if u.file.mimetype.getD u.acceptHeader ∈ acceptableContentTypes then u.file.mimetype.getD u.acceptHeader
    else units "text/plain", ?_⟩
  unfold Request.program file_service.uploadFile upload_service.uploadFile
  simp only [htest, hbody, uploadFile_eq, Program.ofExcept_ok, Program.done_bind, ne_eq, List.length_eq_zero_iff, hne,
    not_false_eq_true, if_true, Bool.false_eq_true, if_false, Program.await_bind, Program.map_eq, Program.tryCatch]
  congr 1
  funext reply
  cases tagOf reply <;> rfl

theorem upload_nothing {u : Upload} (h : u.isTestEnv = true ∨ ∀ body, u.file.toBuffer = .ok body → body = []) :
    (∃ failure, (Request.upload u).program = .throw failure) ∨
      ∃ file, (Request.upload u).program = .done (.uploaded file) ∧ (u.isTestEnv = false → file.uploadTag = none) := by
  obtain ⟨isTestEnv, ⟨filename, mimetype, toBuffer⟩, fileNameHeader, acceptHeader⟩ := u
  cases isTestEnv with
  | true => exact Or.inr ⟨_, rfl, fun h => by cases h⟩
  | false =>
    cases toBuffer with
    | error failure => exact Or.inl ⟨_, rfl⟩
    | ok body =>
      obtain hother | hnil := h
      · cases hother
      · cases hnil body rfl
        exact Or.inr ⟨_, rfl, fun _ => rfl⟩

theorem download_get {d : Download} (htest : d.isTestEnv = false) (hpath : d.filePath ≠ []) :
    (Request.download d).program = .await (.getObject d.filePath) fun reply =>
      Program.ofExcept (answerOf (fun file => .downloaded (d.fileContent file.content)) (contentOf reply)) := by
  have hlength : ¬ d.filePath.length ≤ 0 := by
    rw [Nat.le_zero, List.length_eq_zero_iff]
    exact hpath
  rw [Download.filePath] at hlength ⊢
  unfold Request.program file_service.downloadFile upload_service.getFile
  simp only [htest, hlength, downloadFile_eq, Bool.false_eq_true, if_false, Program.await_bind, Program.map_eq,
    Program.tryCatch]
  congr 1
  funext reply
  cases contentOf reply <;> rfl

theorem download_nothing {d : Download} (h : d.isTestEnv = true ∨ d.filePath = []) :
    (∃ failure, (Request.download d).program = .throw failure) ∨
      ∃ file, (Request.download d).program = .done (.downloaded file) ∧ d.isTestEnv = true := by
  obtain ⟨isTestEnv, fileNameHeader, filePathHeader, acceptHeader⟩ := d
  cases isTestEnv with
  | true => exact Or.inr ⟨_, rfl, rfl⟩
  | false =>
    obtain hother | hpath := h
    · cases hother
    · rw [Download.filePath] at hpath
      unfold Request.program file_service.downloadFile
      simp only [hpath]
      exact Or.inl ⟨_, rfl⟩

variable (bucket)

/-- A download ended with what was stored at its command, or with an error. -/
def Download.Served (d : Download) (objects : Objects) (history : List (Nat × Call)) (i : Nat) (q : Promise Answer) :
    Prop :=
  ∃ before after, history = before ++ (i, .getObject d.filePath) :: after ∧
    match bucket.fault before.length, stored bucket objects d.filePath before with
    | none, some (byte :: rest) => q = .done (.downloaded (d.fileContent (byte :: rest)))
    | _, _ => ∃ failure, q = .throw failure

/-- An upload ended with the tag of its file, or with an error. -/
def Upload.Served (u : Upload) (body : Bytes) (history : List (Nat × Call)) (i : Nat) (q : Promise Answer) : Prop :=
  ∃ before after, history = before ++ (i, .putObject u.key body) :: after ∧
    match bucket.fault before.length with
    | none => ∃ contentType, q = .done (.uploaded ⟨u.key, contentType, some (bucket.etag body)⟩)
    | some _ => ∃ failure, q = .throw failure

variable {bucket}

theorem ended_ofExcept {A : Type} (outcome : Except Failure A) : (Program.ofExcept outcome : Promise A).Ended := by
  cases outcome <;> trivial

theorem atomic_program (request : Request) : request.program.Atomic := by
  cases request with
  | upload u =>
    by_cases h : u.isTestEnv = true ∨ ∀ body, u.file.toBuffer = .ok body → body = []
    · obtain ⟨failure, hprogram⟩ | ⟨file, hprogram, _⟩ := upload_nothing h <;> rw [hprogram] <;> trivial
    · simp only [not_or, not_forall, Bool.not_eq_true] at h
      obtain ⟨htest, body, hbody, hne⟩ := h
      obtain ⟨contentType, hprogram⟩ := upload_put htest hbody hne
      rw [hprogram]
      exact fun reply => ended_ofExcept _
  | download d =>
    by_cases h : d.isTestEnv = true ∨ d.filePath = []
    · obtain ⟨failure, hprogram⟩ | ⟨file, hprogram, _⟩ := download_nothing h <;> rw [hprogram] <;> trivial
    · simp only [not_or, Bool.not_eq_true] at h
      rw [download_get h.1 h.2]
      exact fun reply => ended_ofExcept _

theorem together_replays (bucket : Bucket) (requests : List Request) (objects : Objects) (turns : List Nat) :
    Pool.Replays bucket.exec (requests.map Request.program) objects (together bucket requests objects turns) := by
  refine Pool.afterTurns_replays (fun p hp => ?_) turns
  obtain ⟨request, _, rfl⟩ := List.mem_map.mp hp
  exact atomic_program request

/-- Where a request stands that was to make a call. -/
theorem together_made {requests : List Request} {objects : Objects} {turns : List Nat} {i : Nat} {request : Request}
    {q : Promise Answer} {call : Call} {next : Except Failure call.Reply → Promise Answer}
    (hrequest : requests[i]? = some request) (hprogram : request.program = .await call next)
    (hq : (together bucket requests objects turns).threads[i]? = some q) (hended : q.Ended) :
    ∃ before after, (together bucket requests objects turns).history = before ++ (i, call) :: after ∧
      q = next (bucket.reply before.length (replayed bucket.exec objects before).2 call) := by
  have hreplays := together_replays bucket requests objects turns
  have hthread : (requests.map Request.program)[i]? = some (.await call next) := by
    rw [List.getElem?_map, hrequest, Option.map_some, hprogram]
  obtain hsame | hmade := hreplays.made i _ q hthread hq
  · rw [hsame] at hended
    exact hended.elim
  · exact hmade.of_await

theorem answered_download (bucket : Bucket) (d : Download) (n : Nat) (objects : Objects) :
    match bucket.fault n, objects d.filePath with
    | none, some (byte :: rest) =>
      answerOf (fun file => .downloaded (d.fileContent file.content))
        (contentOf (bucket.reply n objects (.getObject d.filePath))) = .ok (.downloaded (d.fileContent (byte :: rest)))
    | _, _ => ∃ failure, answerOf (fun file => .downloaded (d.fileContent file.content))
        (contentOf (bucket.reply n objects (.getObject d.filePath))) = .error failure := by
  unfold Bucket.reply
  dsimp only
  cases bucket.fault n with
  | some fault => exact ⟨_, rfl⟩
  | none =>
    dsimp only
    cases objects d.filePath with
    | none => exact ⟨_, rfl⟩
    | some body =>
      cases body with
      | nil => exact ⟨_, rfl⟩
      | cons byte rest =>
        simp only [List.length_cons, contentOf, toBuffer, readableToBuffer, concat, bucket.flatten_chunks, answerOf]

theorem answered_upload (bucket : Bucket) (u : Upload) (contentType : Units) (body : Bytes) (n : Nat)
    (objects : Objects) :
    match bucket.fault n with
    | none =>
      answerOf (fun tag => .uploaded ⟨u.key, contentType, some tag⟩)
        (tagOf (bucket.reply n objects (.putObject u.key body))) =
          .ok (.uploaded ⟨u.key, contentType, some (bucket.etag body)⟩)
    | some _ => ∃ failure, answerOf (fun tag => .uploaded ⟨u.key, contentType, some tag⟩)
        (tagOf (bucket.reply n objects (.putObject u.key body))) = .error failure := by
  unfold Bucket.reply
  dsimp only
  cases bucket.fault n with
  | some fault => exact ⟨_, rfl⟩
  | none =>
    have htag := bucket.etag_ne body
    dsimp only
    cases hetag : bucket.etag body with
    | nil => exact absurd hetag htag
    | cons unit rest => rfl

theorem download_served {requests : List Request} {objects : Objects} {turns : List Nat} {i : Nat} {d : Download}
    {q : Promise Answer} (hrequest : requests[i]? = some (.download d)) (htest : d.isTestEnv = false)
    (hpath : d.filePath ≠ []) (hq : (together bucket requests objects turns).threads[i]? = some q)
    (hended : q.Ended) : d.Served bucket objects (together bucket requests objects turns).history i q := by
  obtain ⟨before, after, hhistory, rfl⟩ := together_made hrequest (download_get htest hpath) hq hended
  refine ⟨before, after, hhistory, ?_⟩
  have hanswered := answered_download bucket d before.length (replayed bucket.exec objects before).2
  rw [replayed_eq_stored] at hanswered
  split
  · rename_i byte rest hfault hstored
    simp only [hfault, hstored] at hanswered
    rw [hanswered]
    rfl
  · rename_i hother
    split at hanswered
    · rename_i hfault hstored
      exact (hother _ _ hfault hstored).elim
    · obtain ⟨failure, hfailure⟩ := hanswered
      rw [hfailure]
      exact ⟨failure, rfl⟩

theorem upload_served {requests : List Request} {objects : Objects} {turns : List Nat} {i : Nat} {u : Upload}
    {body : Bytes} {q : Promise Answer} (hrequest : requests[i]? = some (.upload u)) (htest : u.isTestEnv = false)
    (hbody : u.file.toBuffer = .ok body) (hne : body ≠ [])
    (hq : (together bucket requests objects turns).threads[i]? = some q) (hended : q.Ended) :
    u.Served bucket body (together bucket requests objects turns).history i q := by
  obtain ⟨contentType, hprogram⟩ := upload_put htest hbody hne
  obtain ⟨before, after, hhistory, rfl⟩ := together_made hrequest hprogram hq hended
  refine ⟨before, after, hhistory, ?_⟩
  have hanswered := answered_upload bucket u contentType body before.length (replayed bucket.exec objects before).2
  cases hfault : bucket.fault before.length with
  | none =>
    simp only [hfault] at hanswered ⊢
    rw [hanswered]
    exact ⟨contentType, rfl⟩
  | some fault =>
    simp only [hfault] at hanswered ⊢
    obtain ⟨failure, hfailure⟩ := hanswered
    rw [hfailure]
    exact ⟨failure, rfl⟩

/-- Every object that is put is the file of an upload. -/
theorem put_uploaded {requests : List Request} {objects : Objects} {turns : List Nat} {i : Nat} {key : Units}
    {body : Bytes} (hentry : (i, .putObject key body) ∈ (together bucket requests objects turns).history) :
    ∃ u, requests[i]? = some (.upload u) ∧ u.isTestEnv = false ∧ u.file.toBuffer = .ok body ∧ body ≠ [] ∧
      key = u.key := by
  obtain ⟨next, hthread⟩ := (together_replays bucket requests objects turns).own _ hentry
  rw [List.getElem?_map, Option.map_eq_some_iff] at hthread
  obtain ⟨request, hrequest, hprogram⟩ := hthread
  cases request with
  | upload u =>
    by_cases h : u.isTestEnv = true ∨ ∀ body, u.file.toBuffer = .ok body → body = []
    · obtain ⟨failure, hended⟩ | ⟨file, hended, _⟩ := upload_nothing h <;> rw [hended] at hprogram <;> cases hprogram
    · simp only [not_or, not_forall, Bool.not_eq_true] at h
      obtain ⟨htest, body', hbody, hne⟩ := h
      obtain ⟨contentType, hput⟩ := upload_put htest hbody hne
      rw [hput] at hprogram
      cases hprogram
      exact ⟨u, hrequest, htest, hbody, hne, rfl⟩
  | download d =>
    by_cases h : d.isTestEnv = true ∨ d.filePath = []
    · obtain ⟨failure, hended⟩ | ⟨file, hended, _⟩ := download_nothing h <;> rw [hended] at hprogram <;> cases hprogram
    · simp only [not_or, Bool.not_eq_true] at h
      rw [download_get h.1 h.2] at hprogram
      cases hprogram

/-- Uploads and downloads that are served together are served one after another, in the
order of their commands: a download returns what the last upload to its path wrote that
took effect before it, and fails where there is nothing or its command does. Whatever is
written is the file of an upload. -/
theorem served_in_order (bucket : Bucket) (requests : List Request) (objects : Objects) (turns : List Nat) :
    (∀ (i : Nat) (d : Download) (q : Promise Answer), requests[i]? = some (.download d) → d.isTestEnv = false →
      d.filePath ≠ [] → (together bucket requests objects turns).threads[i]? = some q → q.Ended →
        d.Served bucket objects (together bucket requests objects turns).history i q) ∧
    (∀ (i : Nat) (u : Upload) (body : Bytes) (q : Promise Answer), requests[i]? = some (.upload u) →
      u.isTestEnv = false → u.file.toBuffer = .ok body → body ≠ [] →
      (together bucket requests objects turns).threads[i]? = some q → q.Ended →
        u.Served bucket body (together bucket requests objects turns).history i q) ∧
    ∀ (i : Nat) (key : Units) (body : Bytes),
      (i, .putObject key body) ∈ (together bucket requests objects turns).history →
      ∃ u : Upload, requests[i]? = some (.upload u) ∧ u.isTestEnv = false ∧ u.file.toBuffer = .ok body ∧ body ≠ [] ∧
        key = u.key := by
  refine ⟨?_, ?_, ?_⟩
  · intro i d q hrequest htest hpath hq hended
    exact download_served hrequest htest hpath hq hended
  · intro i u body q hrequest htest hbody hne hq hended
    exact upload_served hrequest htest hbody hne hq hended
  · intro i key body hentry
    exact put_uploaded hentry

theorem flatten_singleton (body : Bytes) : [body].flatten = body := by
  simp

/-- A bucket that answers every command. -/
def reliableBucket : Bucket where
  fault := fun _ => none
  etag := fun _ => [49]
  etag_ne := fun _ => List.cons_ne_nil 49 []
  chunks := fun body => [body]
  flatten_chunks := flatten_singleton
  noSuchKey := .plain { name := some "NoSuchKey", message := "The specified key does not exist." }

/-- An upload, and a download of its file. -/
def uploadAndDownload : List Request :=
  [.upload (textUpload "a.txt"), .download ⟨false, none, some (units "upload/reports/a.txt"), []⟩]

/-- The download after the upload. -/
theorem served_in_order_after :
    ∃ q, (together reliableBucket uploadAndDownload (fun _ => none) [0, 1]).threads[1]? = some q ∧
      Download.Served reliableBucket ⟨false, none, some (units "upload/reports/a.txt"), []⟩ (fun _ => none)
        (together reliableBucket uploadAndDownload (fun _ => none) [0, 1]).history 1 q := by
  refine ⟨_, rfl, ?_⟩
  refine (served_in_order reliableBucket uploadAndDownload (fun _ => none) [0, 1]).1 1 _ _ rfl rfl ?_ rfl ?_
  · decide
  · trivial

end node_backend.file_service

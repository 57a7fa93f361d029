import NodeBackend.Core.CryptographyService
import NodeBackend.Core.S3Client

namespace node_backend.upload_service

open js buffer program
open node_backend.exceptions node_backend.s3_client

/-- A part of a multipart request. Its bytes are read with `toBuffer`, which may fail. -/
structure RequestFile where
  filename : Units
  mimetype : Option Units
  toBuffer : Except Failure Bytes

def uploadPath (fileName : Units) : Units :=
  units "upload/reports/" ++ fileName

structure StoredFile where
  filePath : Units
  uploadTag : Option Units

/-- UploadService.uploadFile, which puts no empty file. -/
def uploadFile (fileName : Units) (file : RequestFile) : Promise StoredFile := do
  let fileBuffer ← Program.ofExcept file.toBuffer
  let filePath := uploadPath fileName
  if fileBuffer.length ≠ 0 then
    let uploadTag ← s3_client.uploadFile filePath fileBuffer
    return ⟨filePath, some uploadTag⟩
  else return ⟨filePath, none⟩

end node_backend.upload_service

namespace node_backend.file_service

open js buffer program
open node_backend.exceptions node_backend.s3_client
open node_backend.upload_service (RequestFile uploadPath)
open node_backend.cryptography_service (changeBufferEncoding)

def acceptableContentTypes : List Units :=
  ["text/plain", "text/csv", "text/xml", "application/pdf", "application/json", "application/zip", "image/gif",
    "image/jpeg", "image/png", "image/svg+xml", "audio/mpeg", "audio/x-wav", "video/mpeg", "video/mp4", "video/webm",
    "multipart/form-data"].map units

def dot : UInt16 := 46

def hyphen : UInt16 := 45

/-- FileService.getFileNameWithExtension: the name and, if it has one, the extension. -/
def getFileNameWithExtension (fullFileName : Units) : List Units :=
  let fileNameParts := (trim fullFileName).splitOn dot
  if fileNameParts.length < 2 then [fullFileName]
  else
    let fileExtension := fileNameParts.getLastD []
    let fileNameWithoutExtension := [hyphen].intercalate fileNameParts.dropLast
    [fileNameWithoutExtension, fileExtension]

/-- A string or undefined within a template. -/
def templateText (text : Option Units) : Units :=
  text.getD (units "undefined")

/-- The name that a file is uploaded under. -/
def fileUploadName (file : RequestFile) (fileNameHeader : Units) : Units :=
  let header := getFileNameWithExtension fileNameHeader
  let original := getFileNameWithExtension file.filename
  let fileName := header[0]?.or original[0]?
  let fileExtension := original[1]?.or header[1]?
  changeBufferEncoding (templateText fileName ++ dot :: templateText fileExtension) .utf8 .ascii

structure UploadedFile where
  filePath : Units
  fileContentType : Units
  uploadTag : Option Units

/-- FileService.uploadFile. -/
def uploadFile (isTestEnv : Bool) (file : RequestFile) (fileNameHeader acceptHeader : Units) : Promise UploadedFile :=
  let expectedContentType := file.mimetype.getD acceptHeader
  let fileContentType :=
    if expectedContentType ∈ acceptableContentTypes then expectedContentType else units "text/plain"
  Program.tryCatch (do
    let fileUploadName := fileUploadName file fileNameHeader
    if isTestEnv then return ⟨uploadPath fileUploadName, fileContentType, some []⟩
    else
      let stored ← upload_service.uploadFile fileUploadName file
      return ⟨stored.filePath, fileContentType, stored.uploadTag⟩)
    fun error => Program.throw (internalError error.asError.message)

/-- The commands that were sent, whatever was replied to them. -/
def sentStep : Step Call Call.Reply Failure (List Call) := fun call sent _ sent' => sent' = sent ++ [call]

/-- Every object that was put has the key. -/
def PutsOnly (key : Units) (sent : List Call) : Prop :=
  ∀ other body, .putObject other body ∈ sent → other = key

theorem uploadFile_ensures_put {key : Units} {body : Bytes} {returned : Units → List Call → Prop}
    {thrown : Failure → List Call → Prop} (hreturned : ∀ etag, returned etag [.putObject key body])
    (hthrown : ∀ failure, thrown failure [.putObject key body]) :
    (s3_client.uploadFile key body).Ensures sentStep [] returned thrown := by
  refine Program.Ensures.tryCatch (R := fun _ sent => sent = [.putObject key body]) ?_ ?_
  · refine Program.Ensures.bind (R := fun _ sent => sent = [.putObject key body]) ?_ ?_
    · exact Program.ensures_perform (fun _ _ hstep => hstep) (fun _ _ hstep => hstep)
    · rintro etag sent rfl
      match etag with
      | some (unit :: rest) => exact hreturned (unit :: rest)
      | some [] => rfl
      | none => rfl
  · rintro failure sent rfl
    exact hthrown (caughtError failure)

/-- An upload that ends returns the key of its object, and puts nothing under another. -/
theorem uploadFile_ensures (isTestEnv : Bool) (file : RequestFile) (fileNameHeader acceptHeader : Units) :
    (uploadFile isTestEnv file fileNameHeader acceptHeader).Ensures sentStep []
      (fun uploaded sent => uploaded.filePath = uploadPath (fileUploadName file fileNameHeader) ∧
        PutsOnly uploaded.filePath sent)
      (fun _ sent => PutsOnly (uploadPath (fileUploadName file fileNameHeader)) sent) := by
  have hnone : ∀ key, PutsOnly key [] := by simp [PutsOnly]
  have hone : ∀ key body, PutsOnly key [.putObject key body] := by
    intro key body other more hmem
    cases List.mem_singleton.mp hmem
    rfl
  refine Program.Ensures.tryCatch
    (R := fun _ sent => PutsOnly (uploadPath (fileUploadName file fileNameHeader)) sent) ?_ (fun _ _ h => h)
  cases isTestEnv with
  | true => exact ⟨rfl, hnone _⟩
  | false =>
    refine Program.Ensures.bind
      (R := fun stored sent => stored.filePath = uploadPath (fileUploadName file fileNameHeader) ∧
        PutsOnly stored.filePath sent) ?_ (fun _ _ h => h)
    unfold upload_service.uploadFile
    cases file.toBuffer with
    | error failure => exact hnone _
    | ok fileBuffer =>
      simp only [Program.ofExcept_ok, Program.done_bind]
      split
      · refine Program.Ensures.bind (R := fun _ sent => PutsOnly (uploadPath (fileUploadName file fileNameHeader)) sent)
          (uploadFile_ensures_put (fun _ => hone _ _) (fun _ => hone _ _)) ?_
        intro etag sent hsent
        exact ⟨rfl, hsent⟩
      · exact ⟨rfl, hnone _⟩

end node_backend.file_service

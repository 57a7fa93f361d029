import NodeBackend.Common.ToBuffer
import NodeBackend.Program.Ensures

namespace node_backend.s3_client

open js buffer program
open node_backend.exceptions node_backend.data_parser_helper

/-- A command that is sent to the bucket. -/
inductive Call
  | putObject (key : Units) (body : Bytes)
  | getObject (key : Units)

/-- The body and the length that come with an object. -/
structure GetObjectOutput where
  body : Option BufferSource
  contentLength : Option Nat

abbrev Call.Reply : Call → Type
  | putObject _ _ => Option Units
  | getObject _ => GetObjectOutput

abbrev Promise (A : Type) : Type :=
  Program Call Call.Reply Failure A

def send (call : Call) : Promise call.Reply :=
  Program.perform call

/-- S3, by its replies: any reply to a command after the commands before it. -/
abbrev S3 : Type :=
  (call : Call) → List Call → Except Failure call.Reply

/-- A command is replied to, and written down. -/
def S3.exec (s3 : S3) : Exec Call Call.Reply Failure (List Call) := fun call sent =>
  (s3 call sent, sent ++ [call])

def caughtError (failure : Failure) : Failure :=
  .http (buildException .integration failure.asError)

def internalError (message : String) : Failure :=
  .http (buildException .internal { message := message })

/-- S3Client.uploadFile. -/
def uploadFile (fileName : Units) (fileContent : Bytes) : Promise Units :=
  Program.tryCatch (do
    let etag ← send (.putObject fileName fileContent)
    match etag with
    | some (unit :: rest) => return unit :: rest
    | _ => Program.throw (internalError "File not uploaded"))
    fun error => Program.throw (caughtError error)

structure DownloadedFile where
  content : Bytes
  contentLength : Nat
  deriving DecidableEq

/-- S3Client.downloadFile. -/
def downloadFile (objectKey : Units) : Promise DownloadedFile :=
  Program.tryCatch (do
    let result ← send (.getObject objectKey)
    match result.body, result.contentLength with
    | some body, some (length + 1) => do
      let content ← Program.ofExcept (toBuffer body .utf8)
      return ⟨content, length + 1⟩
    | _, _ => Program.throw (internalError "Empty body"))
    fun error => Program.throw (caughtError error)

end node_backend.s3_client

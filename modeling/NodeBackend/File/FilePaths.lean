import NodeBackend.File.FileService

namespace node_backend.file_service

open js buffer program
open node_backend.exceptions node_backend.s3_client
open node_backend.upload_service (RequestFile uploadPath)
open node_backend.cryptography_service (changeBufferEncoding)

section separators

variable {Item : Type} [DecidableEq Item]

/-- Parts put together with another separator. -/
theorem intercalate_splitOn_other (separator other : Item) (text : List Item) :
    [other].intercalate (text.splitOn separator) = text.map fun item => if item = separator then other else item := by
  induction text with
  | nil => simp
  | cons item rest ih =>
    have hparts := List.splitOn_ne_nil separator rest
    rw [List.splitOn_cons_eq_if_modifyHead, List.map_cons, ← ih]
    generalize rest.splitOn separator = parts at hparts
    obtain ⟨part, parts, rfl⟩ := List.exists_cons_of_ne_nil hparts
    by_cases hitem : item = separator
    · simp [hitem]
    · cases parts <;> simp [hitem]

end separators

/-- What stands behind the last dot. -/
def extension (text : Units) : Units :=
  text.rtakeWhile (· ≠ dot)

/-- What stands before the last dot, or the whole text where there is none. -/
def stem (text : Units) : Units :=
  if dot ∈ text then (text.rdropWhile (· ≠ dot)).dropLast else text

/-- The extension of a file name. -/
def fileExtension (fullFileName : Units) : Option Units :=
  if dot ∈ trim fullFileName then some (extension (trim fullFileName)) else none

/-- The name that is left of a header: its stem with hyphens for dots. A name without an
extension is taken as it is given. -/
def baseName (fullFileName : Units) : Units :=
  if dot ∈ trim fullFileName then
    (stem (trim fullFileName)).map fun unit => if unit = dot then hyphen else unit
  else fullFileName

/-- The lower seven bits of the bytes that UTF-8 has for a character. -/
def sevenBits (c : Char) : Units :=
  let n := c.toNat
  (if n < 128 then [n]
    else if n < 2048 then [64 + n / 64, n % 64]
    else if n < 65536 then [96 + n / 4096, n / 64 % 64, n % 64]
    else [112 + n / 262144, n / 4096 % 64, n / 64 % 64, n % 64]).map UInt16.ofNat

/-- A text that is spelled with seven bits for each byte. -/
def spelled (text : Units) : Units :=
  (characters text).flatMap sevenBits

theorem ascii_utf8EncodeChar (c : Char) :
    (String.utf8EncodeChar c).map (fun byte => UInt16.ofNat (byte.toNat % 128)) = sevenBits c := by
  have hvalid : c.toNat < 55296 ∨ 57343 < c.toNat ∧ c.toNat < 1114112 := c.valid
  have hval : c.val.toNat = c.toNat := rfl
  have low (n m : Nat) (hn : n < 256) (hm : n % 128 = m) : (UInt8.ofNat n).toNat % 128 = m := by
    rw [toNat_ofNat_of_lt hn, hm]
  unfold String.utf8EncodeChar sevenBits
  simp only [hval]
  by_cases hone : c.toNat < 128
  · have hone' : c.toNat ≤ 127 := by omega
    simp only [if_pos hone, if_pos hone', List.map_cons, List.map_nil, low c.toNat c.toNat (by omega) (by omega)]
  have hone' : ¬ c.toNat ≤ 127 := by omega
  by_cases htwo : c.toNat < 2048
  · have htwo' : c.toNat ≤ 2047 := by omega
    simp only [if_neg hone, if_neg hone', if_pos htwo, if_pos htwo', List.map_cons, List.map_nil,
      low (c.toNat / 64 % 32 + 192) (64 + c.toNat / 64) (by omega) (by omega),
      low (c.toNat % 64 + 128) (c.toNat % 64) (by omega) (by omega)]
  have htwo' : ¬ c.toNat ≤ 2047 := by omega
  by_cases hthree : c.toNat < 65536
  · have hthree' : c.toNat ≤ 65535 := by omega
    simp only [if_neg hone, if_neg hone', if_neg htwo, if_neg htwo', if_pos hthree, if_pos hthree', List.map_cons,
      List.map_nil, low (c.toNat / 4096 % 16 + 224) (96 + c.toNat / 4096) (by omega) (by omega),
      low (c.toNat / 64 % 64 + 128) (c.toNat / 64 % 64) (by omega) (by omega),
      low (c.toNat % 64 + 128) (c.toNat % 64) (by omega) (by omega)]
  · have hthree' : ¬ c.toNat ≤ 65535 := by omega
    simp only [if_neg hone, if_neg hone', if_neg htwo, if_neg htwo', if_neg hthree, if_neg hthree', List.map_cons,
      List.map_nil, low (c.toNat / 262144 % 8 + 240) (112 + c.toNat / 262144) (by omega) (by omega),
      low (c.toNat / 4096 % 64 + 128) (c.toNat / 4096 % 64) (by omega) (by omega),
      low (c.toNat / 64 % 64 + 128) (c.toNat / 64 % 64) (by omega) (by omega),
      low (c.toNat % 64 + 128) (c.toNat % 64) (by omega) (by omega)]

/-- Reading UTF-8 as ascii spells a text. -/
theorem changeBufferEncoding_ascii (text : Units) : changeBufferEncoding text .utf8 .ascii = spelled text := by
  simp only [changeBufferEncoding, BufferEncoding.write, BufferEncoding.read, utf8Encode, List.map_flatMap,
    ascii_utf8EncodeChar, spelled]

/-- A dot is spelled as it is, and keeps the texts around it apart. -/
theorem spelled_append_dot (before after : Units) :
    spelled (before ++ dot :: after) = spelled before ++ dot :: spelled after := by
  have hdot : sevenBits (unitChar dot) = [dot] := by decide
  rw [spelled, characters_append_cons (by decide) (by decide), List.flatMap_append, List.flatMap_cons, hdot]
  rfl

theorem stem_append_extension {text : Units} (h : dot ∈ text) : text = stem text ++ dot :: extension text := by
  have hne : text.rdropWhile (· ≠ dot) ≠ [] := by
    intro hnil
    simpa using List.rdropWhile_eq_nil_iff.mp hnil dot h
  have hlast : (text.rdropWhile (· ≠ dot)).getLast hne = dot := by
    simpa using List.rdropWhile_last_not (· ≠ dot) text hne
  have hbefore : (text.rdropWhile (· ≠ dot)).dropLast ++ [dot] = text.rdropWhile (· ≠ dot) := by
    conv_rhs => rw [← List.dropLast_append_getLast hne, hlast]
  rw [stem, if_pos h, extension]
  calc text = text.rdropWhile (· ≠ dot) ++ text.rtakeWhile (· ≠ dot) := List.rdropWhile_append_rtakeWhile.symm
    _ = (text.rdropWhile (· ≠ dot)).dropLast ++ [dot] ++ text.rtakeWhile (· ≠ dot) := by rw [hbefore]
    _ = _ := by rw [List.append_assoc, List.singleton_append]

theorem dot_not_mem_extension (text : Units) : dot ∉ extension text := by
  intro hdot
  simpa using List.mem_rtakeWhile_imp hdot

theorem splitOn_of_mem {text : Units} (h : dot ∈ text) :
    text.splitOn dot = (stem text).splitOn dot ++ [extension text] := by
  conv_lhs => rw [stem_append_extension h]
  rw [List.splitOn_append_cons_self, List.splitOn_eq_singleton (dot_not_mem_extension text)]

theorem getFileNameWithExtension_eq (fullFileName : Units) :
    getFileNameWithExtension fullFileName = baseName fullFileName :: (fileExtension fullFileName).toList := by
  unfold getFileNameWithExtension baseName fileExtension
  by_cases hdot : dot ∈ trim fullFileName
  · have hparts := List.length_pos_of_ne_nil (List.splitOn_ne_nil dot (stem (trim fullFileName)))
    rw [splitOn_of_mem hdot, if_pos hdot, if_pos hdot]
    dsimp only
    rw [if_neg (by rw [List.length_append, List.length_singleton]; omega), List.dropLast_concat,
      intercalate_splitOn_other, List.getLastD_concat]
    rfl
  · rw [List.splitOn_eq_singleton hdot, if_neg hdot, if_neg hdot]
    rfl

theorem fileUploadName_eq (file : RequestFile) (fileNameHeader : Units) :
    fileUploadName file fileNameHeader = spelled (baseName fileNameHeader) ++
      dot :: spelled (templateText ((fileExtension file.filename).or (fileExtension fileNameHeader))) := by
  have hextension : ∀ name, (baseName name :: (fileExtension name).toList)[1]? = fileExtension name := by
    intro name
    cases fileExtension name <;> rfl
  unfold fileUploadName
  simp only [getFileNameWithExtension_eq, hextension, List.getElem?_cons_zero, Option.some_or, templateText,
    Option.getD_some, changeBufferEncoding_ascii, spelled_append_dot]

/-- A call of FileService.uploadFile. -/
structure Upload where
  isTestEnv : Bool
  file : RequestFile
  fileNameHeader : Units
  acceptHeader : Units := []

/-- What an upload returns for some replies of S3. -/
def Upload.Returns (upload : Upload) (uploaded : UploadedFile) : Prop :=
  ∃ s3 : S3, (Program.runFrom (fun _ => s3.exec) 0
    (uploadFile upload.isTestEnv upload.file upload.fileNameHeader upload.acceptHeader) []).1 = .ok uploaded

variable {upload upload' : Upload} {uploaded uploaded' : UploadedFile}

theorem Upload.Returns.filePath (h : upload.Returns uploaded) :
    uploaded.filePath = uploadPath (fileUploadName upload.file upload.fileNameHeader) := by
  obtain ⟨s3, hrun⟩ := h
  have hensures := uploadFile_ensures upload.isTestEnv upload.file upload.fileNameHeader upload.acceptHeader
  have hworld : ∀ (_ : Nat) call sent, sentStep call sent (s3.exec call sent).1 (s3.exec call sent).2 :=
    fun _ _ _ => rfl
  obtain ⟨result, hok, hpath, _⟩ | ⟨failure, herror, _⟩ := hensures.runFrom hworld 0
  · rw [hrun, Except.ok.injEq] at hok
    rw [hok, hpath]
  · rw [hrun] at herror
    cases herror

theorem filePath_eq_iff (h : upload.Returns uploaded) (h' : upload'.Returns uploaded') :
    uploaded.filePath = uploaded'.filePath ↔
      fileUploadName upload.file upload.fileNameHeader = fileUploadName upload'.file upload'.fileNameHeader := by
  rw [h.filePath, h'.filePath, uploadPath, uploadPath, List.append_cancel_left_eq]

/-- Two files with the same original extension are uploaded under different paths
exactly if their header names are spelled differently: without the last extension and
with hyphens for dots, and together with the extension that the headers give where the
files have none. -/
theorem filePath_ne_iff (h : upload.Returns uploaded) (h' : upload'.Returns uploaded')
    (hextension : fileExtension upload.file.filename = fileExtension upload'.file.filename) :
    ((fileExtension upload.file.filename).isSome = true → (uploaded.filePath ≠ uploaded'.filePath ↔
      spelled (baseName upload.fileNameHeader) ≠ spelled (baseName upload'.fileNameHeader))) ∧
    (fileExtension upload.file.filename = none → (uploaded.filePath ≠ uploaded'.filePath ↔
      spelled (baseName upload.fileNameHeader ++ dot :: templateText (fileExtension upload.fileNameHeader)) ≠
        spelled (baseName upload'.fileNameHeader ++ dot :: templateText (fileExtension upload'.fileNameHeader)))) := by
  constructor
  · intro hsome
    obtain ⟨original, horiginal⟩ := Option.isSome_iff_exists.mp hsome
    rw [ne_eq, filePath_eq_iff h h', fileUploadName_eq, fileUploadName_eq, ← hextension, horiginal, Option.some_or,
      Option.some_or, List.append_cancel_right_eq]
  · intro hnone
    rw [ne_eq, filePath_eq_iff h h', fileUploadName_eq, fileUploadName_eq, ← hextension, hnone, Option.none_or,
      Option.none_or, spelled_append_dot, spelled_append_dot]

/-- A text file of one byte that is uploaded under a name. -/
def textUpload (fileNameHeader : String) : Upload where
  isTestEnv := false
  file := ⟨units "file.txt", some (units "text/plain"), .ok [65]⟩
  fileNameHeader := units fileNameHeader

def textUploaded (fileNameHeader : String) : UploadedFile where
  filePath := uploadPath (fileUploadName (textUpload fileNameHeader).file (units fileNameHeader))
  fileContentType := units "text/plain"
  uploadTag := some [49]

theorem textUpload_returns (fileNameHeader : String) :
    (textUpload fileNameHeader).Returns (textUploaded fileNameHeader) := by
  let s3 : S3 := fun call _ => Call.casesOn call (fun _ _ => .ok (some [49])) fun _ => .ok ⟨none, none⟩
  exact ⟨s3, rfl⟩

/-- The reports of two quarters. -/
theorem filePath_ne_reports : (textUploaded "q1.report.txt").filePath ≠ (textUploaded "q2.report.txt").filePath := by
  rw [((filePath_ne_iff (textUpload_returns "q1.report.txt") (textUpload_returns "q2.report.txt") rfl).1 (by decide))]
  decide

/-- Names that differ in a dot and a hyphen overwrite each other. -/
theorem filePath_eq_of_dots : ¬ ∀ (upload upload' : Upload) (uploaded uploaded' : UploadedFile),
    upload.Returns uploaded → upload'.Returns uploaded' →
    fileExtension upload.file.filename = fileExtension upload'.file.filename →
    stem (trim upload.fileNameHeader) ≠ stem (trim upload'.fileNameHeader) →
    uploaded.filePath ≠ uploaded'.filePath := by
  intro hdistinct
  apply hdistinct _ _ _ _ (textUpload_returns "a.b.txt") (textUpload_returns "a-b.txt") rfl (by decide)
  rw [filePath_eq_iff (textUpload_returns _) (textUpload_returns _), fileUploadName_eq, fileUploadName_eq]
  decide

end node_backend.file_service

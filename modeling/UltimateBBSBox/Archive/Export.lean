import UltimateBBSBox.Archive.JsonText
import UltimateBBSBox.Archive.Store

/-!
# Exports

`verify_one`, `write_text` and `build_export` of `ubb_archive.py`.  The archive is only
read; what changes is the output directory.  Each file operation of a run has a name
(`Step`) and may fail with any exception.

A bundle is put together in a temporary directory and renamed.  The museum bundle has
the payload below `artifacts`; the publication bundle has it beside the generated files,
and for a ZIP file the `FILE_ID.DIZ` that is in it.

The texts of the metadata are used as they are read back: `json.loads` makes one character
of two surrogates that stand for one (`joined`).

What `zipfile` makes of a file, the upper case of texts, `str` of values that are no texts
and the random parts of temporary names are taken as they are (`Exporter`).
-/

namespace UltimateBBSBox.Archive

open Act Faulty
open JsonText (joined)

/-! ## The output directory -/

/-- A file of a bundle, or a link. -/
inductive Item
  | bytes (content : Bytes)
  /-- A text in UTF-8. -/
  | text (content : Text)
  /-- A value in JSON. -/
  | document (value : Value)
  | link (target : Text)

/-- A directory with all that is below it: its files by the parts of their paths. -/
abbrev Tree : Type := Dict (List Text) Item

/-- An entry of the output directory. -/
inductive Entry
  /-- A symbolic link to nothing. -/
  | dangling
  | item (item : Item)
  | directory (tree : Tree)

/-- The output directory. -/
abbrev Output : Type := Dict Text Entry

/-- `path.exists()`, which is false of a link to nothing. -/
def Entry.seen : Entry → Bool
  | .dangling => false
  | .item _ | .directory _ => true

/-- The files of a directory that is put together. -/
def treeOf (temporary : Text) (output : Output) : Tree :=
  match output.get? temporary with
  | some (.directory tree) => tree
  | _ => ∅

/-- A file is put at a path of a directory. -/
def put (temporary : Text) (path : List Text) (item : Item) (output : Output) : Output :=
  output.set temporary (.directory ((treeOf temporary output).set path item))

/-! ## What is taken as it is -/

/-- A member of a ZIP file: what comes of opening it and, inside, of reading it.  No more
is read than the size that is listed. -/
structure Member where
  filename : Text
  fileSize : ℕ
  opened : Except Exn (Except Exn Bytes)
  length_le : ∀ content, opened = .ok (.ok content) → content.length ≤ fileSize

/-- An environment with what an export needs besides: `str` of values that are no texts,
`str.upper`, the eight random characters of `tempfile`, `zipfile.ZipFile`, and which
objects of the archive are symbolic links. -/
structure Exporter extends Environment where
  str : Value → Text
  upper : Text → Text
  suffix : Text
  length_suffix : suffix.length = 8
  zip : Bytes → Except Exn (List Member)
  linkTarget : Text → Option Text

/-- A part of writing a file. -/
inductive Part | create | fill | place | sync
deriving DecidableEq

/-- The files that `write_text` writes. -/
inductive TextFile | description | checksums | rights | readme
deriving DecidableEq

/-- The file operations of a run. -/
inductive Step
  | resolve
  | makeOutput
  | lookUp
  | makeTemporary
  | copy (part : Part)
  | json (part : Part)
  | text (file : TextFile) (part : Part)
  | makeArtifacts
  | openZip
  | openMember
  | member (part : Part)
  | rename
  | syncOutput
  | removal
deriving DecidableEq

/-- Which operations fail, with what, and how far they come. -/
abbrev Failures : Type := Step → Option (Exn × ℕ)

/-! ## `verify_one` -/

/-- `verify_one`; the text of an exception that is passed on is left out after its colon. -/
def verifyOne (E : Environment) (disk : Disk) (artifactId : Text) : Except Exn Value := do
  let metadata ← loadMetadata disk artifactId
  let artifact ← metadata.item "artifact"
  let sha256 ← (← artifact.item "sha256").toText
  let key ← objectPath sha256
  match disk.objects.get? key with
  | none => throw (.verificationError (artifactId ++ .of ": object missing or unreadable: "))
  | some data => do
      let size ← artifact.item "size"
      if E.hashes.digest .sha256 data ≠ sha256 ∨ size.isInt data.length = false then
        throw (.verificationError (artifactId ++ .of ": object checksum or size mismatch"))
      return metadata

/-! ## Writing into the temporary directory -/

/-- A name that is too long raises; the names of an export are ASCII. -/
def checkName (name : Text) : Except Exn Unit :=
  if 255 < name.length then .error (.foreign .osError) else .ok ()

section Writing

variable (X : Exporter) (failures : Failures) (temporary : Text)

/-- `shutil.copyfile(source, path, follow_symlinks=False)`. -/
def copyFile (path : List Text) (source : Item) : Act Output Exn Unit := do
  Act.ofExcept (checkName (path.getLastD []))
  match source with
  | .bytes content => do
      attempt (failures (.copy .create)) (fun _ => id) (put temporary path (.bytes []))
      attempt (failures (.copy .fill)) (fun reached => put temporary path (.bytes (content.take reached)))
        (put temporary path source)
  | source => do
      attempt (failures (.copy .create)) (fun _ => id) id
      attempt (failures (.copy .fill)) (fun _ => id) (put temporary path source)

/-- `atomic_json`: the file is written under a longer name and renamed. -/
def atomicJson (name : Text) (value : Value) : Act Output Exn Unit := do
  Act.ofExcept (checkName (.of "." ++ name ++ .of "." ++ X.suffix))
  attempt (failures (.json .create)) (fun _ => id) id
  attempt (failures (.json .fill)) (fun _ => id) id
  attempt (failures (.json .place)) (fun _ => id) (put temporary [name] (.document value))
  attempt (failures (.json .sync)) (fun _ => id) id

/-- `write_text`. -/
def writeText (file : TextFile) (name value : Text) : Act Output Exn Unit := do
  let output ← get
  if ((treeOf temporary output).get? [name]).isSome then throw (.foreign .fileExistsError)
  attempt (failures (.text file .create)) (fun _ => id) (put temporary [name] (.text []))
  if ∃ c ∈ value, c.isSurrogate = true then throw (.foreign .unicodeEncodeError)
  attempt (failures (.text file .fill)) (fun reached => put temporary [name] (.text (value.take reached)))
    (put temporary [name] (.text value))
  attempt (failures (.text file .sync)) (fun _ => id) id

end Writing

/-! ## Publication -/

/-- `"FILE_ID.DIZ"`. -/
def fileIdDiz : Text := .of "FILE_ID.DIZ"

/-- `"FILE_ID.DIZ.generated"`. -/
def generatedDiz : Text := .of "FILE_ID.DIZ.generated"

/-- Whether a member of a ZIP file is a description that is copied. -/
def Member.describes (X : Exporter) (member : Member) : Bool :=
  X.upper (purePathName member.filename) = fileIdDiz ∧
    member.filename.getLast? ≠ some (.ofChar '/') ∧ member.fileSize ≤ 65536

/-- The exceptions of `contextlib.suppress(zipfile.BadZipFile, OSError, UnicodeError)`. -/
def isSuppressed : Exn → Bool
  | .foreign .badZipFile | .foreign .osError | .foreign .fileExistsError
  | .foreign .unicodeDecodeError | .foreign .unicodeEncodeError => true
  | _ => false

section Publication

variable (X : Exporter) (failures : Failures) (temporary : Text)

/-- The text of the generated description. -/
def description (metadata : Value) (artifactId name : Text) : Except Exn Text := do
  let notes ← (← metadata.item "provenance").get "notes" .null
  if notes.truthy then
    match notes with
    | .text notes => return (joined notes).strip ++ .of "\n"
    | _ => Value.attributeError
  else return (artifactId ++ .of ": preserved " ++ name).strip ++ .of "\n"

/-- The copy of a member's content. -/
def copyMember (member : Member) : Act Output Exn Unit := do
  attempt (failures .openMember) (fun _ => id) id
  let item ← Act.ofExcept member.opened
  let output ← get
  if ((treeOf temporary output).get? [fileIdDiz]).isSome then throw (.foreign .fileExistsError)
  attempt (failures (.member .create)) (fun _ => id) (put temporary [fileIdDiz] (.bytes []))
  let content ← Act.ofExcept item
  let content := content.take 65537
  attempt (failures (.member .fill))
    (fun reached => put temporary [fileIdDiz] (.bytes (content.take reached)))
    (put temporary [fileIdDiz] (.bytes content))
  attempt (failures (.member .sync)) (fun _ => id) id

/-- The search for a description in a ZIP file, within the `suppress`. -/
def inspectZip (data : Bytes) : Act Output Exn Unit :=
  tryCatch (do
    attempt (failures .openZip) (fun _ => id) id
    let members ← Act.ofExcept (X.zip data)
    match members.find? (Member.describes X) with
    | some member => copyMember failures temporary member
    | none => return) fun e => if isSuppressed e = true then return else throw e

/-- The bundle for publication. -/
def publicationBundle (metadata : Value) (artifactId name : Text) (source : Item) (data : Bytes) :
    Act Output Exn Unit := do
  copyFile failures temporary [name] source
  atomicJson X failures temporary (name ++ .of ".json") metadata
  let text ← Act.ofExcept (description metadata artifactId name)
  writeText failures temporary .description generatedDiz text
  inspectZip X failures temporary data

end Publication

/-! ## Museum export -/

section Museum

variable (X : Exporter) (failures : Failures) (temporary : Text)

/-- `f"{value}"`, of a value that is read back. -/
def formatted : Value → Text
  | .text value => joined value
  | value => X.str value

/-- The text of `checksums.sha256`. -/
def checksumsText (metadata : Value) (name : Text) : Except Exn Text := do
  let sha256 ← (← metadata.item "artifact").item "sha256"
  return formatted X sha256 ++ .of "  artifacts/" ++ name ++ .of "\n"

/-- The line of a permission. -/
def rightsLine : Text × Value → Option Text
  | (key, .bool value) => some (key ++ .of ": " ++ if value then .of "true" else .of "false")
  | _ => none

/-- The text of `RIGHTS.txt`. -/
def rightsText (rights : Value) : Except Exn Text := do
  let status ← (← rights.item "status").toText
  match rights with
  | .object fields =>
      return .of "Rights status: " ++ status ++ .of "\n" ++
        (Text.of "\n").intercalate (fields.filterMap rightsLine) ++ .of "\n"
  | _ => Value.attributeError

/-- The line of a parent. -/
def parentLine (parent : Value) : Except Exn Text := do
  let artifactId ← parent.item "artifact_id"
  let sha256 ← parent.item "sha256"
  return .of "- " ++ formatted X artifactId ++ .of " (" ++ formatted X sha256 ++ .of ")"

/-- What `README.txt` says of a lineage. -/
def lineageText (lineage : Value) : Except Exn Text := do
  let parents ← (← lineage.item "parents").elements
  let lines ← parents.mapM (parentLine X)
  let action ← lineage.item "action"
  return .of "\nDerived artifact lineage:\n" ++ (Text.of "\n").intercalate lines ++ .of "\nAction: " ++
    formatted X action ++ .of "\n"

/-- The text of `README.txt`. -/
def readmeText (metadata : Value) (artifactId name : Text) : Except Exn Text := do
  let lineage ← (← metadata.item "preservation").get "lineage" .null
  let provenance ← metadata.item "provenance"
  let acquiredAt ← provenance.item "acquired_at"
  let source ← provenance.item "source"
  let sha256 ← (← metadata.item "artifact").item "sha256"
  let text := .of "Ultimate BBS Box preservation export\n\nArtifact: " ++ artifactId ++
    .of "\nOriginal filename: " ++ name ++ .of "\nAcquired: " ++ formatted X acquiredAt ++
    .of "\nSource: " ++ formatted X source ++ .of "\nSHA-256: " ++ formatted X sha256 ++ .of "\n"
  if lineage.truthy then
    let more ← lineageText X lineage
    return text ++ more
  else return text

/-- The bundle of a museum export. -/
def museumBundle (metadata rights : Value) (artifactId name : Text) (source : Item) :
    Act Output Exn Unit := do
  attempt (failures .makeArtifacts) (fun _ => id) id
  copyFile failures temporary [.of "artifacts", name] source
  atomicJson X failures temporary (.of "metadata.json") metadata
  let checksums ← Act.ofExcept (checksumsText X metadata name)
  writeText failures temporary .checksums (.of "checksums.sha256") checksums
  let rights ← Act.ofExcept (rightsText rights)
  writeText failures temporary .rights (.of "RIGHTS.txt") rights
  let readme ← Act.ofExcept (readmeText X metadata artifactId name)
  writeText failures temporary .readme (.of "README.txt") readme

end Museum

/-! ## `build_export` -/

/-- `publication`, or not. -/
inductive Mode | museum | publication
deriving DecidableEq

/-- The permission that a mode needs. -/
def Mode.permission : Mode → String
  | .museum => "export_from_archive"
  | .publication => "publish_to_bbs_filebase"

/-- The denial of a mode. -/
def Mode.denial : Mode → String
  | .museum => "export denied: rights.export_from_archive is false"
  | .publication => "publication denied: rights.publish_to_bbs_filebase is false"

/-- The checks of the permissions. -/
def permit (mode : Mode) (redistribution : Bool) (rights : Value) : Except Exn Unit := do
  let permission ← rights.item mode.permission
  if permission.truthy = false then throw (.archiveError (.of mode.denial))
  if redistribution = true then
    let permission ← rights.item "redistribute_original"
    if permission.truthy = false then
      throw (.archiveError
        (.of "redistribution export denied: rights.redistribute_original is false"))

section Build

variable (X : Exporter) (failures : Failures)

/-- The name of the temporary directory. -/
def temporaryName (artifactId : Text) : Text := .of "." ++ artifactId ++ .of "." ++ X.suffix

/-- `os.replace(temporary, final)`; a link to nothing cannot be replaced by a directory. -/
def rename (temporary artifactId : Text) : Act Output Exn Unit := do
  let output ← get
  if (output.get? artifactId).isSome then throw (.foreign .osError)
  attempt (failures .rename) (fun _ => id) fun output =>
    (output.pop temporary).set artifactId (.directory (treeOf temporary output))

/-- `shutil.rmtree(temporary)` if it exists. -/
def removeTemporary (temporary : Text) : Act Output Exn Unit := do
  let output ← get
  whenever ((output.get? temporary).isSome = true) <|
    attempt (failures .removal)
      (fun reached output =>
        output.set temporary (.directory ((treeOf temporary output).popOldest reached)))
      fun output => output.pop temporary

/-- What comes of the payload: the object, or the link that stands for it. -/
def payload (key : Text) (data : Bytes) : Item :=
  match X.linkTarget key with
  | some target => .link target
  | none => .bytes data

/-- The bundle of a mode. -/
def bundle (temporary : Text) (metadata rights : Value) (artifactId name : Text) (source : Item)
    (data : Bytes) : Mode → Act Output Exn Unit
  | .publication => publicationBundle X failures temporary metadata artifactId name source data
  | .museum => museumBundle X failures temporary metadata rights artifactId name source

/-- The body of the `try`. -/
def assemble (disk : Disk) (metadata rights : Value) (artifactId temporary : Text) (mode : Mode) :
    Act Output Exn Text := do
  let artifact ← Act.ofExcept (metadata.item "artifact")
  let sha256 ← Act.ofExcept (artifact.item "sha256" >>= Value.toText)
  let key ← Act.ofExcept (objectPath sha256)
  let original ← Act.ofExcept (artifact.item "original_filename" >>= Value.toText)
  let name ← Act.ofExcept (safeFilename original)
  let data := (disk.objects.get? key).getD []
  bundle X failures temporary metadata rights artifactId name (payload X key data) data mode
  rename failures temporary artifactId
  attempt (failures .syncOutput) (fun _ => id) id
  return artifactId

/-- `build_export`; the result is the name below the output directory, and the path in a
text is left out after its colon. -/
def buildExport (disk : Disk) (artifactId : Text) (mode : Mode) (redistribution : Bool) :
    Act Output Exn Text := do
  let metadata ← Act.ofExcept (verifyOne X.toEnvironment disk artifactId)
  let rights ← Act.ofExcept (metadata.item "rights")
  Act.ofExcept (permit mode redistribution rights)
  attempt (failures .resolve) (fun _ => id) id
  attempt (failures .makeOutput) (fun _ => id) id
  attempt (failures .lookUp) (fun _ => id) id
  let output ← get
  if (output.get? artifactId).any Entry.seen = true then
    throw (.archiveError (.of "output already exists: "))
  Act.ofExcept (checkName (temporaryName X artifactId))
  if (output.get? (temporaryName X artifactId)).isSome then throw (.foreign .fileExistsError)
  attempt (failures .makeTemporary) (fun _ => id) fun output =>
    output.set (temporaryName X artifactId) (.directory ∅)
  andFinally (assemble X failures disk metadata rights artifactId (temporaryName X artifactId) mode)
    (removeTemporary failures (temporaryName X artifactId))

end Build

end UltimateBBSBox.Archive

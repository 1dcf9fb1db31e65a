import Mathlib.Data.List.Dedup
import Mathlib.Data.List.Lex
import Mathlib.Data.List.Sort
import UltimateBBSBox.Archive.Metadata
import UltimateBBSBox.Library.Faults

/-!
# Preserving a stream

`preserve_stream` of `ubb_archive.py` with the functions it calls, over the part of
the archive that it reads and writes: the metadata files, the objects by their
digest, the quarantine and the locks.  Any file operation may fail (`Faulty`).

The hashes, the media types and the order of values that are no texts are taken as
they are (`Environment`).
-/

namespace UltimateBBSBox.Archive

open Act Faulty
open CodePoint (ofChar)

/-! ## The archive -/

/-- The content of a file. -/
abbrev Bytes : Type := List UInt8

/-- What is in a file of `metadata`. -/
inductive MetadataFile
  /-- Reading raises an `OSError`. -/
  | unreadable
  /-- The file is not in UTF-8. -/
  | undecodable
  /-- The text is no JSON. -/
  | unparsable
  | document (value : Value)

/-- The directories of an archive: `metadata` by the stems of its `*.json`, `objects` by
digest, `quarantine` by file name, `state/locks`; and whether it is initialized. -/
structure Disk where
  initialized : Bool
  metadata : Dict Text MetadataFile
  objects : Dict Text Bytes
  quarantine : Dict Text Bytes
  locks : Dict Text Unit

/-- Programs over an archive. -/
abbrev Prog (α : Type) : Type := Act (Faulty Disk Exn) Exn α

/-- `hexdigest` of `hashlib`, in lower case. -/
structure Hashes where
  digest : Algorithm → Bytes → Text
  isDigest_digest : ∀ algorithm data, isDigest algorithm (digest algorithm data) = true
  lower_digest : ∀ algorithm data, (digest algorithm data).map CodePoint.asciiLower =
    digest algorithm data

/-- What a process knows apart from the archive: the root as it prints it, its process id,
the hashes, `mimetypes.guess_type`, and `sorted(set(...))` where not all values are texts. -/
structure Environment where
  root : Text
  pid : Text
  hashes : Hashes
  guessType : Text → Option Text
  sortOthers : List Value → Except Exn (List Value)

/-! ## Metadata and objects -/

/-- `load_metadata`; the text of an exception that is passed on is left out after its colon. -/
def loadMetadata (disk : Disk) (artifactId : Text) : Except Exn Value := do
  validateId artifactId
  match disk.metadata.get? artifactId with
  | none => throw (.archiveError (.of "unknown artifact: " ++ artifactId))
  | some .unreadable | some .unparsable =>
      throw (.archiveError (.of "invalid metadata for " ++ artifactId ++ .of ": "))
  | some .undecodable => throw (.foreign .unicodeDecodeError)
  | some (.document value) => do
      validateMetadata value
      return value

/-- The name of an object below `objects/sha256`. -/
def objectPath (digest : Text) : Except Exn Text :=
  if isDigest .sha256 digest then .ok (digest.map CodePoint.asciiLower)
  else .error (.archiveError (.of "invalid object digest"))

/-! ## Streams -/

/-- What the calls of `read` give in turn: chunks, or an exception.  After the last of
them, and from an empty chunk on, the stream has ended. -/
abbrev Reads : Type := List (Except Exn Bytes)

/-- The loop of `hashes_for`: the data so far, and what is still to come.  The digests
are those of all the data. -/
def hashesFor (name : Text) (maxBytes : ℤ) : Reads → Bytes → Prog Bytes
  | [], data => return data
  | .error e :: _, _ => throw e
  | .ok [] :: _, data => return data
  | .ok chunk :: rest, data => do
      if maxBytes < (data ++ chunk).length then
        throw (.archiveError (.of s!"input exceeds maximum size of {maxBytes} bytes"))
      performOr
        (fun reached disk => { disk with
          quarantine := disk.quarantine.set name (data ++ chunk.take reached) })
        (fun disk => { disk with quarantine := disk.quarantine.set name (data ++ chunk) })
      hashesFor name maxBytes rest (data ++ chunk)

/-- The check of one expected hash. -/
def checkExpectedOne (hashes : Hashes) (data : Bytes) (algorithm : Algorithm)
    (wanted : Option Text) : Except Exn Unit :=
  match wanted with
  | none | some [] => .ok ()
  | some wanted =>
      if isDigest algorithm wanted = false then
        .error (.archiveError (.of s!"invalid expected {algorithm.name}"))
      else if (hashes.digest algorithm data).map CodePoint.asciiLower ≠
          wanted.map CodePoint.asciiLower then
        .error (.archiveError (.of s!"expected {algorithm.name} " ++
          wanted.map CodePoint.asciiLower ++ .of ", got " ++ hashes.digest algorithm data))
      else .ok ()

/-- `check_expected`. -/
def checkExpected (hashes : Hashes) (data : Bytes) (expected : Algorithm → Option Text) :
    Except Exn Unit := do
  checkExpectedOne hashes data .sha256 (expected .sha256)
  checkExpectedOne hashes data .sha1 (expected .sha1)
  checkExpectedOne hashes data .md5 (expected .md5)

/-! ## Predecessors -/

/-- What one metadata file adds to the predecessors. -/
def predecessor (sourceUrl : Value) (digest stem : Text) : MetadataFile → Except Exn (List Value)
  | .unreadable | .unparsable => return []
  | .undecodable => throw (.foreign .unicodeDecodeError)
  | .document value => do
      let provenance ← value.get "provenance" (.object [])
      let url ← provenance.get "source_url" .null
      if url.equal sourceUrl = false then return []
      let artifact ← value.get "artifact" (.object [])
      let sha256 ← artifact.get "sha256" .null
      if sha256.isText digest = true then return []
      let id ← value.get "id" (.text stem)
      return [id]

/-- The loop of `source_predecessors`. -/
def predecessorsIn (sourceUrl : Value) (digest : Text) :
    List (Text × MetadataFile) → Except Exn (List Value)
  | [] => return []
  | (stem, file) :: rest => do
      let first ← predecessor sourceUrl digest stem file
      let others ← predecessorsIn sourceUrl digest rest
      return first ++ others

/-- The text of a value that is one. -/
def Value.text? : Value → Option Text
  | .text value => some value
  | _ => none

/-- `sorted(set(values))`. -/
def sortedSet (E : Environment) (values : List Value) : Except Exn (List Value) :=
  match values.mapM Value.text? with
  | some texts => .ok ((texts.dedup.insertionSort (· ≤ ·)).map .text)
  | none => E.sortOthers values

/-- `source_predecessors`. -/
def sourcePredecessors (E : Environment) (disk : Disk) (sourceUrl : Value) (digest : Text) :
    Except Exn (List Value) := do
  let result ← predecessorsIn sourceUrl digest disk.metadata.entries
  sortedSet E result

/-! ## The document -/

/-- The arguments of an acquisition that end in the metadata or are checked. -/
structure Args where
  expected : Algorithm → Option Text
  maxBytes : ℤ
  rightsStatus : Text
  installLocally : Bool
  redistributeOriginal : Bool
  publishToBbsFilebase : Bool
  noOwnerExport : Bool
  rightsEvidence : List Text
  softwareFamily : Option Text
  version : Option Text
  platform : Option Text

/-- `rights_document`. -/
def rightsDocument (args : Args) : Value :=
  .object [(.of "status", .text args.rightsStatus),
    (.of "preserve_locally", .bool true),
    (.of "install_locally", .bool args.installLocally),
    (.of "redistribute_original", .bool args.redistributeOriginal),
    (.of "publish_to_bbs_filebase", .bool args.publishToBbsFilebase),
    (.of "export_from_archive", .bool (!args.noOwnerExport)),
    (.of "evidence", .array (args.rightsEvidence.map .text))]

/-- An optional field of `artifact`. -/
def optionalField (key : String) : Option Text → Fields
  | none | some [] => []
  | some value => [(.of key, .text value)]

/-- `[p["artifact_id"] for p in lineage["parents"]]`. -/
def parentIds (lineage : Value) : Except Exn (List Value) := do
  let parents ← (← lineage.item "parents").elements
  parents.mapM fun parent => parent.item "artifact_id"

/-- The parameters of `preserve_stream` besides the archive. -/
structure Request where
  artifactId : Text
  filename : Text
  reads : Reads
  provenance : Fields
  args : Args
  preservationClass : Text
  role : Text
  /-- `None` is `null`. -/
  lineage : Value
  expectedSize : Option ℤ

/-- `document["artifact"]`. -/
def artifactOf (E : Environment) (request : Request) (filename : Text) (data : Bytes)
    (derivedFrom : Fields) : Value :=
  .object ([(.of "role", .text request.role),
    (.of "original_filename", .text filename),
    (.of "sha256", .text (E.hashes.digest .sha256 data)),
    (.of "sha1", .text (E.hashes.digest .sha1 data)),
    (.of "md5", .text (E.hashes.digest .md5 data)),
    (.of "size", .number (.int data.length)),
    (.of "media_type", .text ((E.guessType filename).getD (.of "application/octet-stream")))] ++
    optionalField "software_family" request.args.softwareFamily ++
    optionalField "version" request.args.version ++
    optionalField "platform" request.args.platform ++ derivedFrom)

/-- `document["provenance"]`. -/
def provenanceOf (provenance : Fields) (prior : List Value) : Value :=
  let changed : Fields := provenance.set "source_changed" (.bool (!prior.isEmpty))
  if prior.isEmpty then .object changed
  else .object (changed.set "previous_artifacts_from_source" (.array prior))

/-- `document["preservation"]`. -/
def preservationOf (cls : Text) (lineage : Value) : Value :=
  .object ([(.of "class", .text cls), (.of "immutable", .bool true),
    (.of "status", .text (.of "READY"))] ++
    if lineage.truthy then [(.of "lineage", lineage)] else [])

/-- `derived_from`, the last field of `artifact`, where there is a lineage. -/
def derivedFromOf (lineage : Value) : Except Exn Fields :=
  if lineage.truthy then do
    let ids ← parentIds lineage
    return [(.of "derived_from", .array ids)]
  else .ok []

/-- The document of a stream whose data is known. -/
def documentOf (E : Environment) (request : Request) (filename : Text) (data : Bytes)
    (prior : List Value) : Except Exn Value := do
  let derivedFrom ← derivedFromOf request.lineage
  return .object [(.of "kind", .text (.of "artifact")),
    (.of "schema_version", .number (.int 1)),
    (.of "id", .text request.artifactId),
    (.of "artifact", artifactOf E request filename data derivedFrom),
    (.of "provenance", provenanceOf request.provenance prior),
    (.of "rights", rightsDocument request.args),
    (.of "preservation", preservationOf request.preservationClass request.lineage)]

/-! ## `preserve_stream` -/

/-- `f"{artifact_id}.{os.getpid()}.part"`. -/
def quarantineName (E : Environment) (artifactId : Text) : Text :=
  artifactId ++ .of "." ++ E.pid ++ .of ".part"

/-- `quarantine.unlink()`, where a missing file is passed over. -/
def unlinkQuarantine (name : Text) : Prog Unit := do
  let s ← get
  whenever ((s.state.quarantine.get? name).isSome = true) <|
    perform fun disk => { disk with quarantine := disk.quarantine.pop name }

/-- `lock.unlink()`, where a missing file is passed over. -/
def unlinkLock (artifactId : Text) : Prog Unit := do
  let s ← get
  whenever ((s.state.locks.get? artifactId).isSome = true) <|
    perform fun disk => { disk with locks := disk.locks.pop artifactId }

/-- The check of `expected_size`. -/
def checkSize (expectedSize : Option ℤ) (data : Bytes) : Except Exn Unit :=
  match expectedSize with
  | none => .ok ()
  | some expected =>
      if (data.length : ℤ) ≠ expected then
        .error (.archiveError
          (.of s!"incomplete download: expected {expected} bytes, received {data.length}"))
      else .ok ()

/-- The object is put in its place, or is there already. -/
def placeObject (name key : Text) (data : Bytes) : Prog Unit := do
  perform id
  let s ← get
  match s.state.objects.get? key with
  | some bytes =>
      if bytes.length ≠ data.length then
        throw (.archiveError
          (.of "existing content-addressed object has an impossible size mismatch"))
      else perform fun disk => { disk with quarantine := disk.quarantine.pop name }
  | none => do
      perform fun disk => { disk with
        objects := disk.objects.set key ((disk.quarantine.get? name).getD []) }
      perform id
      perform id
      perform fun disk => { disk with quarantine := disk.quarantine.pop name }

/-- `source_predecessors` where there is a source URL. -/
def priorOf (E : Environment) (provenance : Fields) (digest : Text) (disk : Disk) :
    Except Exn (List Value) :=
  let sourceUrl := (provenance.get? "source_url").getD (.text [])
  if sourceUrl.truthy then sourcePredecessors E disk sourceUrl digest else .ok []

/-- `atomic_json` of the metadata file: a temporary file, the rename, the directory. -/
def writeMetadata (artifactId : Text) (document : Value) : Prog Unit := do
  perform id
  perform fun disk => { disk with
    metadata := disk.metadata.set artifactId (.document document.sortKeys) }
  perform id

/-- What `preserve_stream` does while it holds the lock. -/
def publish (E : Environment) (request : Request) (filename : Text) : Prog Value := do
  let name := quarantineName E request.artifactId
  let s ← get
  if (s.state.quarantine.get? name).isSome then throw (.foreign .fileExistsError)
  perform fun disk => { disk with quarantine := disk.quarantine.set name [] }
  let data ← hashesFor name request.args.maxBytes request.reads []
  perform id
  Act.ofExcept (checkSize request.expectedSize data)
  Act.ofExcept (checkExpected E.hashes data request.args.expected)
  let key ← Act.ofExcept (objectPath (E.hashes.digest .sha256 data))
  placeObject name key data
  let s ← get
  let prior ← Act.ofExcept (priorOf E request.provenance (E.hashes.digest .sha256 data) s.state)
  let document ← Act.ofExcept (documentOf E request filename data prior)
  Act.ofExcept (validateMetadata document)
  writeMetadata request.artifactId document
  return document

/-- `preserve_stream`. -/
def preserveStream (E : Environment) (request : Request) : Prog Value := do
  let s ← get
  if s.state.initialized = false then
    throw (.archiveError (.of "not an initialized archive: " ++ E.root))
  Act.ofExcept (validateId request.artifactId)
  let filename ← Act.ofExcept (safeFilename request.filename)
  if (s.state.metadata.get? request.artifactId).isSome then
    throw (.duplicateArtifact (.of "artifact id already exists: " ++ request.artifactId))
  if (s.state.locks.get? request.artifactId).isSome then
    throw (.duplicateArtifact
      (.of "artifact id is currently being written: " ++ request.artifactId))
  perform fun disk => { disk with locks := disk.locks.set request.artifactId () }
  andFinally (publish E request filename) do
    unlinkQuarantine (quarantineName E request.artifactId)
    unlinkLock request.artifactId

end UltimateBBSBox.Archive

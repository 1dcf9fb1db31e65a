import UltimateBBSBox.Archive.Published
import UltimateBBSBox.Archive.Sources

/-!
# The calls that publish

`import_artifact`, `acquire_http` and `derive` of `ubb_archive.py`, which read what they are
given and leave the rest to `preserve_stream`.  The local file and the response are taken as
what opening them gives.
-/

namespace UltimateBBSBox.Archive

open Act Faulty
open CodePoint (ofChar)
open Url

/-- `init_archive`: what is there is kept. -/
def initArchive (disk : Disk) : Disk := { disk with initialized := true }

/-- `first or second`, where the first may be missing. -/
def orText : Option Text → Text → Text
  | none, second | some [], second => second
  | some first, _ => first

/-! ## `import_artifact` -/

/-- The arguments of `import_artifact` and `acquire_http`; `provenance` is empty where there
is none. -/
structure Ingest where
  artifactId : Text
  sourceUrl : Text
  sourceName : Text
  originalFilename : Option Text
  provenance : Fields
  notes : Option Text
  args : Args
  /-- `now()`. -/
  acquiredAt : Text

/-- What is handed to `preserve_stream`. -/
def Ingest.request (ingest : Ingest) (filename : Text) (reads : Reads) (cleanUrl retrievalMethod : Text)
    (expectedSize : Option ℤ) : Request where
  artifactId := ingest.artifactId
  filename := filename
  reads := reads
  provenance := acquiredProvenance ingest.acquiredAt ingest.sourceName cleanUrl retrievalMethod
    ingest.provenance ingest.notes
  args := ingest.args
  preservationClass := .of "original"
  role := .of "preservation_original"
  lineage := .null
  expectedSize := expectedSize

/-- `import_artifact`: `name` is that of the file, and `opened` what `open_local` gives. -/
def importArtifact (E : Environment) (U : Unicode) (ingest : Ingest) (name : Text)
    (opened : Except Exn Reads) : Prog Value := do
  let (_, cleanUrl) ← Act.ofExcept (sanitizedUrl U ingest.sourceUrl)
  let reads ← Act.ofExcept opened
  preserveStream E
    (ingest.request (orText ingest.originalFilename name) reads cleanUrl (.of "local_file") none)

/-! ## `acquire_http` -/

/-- A response: `Content-Length` as `int` reads it, where the header is not empty,
`Content-Disposition`, and the stream. -/
structure Response where
  contentLength : Option (Except Exn ℤ)
  disposition : Text
  reads : Reads

/-- A letter of a pattern under `re.I`; the dotted and the dotless `i` go with the other. -/
def isLetterOf (letter c : CodePoint) : Bool :=
  c.asciiLower = letter ∨ (letter = ofChar 'i' ∧ (c.val = 0x130 ∨ c.val = 0x131))

/-- What follows `filename`. -/
def afterFilename (text : Text) : Option Text :=
  if (Text.of "filename").length ≤ text.length ∧
      ∀ pair ∈ (Text.of "filename").zip text, isLetterOf pair.1 pair.2 = true then
    some (text.drop (Text.of "filename").length)
  else none

/-- The value of `\s*=\s*(?:"([^"]+)"|([^;]+))`. -/
def filenameValue (text : Text) : Option Text :=
  match text.dropWhile CodePoint.isSpace with
  | [] => none
  | c :: rest =>
      if c ≠ ofChar '=' then none
      else
        let value := rest.dropWhile CodePoint.isSpace
        let quoted := (value.drop 1).takeWhile (· ≠ ofChar '"')
        if value.head? = some (ofChar '"') ∧ quoted ≠ [] ∧ ofChar '"' ∈ value.drop 1 then some quoted
        else
          match value.takeWhile (· ≠ ofChar ';') with
          -- only whitespace that was passed over is left for the value
          | [] => if value.length < rest.length then some [] else none
          | bare => some bare

/-- `re.search(r"filename\s*=\s*(?:\"([^\"]+)\"|([^;]+))", disposition, re.I)`. -/
def searchFilename : Text → Option Text
  | [] => none
  | c :: rest => ((afterFilename (c :: rest)).bind filenameValue).or (searchFilename rest)

/-- `response_filename`. -/
def responseFilename (U : Unicode) (disposition url : Text) : Except Exn Text := do
  let candidate ← match searchFilename disposition with
    | some value => pure value.strip
    | none => (raising (urlsplit U url)).map fun parsed => purePathName parsed.path
  safeFilename (if candidate = [] then .of "download.bin" else candidate)

/-- `args.original_filename or response_filename(response, clean_url)`. -/
def acquiredFilename (U : Unicode) (ingest : Ingest) (disposition cleanUrl : Text) : Except Exn Text :=
  match ingest.originalFilename with
  | none | some [] => responseFilename U disposition cleanUrl
  | some filename => .ok filename

/-- What `acquire_http` does with the response. -/
def acquireResponse (E : Environment) (U : Unicode) (ingest : Ingest) (cleanUrl : Text)
    (response : Response) : Prog Value := do
  let expectedSize ← Act.ofExcept (response.contentLength.elim (.ok none) (·.map some))
  if expectedSize.any (ingest.args.maxBytes < ·) = true then
    throw (.archiveError (.of s!"download exceeds maximum size of {ingest.args.maxBytes} bytes"))
  let filename ← Act.ofExcept (acquiredFilename U ingest response.disposition cleanUrl)
  let parsed ← Act.ofExcept (raising (urlsplit U cleanUrl))
  preserveStream E (ingest.request filename response.reads cleanUrl parsed.scheme expectedSize)

/-- `except ArchiveError: raise`, and an `ArchiveError` of every other exception, whose text is
left out after its colon. -/
def acquisitionFailed : Exn → Exn
  | .foreign _ => .archiveError (.of "acquisition failed: ")
  | e => e

/-- `acquire_http`: `opened` is what `urlopen` gives. -/
def acquireHttp (E : Environment) (U : Unicode) (ingest : Ingest) (opened : Except Exn Response) :
    Prog Value := do
  let (_, cleanUrl) ← Act.ofExcept (sanitizedUrl U ingest.sourceUrl)
  tryCatch (do
    let response ← Act.ofExcept opened
    acquireResponse E U ingest cleanUrl response) fun e => throw (acquisitionFailed e)

/-! ## `derive` -/

/-- The arguments of `derive`. -/
structure Derivation where
  artifactId : Text
  parents : List Text
  originalFilename : Option Text
  role : Text
  action : Text
  tool : Option Text
  notes : Option Text
  args : Args
  acquiredAt : Text
  derivedAt : Text

/-- `{"artifact_id": p["id"], "sha256": p["artifact"]["sha256"]}`, which `load_metadata` has
made sure are texts. -/
def parentOf (metadata : Value) : Except Exn (Text × Text) := do
  let id ← (← metadata.item "id").toText
  let artifact ← metadata.item "artifact"
  let sha256 ← (← artifact.item "sha256").toText
  return (id, sha256)

/-- The parents of a lineage. -/
def derivedParents (disk : Disk) (parents : List Text) : Except Exn (List (Text × Text)) := do
  let loaded ← parents.mapM (loadMetadata disk)
  loaded.mapM parentOf

/-- What is handed to `preserve_stream`. -/
def Derivation.request (derivation : Derivation) (filename : Text) (reads : Reads)
    (parents : List (Text × Text)) : Request where
  artifactId := derivation.artifactId
  filename := filename
  reads := reads
  provenance := derivedProvenance derivation.acquiredAt derivation.notes
  args := derivation.args
  preservationClass :=
    if derivation.role = .of "reconstructed" then .of "reconstructed" else .of "derived"
  role := derivation.role
  lineage := derivedLineage parents derivation.action derivation.derivedAt derivation.tool
    derivation.notes
  expectedSize := none

/-- `derive`: `name` is that of the file, and `opened` what `open_local` gives. -/
def derive (E : Environment) (derivation : Derivation) (name : Text) (opened : Except Exn Reads) :
    Prog Value := do
  let s ← get
  let parents ← Act.ofExcept (derivedParents s.state derivation.parents)
  let reads ← Act.ofExcept opened
  preserveStream E (derivation.request (orText derivation.originalFilename name) reads parents)

/-! ## Runs -/

/-- A call that publishes. -/
inductive Call
  | importArtifact (ingest : Ingest) (name : Text) (opened : Except Exn Reads)
  | acquireHttp (ingest : Ingest) (opened : Except Exn Response)
  | derive (derivation : Derivation) (name : Text) (opened : Except Exn Reads)

def Call.act (E : Environment) (U : Unicode) : Call → Prog Value
  | .importArtifact ingest name opened => Archive.importArtifact E U ingest name opened
  | .acquireHttp ingest opened => Archive.acquireHttp E U ingest opened
  | .derive derivation name opened => Archive.derive E derivation name opened

/-- A call by some process, with the answers to its file operations. -/
structure Turn where
  call : Call
  pid : Text
  answers : List (Option (Exn × ℕ))

/-- What a call leaves of the archive, whether it returned or raised. -/
def Turn.leaves (E : Environment) (U : Unicode) (disk : Disk) (turn : Turn) : Disk :=
  match (turn.call.act { E with pid := turn.pid } U).run ⟨disk, turn.answers⟩ with
  | some (_, s) => s.state
  | none => disk

/-- What calls leave, one after the other. -/
def leaves (E : Environment) (U : Unicode) (turns : List Turn) (disk : Disk) : Disk :=
  turns.foldl (Turn.leaves E U) disk

/-- An archive that has just been initialized. -/
def Disk.fresh : Disk := initArchive ⟨false, ∅, ∅, ∅, ∅⟩

end UltimateBBSBox.Archive

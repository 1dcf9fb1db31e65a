import UltimateBBSBox.Archive.Store
import UltimateBBSBox.Deployment.Tree
import UltimateBBSBox.Library.Layout
import UltimateBBSBox.Library.PosixPath

/-!
# Backup and restore of living state

`backup_live_state` and `restore_live_state` of `ubb_integrations/hardening.py`.  Both work
through one list of files, entry by entry: the backup copies a file and notes its path and
digest, the restore checks an entry and copies it.

The roots are places, as `resolve()` gives them.  What `rglob("*")` finds below the live root
is given as the list of paths relative to it; that it is sorted is not used.
-/

namespace UltimateBBSBox.Integrations.Hardening

open Act FileSystem
open Archive (Bytes MetadataFile Value)
open Deployment (Sha256 asPosix)

/-! ## Files, exceptions and the process -/

/-- A regular file: its bytes, and what is read of them as a JSON text. -/
structure File where
  data : Bytes
  json : MetadataFile

abbrev Disk : Type := FileSystem Text File

/-- The names on the way to a place, or from one place to another. -/
abbrev Path : Type := List Text

/-- The `ValueError`s of the module, and what they quote. -/
inductive LiveError
  | liveMissing (root : Path)
  | symlink (source : Path)
  | unverified
  | manifestMissing
  | unsafePath (path : Text)
  | checksumFailed (path : Text)
deriving DecidableEq

/-- `str(path)` of an absolute path. -/
def shown (place : Path) : Text := .of "/" ++ asPosix place

def LiveError.message : LiveError → Text
  | .liveMissing root => .of "live state directory is missing: " ++ shown root
  | .symlink source => .of "symlinks are not valid live-state backup inputs: " ++ shown source
  | .unverified => .of "restore requires a verified preservation artifact"
  | .manifestMissing => .of "backup manifest is missing"
  | .unsafePath path => .of "unsafe backup path: " ++ path
  | .checksumFailed path => .of "backup checksum failed: " ++ path

/-- What the two functions raise. -/
inductive Exn
  | live (e : LiveError)
  | os (e : Errno)
  | other (e : Archive.Exn)
deriving DecidableEq

abbrev Prog (α : Type) : Type := Act Disk Exn α

/-- An operation on files. -/
def onDisk {α : Type} (act : Act Disk Errno α) : Prog α := act.mapError .os

/-- A look at a value. -/
def onValue {α : Type} (result : Except Archive.Exn α) : Prog α := Act.ofExcept (result.mapError .other)

/-- The hash, the clock, and the text of `json.dumps` with a newline. -/
structure Environment where
  sha256 : Sha256
  now : Text
  dumps : Value → Bytes

/-- What `write_text` makes of a manifest. -/
def Environment.written (E : Environment) (manifest : Value) : File :=
  ⟨E.dumps manifest, .document manifest.sortKeys⟩

/-- A process in which digests are told apart by the length of the data. -/
def sampleEnvironment : Environment where
  sha256 := ⟨fun data => List.replicate 32 (UInt8.ofNat data.length), fun _ => List.length_replicate⟩
  now := .of "2026-01-01T00:00:00+00:00"
  dumps _ := [0]

def manifestName : Text := .of "backup-manifest.json"

/-! ## `backup_live_state` -/

/-- `any(part in exclude_names for part in path)`. -/
def Excluded (excludeNames : List Text) (path : Path) : Prop := ∃ part ∈ path, part ∈ excludeNames

instance (excludeNames : List Text) (path : Path) : Decidable (Excluded excludeNames path) :=
  List.decidableBEx _ _

/-- The bytes of a file that is there. -/
def content (path : Path) : Prog File := do
  let fs ← get
  match fs.stat (named path) with
  | some (.file file) => return file
  | _ => throw (.os .notFound)

section Functions

variable (E : Environment)

/-- An entry of `files`. -/
def entryOf (path : Path) (file : File) : Value :=
  .object [(.of "path", .text (asPosix path)), (.of "size", .number (.int file.data.length)),
    (.of "sha256", .text (E.sha256.hexdigest file.data))]

/-- The loop of `backup_live_state`. -/
def copyLive (liveRoot destination : Path) (excludeNames : List Text) : List Path → Prog (List Value)
  | [] => return []
  | relative :: rest => do
      let fs ← get
      let source := liveRoot ++ relative
      if fs.isSymlink (named source) = true then
        throw (.live (.symlink source))
      if fs.isFile (named source) = false ∨ Excluded excludeNames relative then
        copyLive liveRoot destination excludeNames rest
      else do
        let target := destination ++ relative
        onDisk (makeDirectories true target.dropLast)
        onDisk (copyFile (named source) (named target))
        let file ← content source
        let others ← copyLive liveRoot destination excludeNames rest
        return entryOf E relative file :: others

/-- The dictionary of `backup_live_state`. -/
def manifestOf (integration release : Text) (liveRoot : Path) (files : List Value) : Value :=
  .object [(.of "format", .text (.of "ubb-live-backup-v1")), (.of "integration", .text integration),
    (.of "release", .text release), (.of "created_at", .text E.now),
    (.of "source", .text (shown liveRoot)), (.of "files", .array files)]

/-- `backup_live_state`, where `found` is below the live root. -/
def backupLiveState (found : List Path) (liveRoot destination : Path) (integration release : Text)
    (excludeNames : List Text) : Prog Value := do
  let fs ← get
  if fs.isDir (named liveRoot) = false then
    throw (.live (.liveMissing liveRoot))
  onDisk (makeDirectories false destination)
  let files ← copyLive E liveRoot destination excludeNames found
  let manifest := manifestOf E integration release liveRoot files
  onDisk (write (named (destination ++ [manifestName])) (E.written manifest))
  return manifest

/-! ## `restore_live_state` -/

/-- `json.loads(path.read_text(encoding="utf-8"))`. -/
def loadJson (file : File) : Except Archive.Exn Value :=
  match file.json with
  | .unreadable => .error (.foreign .osError)
  | .undecodable => .error (.foreign .unicodeDecodeError)
  | .unparsable => .error (.foreign .valueError)
  | .document value => .ok value

/-- The path of an entry, as it is written and below the roots. -/
def safePath (item : Value) : Except Exn (Text × Path) := do
  let path ← ((item.item "path").bind Value.toText).mapError .other
  let relative := PosixPath.ofText path
  if relative.IsAbsolute ∨ .of ".." ∈ relative.parts then
    throw (.live (.unsafePath path))
  return (path, relative.parts)

/-- The checks of an entry: its path, or what is raised. -/
def checkEntry (fs : Disk) (backupRoot : Path) (item : Value) : Except Exn (Text × Path) := do
  let (path, relative) ← safePath item
  match fs.stat (named (backupRoot ++ relative)) with
  | some (.file file) => do
      let sha256 ← (item.item "sha256").mapError .other
      if sha256.isText (E.sha256.hexdigest file.data) = false then
        throw (.live (.checksumFailed path))
      return (path, relative)
  | _ => throw (.live (.checksumFailed path))

/-- The loop of `restore_live_state`. -/
def restoreFiles (backupRoot targetRoot : Path) : List Value → Prog (List Value)
  | [] => return []
  | item :: rest => do
      let fs ← get
      let (path, relative) ← Act.ofExcept (checkEntry E fs backupRoot item)
      let target := targetRoot ++ relative
      onDisk (makeDirectories true target.dropLast)
      onDisk (copyFile (named (backupRoot ++ relative)) (named target))
      let others ← restoreFiles backupRoot targetRoot rest
      return .text path :: others

/-- The manifest of a backup, and its entries. -/
def manifestItems (fs : Disk) (backupRoot : Path) : Except Exn (Value × List Value) :=
  match fs.stat (named (backupRoot ++ [manifestName])) with
  | some (.file file) => do
      let manifest ← (loadJson file).mapError .other
      let files ← (manifest.get "files" (.array [])).mapError .other
      let items ← files.elements.mapError .other
      return (manifest, items)
  | _ => .error (.live .manifestMissing)

/-- `restore_live_state`. -/
def restoreLiveState (backupRoot targetRoot : Path) (verifiedArtifact : Bool) : Prog Value := do
  if verifiedArtifact = false then
    throw (.live .unverified)
  let fs ← get
  let (manifest, items) ← Act.ofExcept (manifestItems fs backupRoot)
  let restored ← restoreFiles E backupRoot targetRoot items
  let integration ← onValue (manifest.get "integration" .null)
  let release ← onValue (manifest.get "release" .null)
  return .object [(.of "integration", integration), (.of "release", release),
    (.of "restored", .array restored)]

end Functions

end UltimateBBSBox.Integrations.Hardening

import Mathlib.Data.List.Sort
import Mathlib.Data.String.Basic
import UltimateBBSBox.Library.Tar

/-!
# The backup manager

`manager.py` of `ubb_backup`.  `create` archives the living state of a target in a
staging directory, then makes the directory of the backup, moves the payload there
and writes `manifest.json` and `backup-manifest.json`.

A call may fail or be cut off after any of its file operations; `Fate` says after
how many.  A JSON file that has been opened but not written reads as `torn`.  The
digest of a payload is a parameter.  A target and its backups stand for names of
directories beneath the root.
-/

namespace UltimateBBSBox.Backup

open Tar

/-! ## Living state -/

/-- The contents of a file. -/
abbrev Bytes : Type := List UInt8

/-- What a path beneath a living-state root is. -/
inductive Entry | directory | regular (inode : ℕ) | symlink
deriving DecidableEq

/-- What a name in a directory can be. -/
def IsName (name : String) : Prop := name ∉ ["", ".", ".."] ∧ '/' ∉ name.toList

instance (name : String) : Decidable (IsName name) := inferInstanceAs (Decidable (_ ∧ _))

/-- The entries beneath a living-state root, and what its inodes hold. -/
structure Tree where
  entries : Dict Parts Entry
  content : ℕ → Bytes
  names : ∀ path entry, entries.get? path = some entry → ∀ name ∈ path, IsName name
  /-- Only directories have something beneath them. -/
  leaves : ∀ path entry, entries.get? path = some entry → entry ≠ .directory →
    ∀ path' entry', entries.get? path' = some entry' → ¬ Beneath path' path

/-! ## Declarations, manifests and the root -/

/-- An entry of `declarations`, without its `source`. -/
structure Declaration where
  included : List String
  excluded : List String
  consistency : String

/-- The defaults of `declare`. -/
def Declaration.default : Declaration where
  included := ["config", "users", "messages", "files_metadata", "uploads"]
  excluded := ["software", "cache", "logs", "tmp"]
  consistency := "stopped"

/-- `BackupManifest`. -/
structure Manifest where
  backupId : String
  targetId : String
  createdAt : String
  payload : String
  payloadSha256 : String
  components : List String
  excluded : List String
  consistency : String
  verification : String
deriving DecidableEq

/-- `payload.tar`. -/
inductive Payload | torn | whole (members : List (Member Bytes))
deriving DecidableEq

/-- A JSON file with a manifest. -/
inductive JsonFile | missing | torn | whole (manifest : Manifest)
deriving DecidableEq

/-- A directory beneath the backup root. -/
structure Folder where
  payload : Option Payload := none
  /-- `manifest.json`. -/
  manifest : JsonFile := .missing
  /-- `backup-manifest.json`. -/
  evidence : JsonFile := .missing
  /-- `st_mtime` of `backup-manifest.json`. -/
  mtime : ℕ := 0
deriving DecidableEq

/-- The directories beneath the backup root. -/
abbrev Root : Type := Dict String Folder

/-- What the methods raise. -/
inductive Failure
  | backupError (message : String)
  | osError
  | jsonDecodeError
deriving DecidableEq

/-! ## `create` -/

/-- `PurePath.is_absolute`, on parts. -/
def isAbsolute (path : Parts) : Bool := path.head? = some "/"

/-- Whether the loop passes over a path that is no symlink. -/
def passedOver (excluded : List String) (path : Parts) : Bool :=
  isAbsolute path || ".." ∈ path || path.any fun part => part ∈ excluded

/-- `sorted(d['source'].rglob('*'))`. -/
def Tree.sorted (tree : Tree) : List (Parts × Entry) :=
  tree.entries.entries.insertionSort fun first second => first.1 ≤ second.1

/-- The loop of `create` over the entries. -/
def archive (content : ℕ → Bytes) (excluded : List String) :
    Dict ℕ Parts → List (Parts × Entry) → Except Failure (List (Member Bytes))
  | _, [] => .ok []
  | inodes, (path, entry) :: rest =>
      match entry with
      | .symlink =>
          let rel := "/".intercalate path
          .error (.backupError s!"unsafe symlink in living state: {rel}")
      | .directory => archive content excluded inodes rest
      | .regular inode =>
          if passedOver excluded path then archive content excluded inodes rest
          else do
            let (member, inodes) := add inodes path inode (content inode)
            let members ← archive content excluded inodes rest
            return member :: members

/-- A call of `create`, and the living state it finds, if its root is a directory. -/
structure Request where
  target : String
  activeSessions : ℕ
  consistency : Option String
  tree : Option Tree

/-- How far a call comes: `done` counts its file operations. -/
inductive Fate | completes | fails (done : ℕ) | crashes (done : ℕ)

/-- What a call finds and draws: `stamp`, `uuid4().hex[:8]`, the name of the staging
directory, the time of the manifest and that of `backup-manifest.json`. -/
structure Environment where
  stamp : String
  suffix : String
  staging : String
  createdAt : String
  mtime : ℕ
  fate : Fate

/-- `bid`. -/
def backupId (request : Request) (env : Environment) : String :=
  s!"{request.target}-{env.stamp}-{env.suffix}"

/-- The tests of `create` before it writes anything. -/
def checkRequest (declarations : Dict String Declaration) (request : Request) :
    Except Failure (Declaration × String × Tree) :=
  match declarations.get? request.target with
  | none => .error (.backupError s!"backup target is not registered: {request.target}")
  | some declaration =>
      let mode := (request.consistency.filter (· ≠ "")).getD declaration.consistency
      if mode ∉ ["stopped", "live_best_effort"] then
        .error (.backupError "invalid consistency mode")
      else if mode = "stopped" ∧ request.activeSessions ≠ 0 then
        .error (.backupError "active callers prevent stopped-consistency backup")
      else match request.tree with
        | none => .error (.backupError "registered living-state root is missing")
        | some tree => .ok (declaration, mode, tree)

/-- The manifest of a backup. -/
def manifestOf (sha256 : List (Member Bytes) → String) (declaration : Declaration)
    (mode : String) (request : Request) (env : Environment) (members : List (Member Bytes)) :
    Manifest where
  backupId := backupId request env
  targetId := request.target
  createdAt := env.createdAt
  payload := "payload.tar"
  payloadSha256 := sha256 members
  components := declaration.included
  excluded := declaration.excluded
  consistency := mode
  verification := "READY"

/-- `mkdtemp` and the archive in the staging directory. -/
def stagingOperations (env : Environment) (members : List (Member Bytes)) : List (Root → Root) :=
  [fun root => root.set env.staging {},
    fun root => root.set env.staging { payload := some .torn },
    fun root => root.set env.staging { payload := some (.whole members) }]

/-- From `final.mkdir` to `rmtree`. -/
def publishingOperations (env : Environment) (members : List (Member Bytes))
    (manifest : Manifest) : List (Root → Root) :=
  let bid := manifest.backupId
  let moved : Folder := { payload := some (.whole members) }
  let listed : Folder := { moved with manifest := .whole manifest }
  [fun root => root.set bid {},
    fun root => (root.set env.staging {}).set bid moved,
    fun root => root.set bid { moved with manifest := .torn },
    fun root => root.set bid listed,
    fun root => root.set bid { listed with evidence := .torn, mtime := env.mtime },
    fun root => root.set bid { listed with evidence := .whole manifest, mtime := env.mtime },
    fun root => root.pop env.staging]

/-- What a call returns or raises; `none` if it was cut off. -/
abbrev Outcome : Type := Option (Except Failure Manifest)

/-- The root after the first file operations. -/
def perform (operations : List (Root → Root)) (done : ℕ) (root : Root) : Root :=
  (operations.take done).foldl (fun root operation => operation root) root

/-- Run file operations as far as a call comes; what they raise is raised after them. -/
def carryOut (operations : List (Root → Root)) (result : Except Failure Manifest)
    (env : Environment) (root : Root) : Outcome × Root :=
  match env.fate with
  | .crashes done => (none, perform operations done root)
  | .fails done =>
      if done < operations.length then
        (some (.error .osError), (perform operations done root).pop env.staging)
      else (some result, (perform operations done root).pop env.staging)
  | .completes => (some result, (perform operations operations.length root).pop env.staging)

/-- `create`. -/
def create (sha256 : List (Member Bytes) → String) (declarations : Dict String Declaration)
    (request : Request) (env : Environment) (root : Root) : Outcome × Root :=
  match checkRequest declarations request with
  | .error failure => (some (.error failure), root)
  | .ok (declaration, mode, tree) =>
      match archive tree.content declaration.excluded ∅ tree.sorted with
      | .error failure => carryOut ((stagingOperations env []).take 2) (.error failure) env root
      | .ok members =>
          let manifest := manifestOf sha256 declaration mode request env members
          if (root.get? manifest.backupId).isSome ∨ manifest.backupId = env.staging then
            carryOut (stagingOperations env members) (.error .osError) env root
          else
            carryOut (stagingOperations env members ++ publishingOperations env members manifest)
              (.ok manifest) env root

/-! ## Reading backups -/

/-- The manifest of a file that parses. -/
def JsonFile.manifest? : JsonFile → Option Manifest
  | .whole manifest => some manifest
  | .missing | .torn => none

/-- `list`. -/
def list (root : Root) (target : Option String) : List Manifest :=
  (root.sortKeys.values.filterMap fun folder => folder.manifest.manifest?).filter fun manifest =>
    target = none ∨ target = some manifest.targetId

/-- `show`. -/
def showBackup (root : Root) (bid : String) : Except Failure Manifest :=
  match root.get? bid with
  | none => .error (.backupError "backup not found")
  | some folder =>
      match folder.manifest with
      | .missing => .error (.backupError "backup not found")
      | .torn => .error .jsonDecodeError
      | .whole manifest => .ok manifest

/-- The members of a payload, where the file is there and whole. -/
def payloadMembers (root : Root) (bid name : String) : Option (List (Member Bytes)) :=
  match (root.get? bid).bind fun folder =>
      if name = "payload.tar" then folder.payload else none with
  | some (.whole members) => some members
  | some .torn | none => none

/-- A member that `verify` and `restore` refuse. -/
def unsafeMember (member : Member Bytes) : Bool :=
  isAbsolute member.name || ".." ∈ member.name || member.isLink

/-- `verify`. -/
def verify (sha256 : List (Member Bytes) → String) (root : Root) (bid : String) :
    Except Failure Manifest := do
  let manifest ← showBackup root bid
  match payloadMembers root bid manifest.payload with
  | none => .error (.backupError "backup checksum failed")
  | some members =>
      if sha256 members ≠ manifest.payloadSha256 then
        .error (.backupError "backup checksum failed")
      else if members.any unsafeMember then .error (.backupError "unsafe backup payload")
      else .ok { manifest with verification := "PASS" }

/-- `restore_plan`, without the paths it repeats. -/
def restorePlan (root : Root) (bid target : String) : Except Failure (List String) := do
  let manifest ← showBackup root bid
  if manifest.targetId ≠ target then .error (.backupError "backup target mismatch")
  else .ok manifest.components

/-- `restore` into a directory with these files. -/
def restore (sha256 : List (Member Bytes) → String) (root : Root) (bid target : String)
    (verified : Bool) (destination : Dict Parts Bytes) : Except Failure (Dict Parts Bytes) := do
  if verified = false then discard (verify sha256 root bid)
  let _ ← restorePlan root bid target
  match payloadMembers root bid "payload.tar" with
  | none => .error .osError
  | some members =>
      if members.any unsafeMember then .error (.backupError "unsafe restore payload")
      else match extractAll destination members with
        | none => .error .osError
        | some files => .ok files

end UltimateBBSBox.Backup

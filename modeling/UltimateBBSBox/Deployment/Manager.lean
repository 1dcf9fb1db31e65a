import Mathlib.Data.List.Infix
import UltimateBBSBox.Archive.ReadBack
import UltimateBBSBox.Deployment.Tree

/-!
# Deployments

`DeploymentManager` of `ubb_deployment/manager.py`, over the archive and the directories
that it reads and writes.

A deployment is verified against the digest in its manifest: whatever its directory
`assets` holds later, `verify` returns true if and only if the files and their content
are those that were materialized and the artifact is still in order
(`verify_eq_true_iff`).

Where a path leads is taken as it is (`Resolution`), and so is the text of values that are no
texts.  The staging directory is seen by no other function and is left out here.
-/

namespace UltimateBBSBox.Deployment

open Act Faulty
open Archive (Bytes Fields MetadataFile Value)
open CodePoint (ofChar)

/-! ## The disk -/

/-- What is stored in the archive under a digest. -/
inductive Object
  | file (data : Bytes)
  | directory (below : Directory)

/-- A directory outside of the archive, as far as the manager looks: what is read of its
`deployment-manifest.json`, and its directory `assets`. -/
structure Place where
  manifest : Option MetadataFile
  assets : Option Directory

/-- The archive: metadata by the stems of the files, objects by digest; and the
directories that are there by their paths. -/
structure Disk where
  metadata : Dict Text MetadataFile
  objects : Dict Text Object
  places : Dict Path Place

/-- `str(path)` of an absolute path. -/
def printed (path : Path) : Text := ofChar '/' :: asPosix path

/-- `pathlib.Path(text).resolve()`: a path that was resolved leads to itself. -/
structure Resolution where
  resolve : Text → Path
  resolve_printed : ∀ text, resolve (printed (resolve text)) = resolve text

/-- What a process knows apart from the disk: the hash, where paths lead, and `str(value)`
of values that are no texts. -/
structure Environment where
  sha256 : Sha256
  resolution : Resolution
  str : Value → Text

/-- `DeploymentManager`. -/
structure Manager where
  archive : Path
  root : Path

/-- `DeploymentManager(archive_root, deployment_root)`. -/
def Manager.init (E : Environment) (archiveRoot deploymentRoot : Text) : Manager where
  archive := E.resolution.resolve archiveRoot
  root := E.resolution.resolve deploymentRoot

/-- `raise DeploymentError(message)`. -/
def deploymentError {α : Type} (message : String) : Except Exn α := .error (.deploymentError message)

/-- What the archive and its values raise. -/
def lift {α : Type} (result : Except Archive.Exn α) : Except Exn α := result.mapError .other

/-! ## Metadata -/

/-- `_metadata`: the document, the name of the object and the digest. -/
def metadata (E : Environment) (disk : Disk) (artifactId : Text) :
    Except Exn (Value × Text × Text) := do
  let doc ← match disk.metadata.get? artifactId with
    | some (.document value) => .ok value
    | _ => deploymentError "preserved artifact metadata unavailable"
  let rights ← lift (doc.get "rights" (.object []))
  let permission ← lift (rights.get "install_locally" .null)
  if permission matches .bool false then
    deploymentError "artifact is not permitted for local installation"
  let artifact ← lift (doc.get "artifact" (.object []))
  let digest ← lift (artifact.get "sha256" .null)
  if digest.truthy = false then
    deploymentError "artifact SHA-256 missing"
  let digest ← lift digest.toText
  let name ← lift (Archive.objectPath digest)
  match disk.objects.get? name with
  | none => deploymentError "preserved artifact object missing"
  | some (.directory _) => .error (.other (.foreign .osError))
  | some (.file data) =>
      if E.sha256.hexdigest data ≠ digest then
        deploymentError "preserved artifact verification failed"
      else return (doc, name, digest)

/-! ## Materializing -/

/-- The arguments of `materialize`, and the time of it. -/
structure Request where
  serviceId : Text
  integrationId : Text
  artifactId : Text
  targetRoot : Text
  release : Option Text
  derivedArtifactId : Option Text
  mode : Text
  stateScope : Text
  sharedStateId : Option Text
  now : Text

/-- `DeploymentManifest`. -/
structure Manifest where
  schemaVersion : ℤ
  serviceId : Text
  integrationId : Text
  release : Option Text
  artifactId : Text
  artifactSha256 : Text
  derivedArtifactId : Option Text
  materializedAt : Text
  materializationMode : Text
  targetRoot : Text
  treeSha256 : Text
  stateScope : Text
  sharedStateId : Option Text

/-- A text, or `None`. -/
def ofOption : Option Text → Value
  | some text => .text text
  | none => .null

/-- `to_dict`. -/
def Manifest.toDict (manifest : Manifest) : Fields :=
  [(.of "schema_version", .number (.int manifest.schemaVersion)),
    (.of "service_id", .text manifest.serviceId),
    (.of "integration_id", .text manifest.integrationId),
    (.of "release", ofOption manifest.release),
    (.of "artifact_id", .text manifest.artifactId),
    (.of "artifact_sha256", .text manifest.artifactSha256),
    (.of "derived_artifact_id", ofOption manifest.derivedArtifactId),
    (.of "materialized_at", .text manifest.materializedAt),
    (.of "materialization_mode", .text manifest.materializationMode),
    (.of "target_root", .text manifest.targetRoot),
    (.of "tree_sha256", .text manifest.treeSha256),
    (.of "state_scope", .text manifest.stateScope),
    (.of "shared_state_id", ofOption manifest.sharedStateId)]

/-- What is read back of `deployment-manifest.json`. -/
def Manifest.written (manifest : Manifest) : MetadataFile :=
  .document (Value.object manifest.toDict).sortKeys

/-- The directory of one file. -/
def Directory.single (name : Text) (data : Bytes) (h : IsName name) : Directory :=
  ⟨.file name data .done, h, List.not_mem_nil, trivial⟩

/-- What is copied to `assets`. -/
def payloadOf (disk : Disk) (name : Text) : Except Exn Directory :=
  match disk.objects.get? name with
  | some (.directory below) => .ok below
  | some (.file data) =>
      if h : IsName name then .ok (.single name data h) else .error (.other (.foreign .osError))
  | none => .error (.other (.foreign .osError))

/-- `mkdir(parents=True, exist_ok=True)`, for the directories of the list. -/
def mkdirs (paths : List Path) (disk : Disk) : Disk :=
  { disk with
    places := paths.foldl
      (fun places path => if places.get? path = none then places.set path ⟨none, none⟩ else places)
      disk.places }

/-- The operations of `materialize` that may fail. -/
inductive Step
  | mkdtemp
  | mkdirPayload
  | copy
  | mkdirParents
  | writeManifest
  | replace

section Materialize

variable (E : Environment) (manager : Manager) (failures : Step → Option (Exn × ℕ))

/-- The end of `materialize`: the target must not be there. -/
def publish (target : Path) (place : Place) : Act Disk Exn Unit := do
  let disk ← get
  if disk.places.get? target ≠ none then
    throw (.deploymentError "deployment target already exists")
  attempt (failures .replace) (fun _ => id)
    fun disk => { disk with places := disk.places.set target place }

/-- `materialize`. -/
def materialize (request : Request) : Act Disk Exn Manifest := do
  if request.stateScope ∉ [Text.of "per_deployment", Text.of "shared"] then
    throw (.deploymentError "invalid state scope")
  if request.stateScope = .of "shared" ∧ request.sharedStateId.getD [] = [] then
    throw (.deploymentError "shared state requires an ID")
  let target := E.resolution.resolve request.targetRoot
  if manager.archive <+: target then
    throw (.deploymentError "deployment cannot be inside preservation archive")
  let disk ← get
  let (_, name, digest) ← Act.ofExcept (metadata E disk request.artifactId)
  attempt (failures .mkdtemp) (fun _ => id) id
  attempt (failures .mkdirPayload) (fun _ => id) id
  let payload ← Act.ofExcept (payloadOf disk name)
  attempt (failures .copy) (fun _ => id) id
  attempt (failures .mkdirParents) (fun reached => mkdirs (target.dropLast.inits.take reached))
    (mkdirs target.dropLast.inits)
  let tree ← Act.ofExcept (treeDigest E.sha256 payload)
  let manifest : Manifest :=
    { schemaVersion := 1
      serviceId := request.serviceId
      integrationId := request.integrationId
      release := request.release
      artifactId := request.artifactId
      artifactSha256 := digest
      derivedArtifactId := request.derivedArtifactId
      materializedAt := request.now
      materializationMode := request.mode
      targetRoot := printed target
      treeSha256 := tree
      stateScope := request.stateScope
      sharedStateId := request.sharedStateId }
  attempt (failures .writeManifest) (fun _ => id) id
  publish failures target ⟨some manifest.written, some payload⟩
  return manifest

end Materialize

/-! ## Reading back -/

section Reading

variable (E : Environment) (manager : Manager) (disk : Disk) (serviceId : Text)

/-- `root/service_id`. -/
def serviceRoot : Text :=
  if serviceId.head? = some (ofChar '/') then serviceId else printed (manager.root ++ [serviceId])

/-- The directory at `root/service_id`. -/
def servicePath : Path := E.resolution.resolve (serviceRoot manager serviceId)

/-- `show`. -/
def shown : Value :=
  match (disk.places.get? (servicePath E manager serviceId)).bind Place.manifest with
  | some (.document value) => value
  | _ => .null

/-- `f"{value}"`. -/
def formatted : Value → Text
  | .text value => value
  | value => E.str value

/-- `verify`. -/
def verify : Except Exn Bool := do
  let doc := shown E manager disk serviceId
  if doc.truthy = false then
    deploymentError "deployment manifest unavailable"
  let targetRoot ← lift (doc.item "target_root")
  let targetRoot ← lift targetRoot.toText
  match disk.places.get? (E.resolution.resolve targetRoot) with
  | none => deploymentError "deployment tree or digest mismatch"
  | some place => do
      let tree ← treeDigest E.sha256 (place.assets.getD ⟨.done, trivial⟩)
      let recorded ← lift (doc.item "tree_sha256")
      if recorded.isText tree = false then
        deploymentError "deployment tree or digest mismatch"
      let artifactId ← lift (doc.item "artifact_id")
      let _ ← metadata E disk (formatted E artifactId)
      return true

end Reading

/-! ## What is put there -/

section Materialize

variable {E : Environment} {manager : Manager} {failures : Step → Option (Exn × ℕ)}

/-- What is published is there. -/
theorem wlp_publish {target : Path} {place : Place} {disk : Disk} :
    wlp (publish failures target place)
      (fun _ disk' => disk'.places.get? target = some place) (fun _ _ => True) disk := by
  unfold publish
  rw [wlp_bind, wlp_get, wlp_ite]
  refine ⟨fun _ => trivial, fun _ => wlp_attempt.mpr ?_⟩
  exact ⟨fun _ => Dict.get?_set_self _ _ _, fun _ _ _ => trivial⟩

/-- What a manifest that is returned says of the directory it is in. -/
theorem wlp_materialize (request : Request) (disk : Disk) :
    wlp (materialize E manager failures request)
      (fun manifest disk' => ∃ payload,
        treeDigest E.sha256 payload = .ok manifest.treeSha256 ∧
        manifest.artifactId = request.artifactId ∧
        manifest.targetRoot = printed (E.resolution.resolve request.targetRoot) ∧
        disk'.places.get? (E.resolution.resolve request.targetRoot) =
          some ⟨some manifest.written, some payload⟩)
      (fun _ _ => True) disk := by
  unfold materialize
  rw [wlp_ite]
  refine ⟨fun _ => trivial, fun _ => ?_⟩
  rw [wlp_ite]
  refine ⟨fun _ => trivial, fun _ => ?_⟩
  rw [wlp_ite]
  refine ⟨fun _ => trivial, fun _ => ?_⟩
  -- of what comes before the digest only the payload matters
  refine wlp_skip fun disk _ => wlp_skip fun found _ => ?_
  refine wlp_skip fun _ _ => wlp_skip fun _ _ => wlp_skip fun payload _ => ?_
  refine wlp_skip fun _ _ => wlp_skip fun _ disk₁ => ?_
  rw [wlp_bind, wlp_ofExcept]
  refine ⟨fun tree htree => ?_, fun _ _ => trivial⟩
  refine wlp_skip fun _ disk₂ => ?_
  rw [wlp_bind]
  refine wlp_mono wlp_publish (fun _ disk' h => ?_) fun _ _ _ => trivial
  exact ⟨payload, htree, rfl, rfl, h⟩

end Materialize

/-! ## Verifying -/

section Verify

variable {E : Environment} {manager : Manager} {disk : Disk} {serviceId : Text}

/-- `verify` where the manifest names a directory that is there. -/
theorem verify_eq_true_of_shown {doc : Value} {targetRoot tree artifactId : Text} {place : Place}
    {assets : Directory} (hshown : shown E manager disk serviceId = doc)
    (htarget : doc.item "target_root" = .ok (.text targetRoot))
    (htree : doc.item "tree_sha256" = .ok (.text tree))
    (hartifact : doc.item "artifact_id" = .ok (.text artifactId))
    (hplace : disk.places.get? (E.resolution.resolve targetRoot) = some place)
    (hassets : place.assets = some assets) :
    verify E manager disk serviceId = .ok true ↔
      treeDigest E.sha256 assets = .ok tree ∧ ∃ found, metadata E disk artifactId = .ok found := by
  have htruthy : doc.truthy = true := Value.truthy_of_item htarget
  unfold verify
  rw [hshown]
  simp only [htruthy, htarget, htree, hartifact, hplace, hassets, lift, Except.mapError, bind,
    Except.bind, Value.toText, Option.getD_some, formatted]
  cases hdigest : treeDigest E.sha256 assets with
  | error e => simp
  | ok digest =>
      -- the archive is asked only where the digests agree
      by_cases heq : tree = digest
      · subst heq
        cases hmetadata : metadata E disk artifactId with
        | error e => simp [Value.isText]
        | ok found => simp [Value.isText, pure, Except.pure]
      · have hne : ¬ digest = tree := fun h => heq h.symm
        simp [Value.isText, heq, hne, deploymentError]

/-- A field of a manifest that was read back. -/
theorem item_written {manifest : Manifest} {key : String} {text : Text}
    (h : Fields.get? manifest.toDict key = some (.text text)) :
    (Value.object manifest.toDict).sortKeys.item key = .ok (.text text) := by
  have hitem : (Value.object manifest.toDict).item key = .ok (.text text) := by
    simp only [Value.item, Fields.item, h]
  rw [Value.item_sortKeys, hitem]
  rfl

/-- Whatever `assets` holds later, a deployment that was materialized at `root/service_id` is
verified if and only if each file has the content that it had, no file was added, and the
artifact is still in order. -/
theorem verify_eq_true_iff {failures : Step → Option (Exn × ℕ)} {request : Request}
    {manifest : Manifest} {disk' : Disk}
    (hrun : (materialize E manager failures request).run disk = some (.ok manifest, disk'))
    (htarget : E.resolution.resolve request.targetRoot = servicePath E manager request.serviceId)
    {file : Option MetadataFile} {payload : Directory}
    (hplace : disk'.places.get? (servicePath E manager request.serviceId) =
      some ⟨file, some payload⟩)
    {later : Disk} {assets : Directory}
    (hlater : later.places.get? (servicePath E manager request.serviceId) =
      some ⟨file, some assets⟩)
    (hinj : Set.InjOn E.sha256.digest (payload.hashed E.sha256 ∪ assets.hashed E.sha256)) :
    verify E manager later request.serviceId = .ok true ↔
      (∀ path, assets.read path = payload.read path) ∧
        ∃ found, metadata E later request.artifactId = .ok found := by
  obtain ⟨payload', htree, hartifact, hroot, hput⟩ := wlp_ok (wlp_materialize request disk) hrun
  rw [htarget, hplace, Option.some.injEq, Place.mk.injEq, Option.some.injEq] at hput
  obtain ⟨rfl, rfl⟩ := hput
  have hshown : shown E manager later request.serviceId = (Value.object manifest.toDict).sortKeys := by
    unfold shown
    rw [hlater]
    rfl
  -- the manifest leads back to the directory it is in
  have hresolved : E.resolution.resolve manifest.targetRoot =
      servicePath E manager request.serviceId := by
    rw [hroot, E.resolution.resolve_printed, htarget]
  rw [verify_eq_true_of_shown hshown (item_written rfl) (item_written rfl) (item_written rfl)
    (hresolved ▸ hlater) rfl, hartifact, treeDigest_eq_iff htree hinj]

end Verify

/-! ## An empty artifact -/

/-- The names of a path without `.`, where there are no links. -/
def plainResolve (text : Text) : Path :=
  (text.splitOn (ofChar '/')).filter fun part => part ≠ [] ∧ part ≠ .of "."

/-- Resolution where there are no links and no `..`. -/
def plainResolution : Resolution where
  resolve := plainResolve
  resolve_printed text := by
    have hsplit : ∀ text : Text, ∀ part ∈ text.splitOn (ofChar '/'), ofChar '/' ∉ part := by
      intro text
      induction text with
      | nil => simp
      | cons c rest ih =>
          rw [List.splitOn_cons_eq_if_modifyHead]
          split
          · exact List.forall_mem_cons.mpr ⟨List.not_mem_nil, ih⟩
          · rename_i hc
            obtain ⟨first, others, heq⟩ := List.exists_cons_of_ne_nil (List.splitOn_ne_nil (ofChar '/') rest)
            rw [heq] at ih ⊢
            obtain ⟨hfirst, hothers⟩ := List.forall_mem_cons.mp ih
            refine List.forall_mem_cons.mpr ⟨?_, hothers⟩
            rintro hmem
            rcases List.mem_cons.mp hmem with rfl | hmem
            · simp at hc
            · exact hfirst hmem
    have hnames : ∀ part ∈ plainResolve text, ofChar '/' ∉ part :=
      fun part hpart => hsplit text part (List.mem_filter.mp hpart).1
    have hkept : ∀ part ∈ plainResolve text, part ≠ [] ∧ part ≠ .of "." :=
      fun part hpart => by simpa using (List.mem_filter.mp hpart).2
    generalize plainResolve text = path at hnames hkept
    cases path with
    | nil => rfl
    | cons name rest =>
        unfold plainResolve printed asPosix
        rw [List.splitOn_cons_eq_if_modifyHead, if_pos (by simp)]
        have hwords := List.splitOn_intercalate (ofChar '/') hnames (List.cons_ne_nil _ _)
        rw [show Text.of "/" = [ofChar '/'] from rfl, hwords, List.filter_cons_of_neg (by simp)]
        exact List.filter_eq_self.mpr fun part hpart => by simpa using hkept part hpart

/-- The digest of the empty input. -/
def emptyDigest : Bytes :=
  [0xe3, 0xb0, 0xc4, 0x42, 0x98, 0xfc, 0x1c, 0x14, 0x9a, 0xfb, 0xf4, 0xc8, 0x99, 0x6f, 0xb9, 0x24,
    0x27, 0xae, 0x41, 0xe4, 0x64, 0x9b, 0x93, 0x4c, 0xa4, 0x95, 0x99, 0x1b, 0x78, 0x52, 0xb8, 0x55]

/-- What is hashed of a directory with one empty file. -/
def emptyFile (name : Text) : Bytes := word ⟨fun _ => emptyDigest, fun _ => rfl⟩ ([name], [])

/-- The name of the object without content. -/
def emptyName : Text := emptyDigest.flatMap hexByte

/-- SHA-256 on the empty input, and of directories that hold one empty file under the name of
the object or the name `BLANK`. -/
def emptySha256 : Sha256 where
  digest data :=
    if data = emptyFile emptyName then
      [0xa7, 0x28, 0xf1, 0xec, 0x05, 0x40, 0xb7, 0x45, 0x10, 0x30, 0x7f, 0xb4, 0x2b, 0x6b, 0xb8, 0x7e,
        0x59, 0xd9, 0x3d, 0xcd, 0xa6, 0x57, 0x99, 0x2a, 0xc4, 0xb4, 0x7b, 0xd7, 0x86, 0xdf, 0xbb, 0x5a]
    else if data = emptyFile (.of "BLANK") then
      [0x1a, 0x79, 0x89, 0x32, 0x5d, 0x00, 0x80, 0xad, 0x5c, 0x14, 0xfd, 0x89, 0x80, 0x85, 0x52, 0xf2,
        0x4e, 0x2d, 0x1f, 0x42, 0x77, 0xa1, 0x44, 0x27, 0x9a, 0x06, 0xb0, 0x5f, 0x42, 0x63, 0xff, 0xc9]
    else emptyDigest
  length_digest data := by split_ifs <;> rfl

def emptyEnvironment : Environment where
  sha256 := emptySha256
  resolution := plainResolution
  str _ := []

def emptyManager : Manager := .init emptyEnvironment (.of "/archive") (.of "/srv")

/-- An archive with the empty object, and no deployments. -/
def emptyDisk : Disk where
  metadata := (∅ : Dict Text MetadataFile).set (.of "blank") (.document (.object
    [(.of "artifact", .object [(.of "sha256", .text emptyName)])]))
  objects := (∅ : Dict Text Object).set emptyName (.file [])
  places := ∅

def emptyRequest : Request where
  serviceId := .of "blank"
  integrationId := .of "blank"
  artifactId := .of "blank"
  targetRoot := .of "/srv/blank"
  release := none
  derivedArtifactId := none
  mode := .of "copy"
  stateScope := .of "per_deployment"
  sharedStateId := none
  now := .of "2026-01-01T00:00:00+00:00"

theorem isName_emptyName : IsName emptyName := by decide

theorem isName_blank : IsName (.of "BLANK") := by decide

/-- What is hashed of a directory with one empty file. -/
theorem hashed_single {name : Text} {h : IsName name}
    (hfed : fed emptySha256 (.single name [] h) [[name]] = .ok (emptyFile name)) :
    (Directory.single name [] h).hashed emptySha256 ⊆ {[], emptyFile name} := by
  rintro bytes (⟨path, hread⟩ | hbytes)
  · left
    unfold Directory.read Directory.single Listing.read Listing.read at hread
    split at hread
    · exact (Option.some.inj hread).symm
    · cases hread
  · right
    exact Except.ok.inj (hbytes.symm.trans hfed)

theorem injOn_emptySha256 :
    Set.InjOn emptySha256.digest {[], emptyFile emptyName, emptyFile (.of "BLANK")} := by
  rintro _ (rfl | rfl | rfl) _ (rfl | rfl | rfl) h
  · rfl
  · exact absurd h (by decide)
  · exact absurd h (by decide)
  · exact absurd h (by decide)
  · rfl
  · exact absurd h (by decide)
  · exact absurd h (by decide)
  · exact absurd h (by decide)
  · rfl

/-- A deployment of the empty object is verified, and no more so when its file has another
name. -/
theorem verify_notices_renaming :
    ∃ manifest disk',
      (materialize emptyEnvironment emptyManager (fun _ => none) emptyRequest).run emptyDisk =
        some (.ok manifest, disk') ∧
      verify emptyEnvironment emptyManager disk' (.of "blank") = .ok true ∧
      verify emptyEnvironment emptyManager
        { disk' with
          places := disk'.places.set [.of "srv", .of "blank"]
            ⟨some manifest.written, some (.single (.of "BLANK") [] isName_blank)⟩ }
        (.of "blank") ≠ .ok true := by
  have hunchanged : (Directory.single emptyName [] isName_emptyName).hashed emptySha256 ⊆
      {[], emptyFile emptyName, emptyFile (.of "BLANK")} :=
    (hashed_single rfl).trans (Set.insert_subset_insert (Set.singleton_subset_iff.mpr (.inl rfl)))
  have hrenamed : (Directory.single (.of "BLANK") [] isName_blank).hashed emptySha256 ⊆
      {[], emptyFile emptyName, emptyFile (.of "BLANK")} :=
    (hashed_single rfl).trans (Set.insert_subset_insert (Set.subset_insert _ _))
  refine ⟨_, _, rfl, ?_, ?_⟩
  · refine (verify_eq_true_iff (rfl : Act.run (materialize emptyEnvironment emptyManager
      (fun _ => none) emptyRequest) emptyDisk = _) rfl rfl rfl ?_).mpr ⟨fun _ => rfl, _, rfl⟩
    exact injOn_emptySha256.mono (Set.union_subset hunchanged hunchanged)
  · intro h
    have hread := ((verify_eq_true_iff (rfl : Act.run (materialize emptyEnvironment emptyManager
      (fun _ => none) emptyRequest) emptyDisk = _) rfl rfl rfl ?_).mp h).1 [emptyName]
    · exact absurd hread (by decide)
    · exact injOn_emptySha256.mono (Set.union_subset hunchanged hrenamed)

end UltimateBBSBox.Deployment

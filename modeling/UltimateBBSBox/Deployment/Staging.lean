import UltimateBBSBox.Archive.Exporting
import UltimateBBSBox.Archive.Preserving
import UltimateBBSBox.Deployment.Manager

/-!
# Materializing by way of a staging directory

`materialize` of `ubb_deployment/manager.py` once more, with the staging directory that
`mkdtemp` makes beside the deployments, and with a failure of any operation, those of
`_metadata` included.

A materialization that raises leaves the target alone, and its staging directory is removed;
one that returns has put one file into the target, with the content of the object.  Outside of
the staging directory it goes on as `Deployment.materialize` (`follows_materialize`).  What
`_metadata` asks of an artifact is less than what `verify_one` of the archive asks:
`failsClosed_iff` says what is missing.
-/

namespace UltimateBBSBox.Deployment.Staged

open Act Faulty
open Archive (Bytes Granted MetadataFile Value isDigest objectPath validateMetadata verifyOne)
open CodePoint (ofChar)

/-! ## The state -/

/-- The staging directory: its directory `assets`, and what is read of its manifest. -/
structure Staging where
  assets : Option Directory
  manifest : Option MetadataFile

/-- The disk, and the staging directory if there is one. -/
structure Workspace where
  disk : Disk
  staging : Option Staging

/-- The operations on files, each of which may fail. -/
inductive Operation
  | objectExists
  | readObject
  | mkdtemp
  | mkdirPayload
  | copy
  | mkdirParents
  | readPayload
  | writeManifest
  | targetExists
  | replace

/-- A manager's process, and the archive's functions in it: there is one SHA-256. -/
structure Host extends Environment where
  archive : Archive.Environment
  sha256_eq : ∀ data, archive.hashes.digest .sha256 data = sha256.hexdigest data

/-! ## `_metadata` -/

/-- The document of an artifact. -/
def documentOf (disk : Disk) (artifactId : Text) : Except Exn Value :=
  match disk.metadata.get? artifactId with
  | some (.document value) => .ok value
  | _ => deploymentError "preserved artifact metadata unavailable"

/-- The digest that a document names, and the name of the object. -/
def objectOf (doc : Value) : Except Exn (Text × Text) := do
  let rights ← lift (doc.get "rights" (.object []))
  let permission ← lift (rights.get "install_locally" .null)
  if permission matches .bool false then
    deploymentError "artifact is not permitted for local installation"
  let artifact ← lift (doc.get "artifact" (.object []))
  let digest ← lift (artifact.get "sha256" .null)
  if digest.truthy = false then
    deploymentError "artifact SHA-256 missing"
  let digest ← lift digest.toText
  let name ← lift (objectPath digest)
  return (digest, name)

section Materialize

variable (E : Environment) (manager : Manager) (failures : Operation → Option (Exn × ℕ))
  (removal : Option (Staging → Staging))

/-- An operation that changes nothing. -/
def look (operation : Operation) : Act Workspace Exn Unit :=
  attempt (failures operation) (fun _ => id) id

/-- `_metadata`: the name of the object, and the digest. -/
def metadata (artifactId : Text) : Act Workspace Exn (Text × Text) := do
  let workspace ← get
  let doc ← Act.ofExcept (documentOf workspace.disk artifactId)
  let (digest, name) ← Act.ofExcept (objectOf doc)
  look failures .objectExists
  match workspace.disk.objects.get? name with
  | none => throw (.deploymentError "preserved artifact object missing")
  | some object => do
      look failures .readObject
      match object with
      | .directory _ => throw (.other (.foreign .osError))
      | .file data =>
          if E.sha256.hexdigest data ≠ digest then
            throw (.deploymentError "preserved artifact verification failed")
          return (name, digest)

/-! ## The staging directory -/

/-- Something is done to the staging directory. -/
def inStaging (change : Staging → Staging) (workspace : Workspace) : Workspace :=
  { workspace with staging := workspace.staging.map change }

/-- The directories above the target; the root is always there. -/
def parents (target : Path) : List Path := target.dropLast.inits.drop 1

/-- `target.parent.mkdir(parents=True, exist_ok=True)`, for the first directories. -/
def makeParents (target : Path) (count : ℕ) (workspace : Workspace) : Workspace :=
  { workspace with disk := mkdirs ((parents target).take count) workspace.disk }

/-- `os.replace(staging, target)`. -/
def move (target : Path) (workspace : Workspace) : Workspace :=
  match workspace.staging with
  | none => workspace
  | some staging =>
      { disk :=
          { workspace.disk with
            places := workspace.disk.places.set target ⟨staging.manifest, staging.assets⟩ }
        staging := none }

/-- The manifest of a request. -/
def manifestOf (request : Request) (target : Path) (digest tree : Text) : Manifest where
  schemaVersion := 1
  serviceId := request.serviceId
  integrationId := request.integrationId
  release := request.release
  artifactId := request.artifactId
  artifactSha256 := digest
  derivedArtifactId := request.derivedArtifactId
  materializedAt := request.now
  materializationMode := request.mode
  targetRoot := printed target
  treeSha256 := tree
  stateScope := request.stateScope
  sharedStateId := request.sharedStateId

/-- The body of the `try`.  What a copy that fails has written is not looked at again. -/
def fill (request : Request) (target : Path) (name digest : Text) : Act Workspace Exn Manifest := do
  let workspace ← get
  attempt (failures .mkdirPayload) (fun _ => id)
    (inStaging fun staging => { staging with assets := some ⟨.done, trivial⟩ })
  let payload ← Act.ofExcept (payloadOf workspace.disk name)
  attempt (failures .copy) (fun _ => id)
    (inStaging fun staging => { staging with assets := some payload })
  attempt (failures .mkdirParents) (makeParents target)
    (makeParents target (parents target).length)
  look failures .readPayload
  let tree ← Act.ofExcept (treeDigest E.sha256 payload)
  let manifest := manifestOf request target digest tree
  attempt (failures .writeManifest)
    (fun _ => inStaging fun staging => { staging with manifest := some .unparsable })
    (inStaging fun staging => { staging with manifest := some manifest.written })
  look failures .targetExists
  let workspace ← get
  if workspace.disk.places.get? target ≠ none then
    throw (.deploymentError "deployment target already exists")
  attempt (failures .replace) (fun _ => id) (move target)
  return manifest

/-- The `finally`: a staging directory that was not moved is removed, or left with what could
not be removed. -/
def removeUnpublished : Act Workspace Exn Unit :=
  modify fun workspace =>
    { workspace with
      staging := match removal with
        | none => none
        | some leave => workspace.staging.map leave }

/-- `materialize`. -/
def materialize (request : Request) : Act Workspace Exn Manifest := do
  if request.stateScope ∉ [Text.of "per_deployment", Text.of "shared"] then
    throw (.deploymentError "invalid state scope")
  if request.stateScope = .of "shared" ∧ request.sharedStateId.getD [] = [] then
    throw (.deploymentError "shared state requires an ID")
  let target := E.resolution.resolve request.targetRoot
  if manager.archive <+: target then
    throw (.deploymentError "deployment cannot be inside preservation archive")
  let (name, digest) ← metadata E failures request.artifactId
  attempt (failures .mkdtemp) (fun _ => id) fun workspace =>
    { workspace with staging := some ⟨none, none⟩ }
  andFinally (fill E failures request target name digest) (removeUnpublished removal)

end Materialize

/-! ## Parts -/

section Parts

variable {E : Environment} {manager : Manager} {failures : Operation → Option (Exn × ℕ)}
  {removal : Option (Staging → Staging)} {workspace : Workspace} {artifactId : Text}

theorem wlp_look {operation : Operation} {Q : Unit → Workspace → Prop}
    {X : Exn → Workspace → Prop} :
    wlp (look failures operation) Q X workspace ↔
      (failures operation = none → Q () workspace) ∧
        ∀ e reached, failures operation = some (e, reached) → X e workspace := wlp_attempt_id

/-- What `_metadata` has found. -/
structure Found (E : Environment) (failures : Operation → Option (Exn × ℕ)) (disk : Disk)
    (artifactId : Text) (doc : Value) (digest name : Text) (data : Bytes) : Prop where
  document : disk.metadata.get? artifactId = some (.document doc)
  object : objectOf doc = .ok (digest, name)
  stored : disk.objects.get? name = some (.file data)
  hash : E.sha256.hexdigest data = digest
  looked : failures .objectExists = none ∧ failures .readObject = none

theorem documentOf_eq_ok_iff {disk : Disk} {doc : Value} :
    documentOf disk artifactId = .ok doc ↔ disk.metadata.get? artifactId = some (.document doc) := by
  unfold documentOf
  split
  · rename_i value hvalue
    rw [hvalue, Except.ok.injEq, Option.some.injEq, MetadataFile.document.injEq]
  · rename_i hnone
    exact iff_of_false (by simp [deploymentError]) (hnone doc)

/-- `_metadata` changes nothing. -/
theorem wlp_metadata :
    wlp (metadata E failures artifactId)
      (fun found workspace' => workspace' = workspace ∧
        ∃ doc data, Found E failures workspace.disk artifactId doc found.2 found.1 data)
      (fun _ workspace' => workspace' = workspace) workspace := by
  unfold metadata
  rw [wlp_bind, wlp_get, wlp_bind, wlp_ofExcept]
  refine ⟨fun doc hdoc => ?_, fun _ _ => rfl⟩
  rw [wlp_bind, wlp_ofExcept]
  refine ⟨fun (digest, name) hobject => ?_, fun _ _ => rfl⟩
  rw [wlp_bind, wlp_look]
  refine ⟨fun hexists => ?_, fun _ _ _ => rfl⟩
  cases hdata : workspace.disk.objects.get? name with
  | none => exact rfl
  | some object =>
      dsimp only
      rw [wlp_bind, wlp_look]
      refine ⟨fun hread => ?_, fun _ _ _ => rfl⟩
      cases object with
      | directory below => exact rfl
      | file data =>
          dsimp only
          rw [wlp_ite]
          refine ⟨fun _ => rfl, fun hhash => ?_⟩
          exact ⟨rfl, doc, data, documentOf_eq_ok_iff.mp hdoc, hobject, hdata, not_not.mp hhash,
            hexists, hread⟩

/-- Where it finds something, it returns that. -/
theorem returns_metadata {doc : Value} {digest name : Text} {data : Bytes}
    (h : Found E failures workspace.disk artifactId doc digest name data) :
    Returns (metadata E failures artifactId)
      (fun found workspace' => found = (name, digest) ∧ workspace' = workspace) workspace := by
  unfold metadata
  rw [returns_bind, returns_get, returns_bind,
    returns_ofExcept_ok (documentOf_eq_ok_iff.mpr h.document), returns_bind,
    returns_ofExcept_ok h.object, returns_bind]
  refine (returns_attempt h.looked.1).mpr ?_
  simp only [id_eq, h.stored]
  refine returns_bind.mpr ((returns_attempt h.looked.2).mpr ?_)
  exact returns_guard.mpr ⟨not_not.mpr h.hash, rfl, rfl⟩

/-! ### The name of an object -/

theorem isDigest_of_objectOf {doc : Value} {digest name : Text}
    (h : objectOf doc = .ok (digest, name)) :
    isDigest .sha256 digest = true ∧ name = digest.map CodePoint.asciiLower := by
  unfold objectOf at h
  obtain ⟨rights, -, h⟩ := Except.bind_eq_ok.mp h
  obtain ⟨permission, -, h⟩ := Except.bind_eq_ok.mp h
  split at h
  · cases h
  · obtain ⟨artifact, -, h⟩ := Except.bind_eq_ok.mp h
    obtain ⟨value, -, h⟩ := Except.bind_eq_ok.mp h
    split at h
    · cases h
    · obtain ⟨text, -, h⟩ := Except.bind_eq_ok.mp h
      obtain ⟨path, hpath, h⟩ := Except.bind_eq_ok.mp h
      obtain ⟨rfl, rfl⟩ := Prod.mk.inj (Except.pure_eq_ok.mp h)
      unfold lift objectPath at hpath
      split at hpath
      · rename_i hdigest
        exact ⟨hdigest, (Except.ok.inj hpath).symm⟩
      · cases hpath

/-- The name of an object is made of hexadecimal digits. -/
theorem isHex_of_objectOf {doc : Value} {digest name : Text}
    (h : objectOf doc = .ok (digest, name)) : name ≠ [] ∧ ∀ c ∈ name, c.isHex = true := by
  obtain ⟨hdigest, rfl⟩ := isDigest_of_objectOf h
  simp only [isDigest, decide_eq_true_eq] at hdigest
  refine ⟨?_, ?_⟩
  · rw [ne_eq, List.map_eq_nil_iff, ← List.length_eq_zero_iff, hdigest.1]
    decide
  · intro c hc
    obtain ⟨c', hc', rfl⟩ := List.mem_map.mp hc
    rw [CodePoint.isHex_asciiLower]
    exact hdigest.2 c' hc'

theorem isName_of_objectOf {doc : Value} {digest name : Text}
    (h : objectOf doc = .ok (digest, name)) : IsName name := by
  obtain ⟨hne, hhex⟩ := isHex_of_objectOf h
  refine ⟨hne, fun hmem => ?_, fun hmem => ?_⟩
  · exact absurd (hhex _ hmem) (by decide)
  · exact absurd (hhex _ hmem) (by decide)

/-- The digest of the payload is computed. -/
theorem exists_treeDigest {name : Text} (data : Bytes) (h : IsName name)
    (hhex : ∀ c ∈ name, c.isHex = true) :
    ∃ tree, treeDigest E.sha256 (.single name data h) = .ok tree := by
  have hpath : asPosix [name] = name := List.intercalate_singleton
  have hencoded : encoded name = .ok name.encode :=
    if_pos (Text.encodable_of_ascii fun c hc => CodePoint.isAscii_of_isHex (hhex c hc))
  have hsorted : (Directory.single name data h).sortedPaths = [[name]] := rfl
  have hread : readBytes (.single name data h) [name] = .ok data := by
    unfold readBytes Directory.read Directory.single Listing.read
    rw [if_pos rfl]
  unfold treeDigest
  rw [hsorted]
  simp only [fed, hpath, hencoded, hread, bind, Except.bind, pure, Except.pure]
  exact ⟨_, rfl⟩

/-! ### Directories above the target -/

theorem notMem_parents (target : Path) : target ∉ parents target := by
  intro hmem
  have hinits : target ∈ target.dropLast.inits := List.mem_of_mem_drop hmem
  have hlength := (List.mem_inits _ _ |>.mp hinits).length_le
  rw [List.length_dropLast] at hlength
  cases target with
  | nil => cases hmem
  | cons name rest =>
      rw [List.length_cons] at hlength
      omega

theorem get?_mkdirs {paths : List Path} {target : Path} (h : target ∉ paths) (disk : Disk) :
    (mkdirs paths disk).places.get? target = disk.places.get? target := by
  unfold mkdirs
  dsimp only
  generalize disk.places = places
  induction paths generalizing places with
  | nil => rfl
  | cons path rest ih =>
      obtain ⟨hpath, hrest⟩ := not_or.mp (mt List.mem_cons.mpr h)
      rw [List.foldl_cons, ih hrest]
      split
      · exact Dict.get?_set_ne _ _ hpath
      · rfl

theorem get?_makeParents (target : Path) (count : ℕ) (workspace : Workspace) :
    (makeParents target count workspace).disk.places.get? target =
      workspace.disk.places.get? target :=
  get?_mkdirs (fun hmem => notMem_parents target (List.mem_of_mem_take hmem)) _

/-! ### The body and the whole -/

/-- The operations of the body. -/
def bodyOperations : List Operation :=
  [.mkdirPayload, .copy, .mkdirParents, .readPayload, .writeManifest, .targetExists, .replace]

theorem payloadOf_file {disk : Disk} {name : Text} {data : Bytes}
    (h : disk.objects.get? name = some (.file data)) (hname : IsName name) :
    payloadOf disk name = .ok (.single name data hname) := by
  unfold payloadOf
  rw [h]
  exact dif_pos hname

/-- The body either leaves the target alone, or has moved the staging directory there. -/
theorem wlp_fill {request : Request} {target : Path} {name digest : Text} {data : Bytes}
    {disk : Disk} {staging : Staging} (hdata : disk.objects.get? name = some (.file data))
    (hname : IsName name) :
    wlp (fill E failures request target name digest)
      (fun manifest workspace' =>
        ((∀ operation ∈ bodyOperations, failures operation = none) ∧
          disk.places.get? target = none) ∧
        manifest.artifactSha256 = digest ∧ workspace'.staging = none ∧
        workspace'.disk.places.get? target =
          some ⟨some manifest.written, some (.single name data hname)⟩)
      (fun _ workspace' => workspace'.disk.places.get? target = disk.places.get? target)
      ⟨disk, some staging⟩ := by
  unfold fill
  rw [wlp_bind, wlp_get, wlp_bind, wlp_attempt]
  refine ⟨fun hmkdir => ?_, fun _ _ _ => rfl⟩
  rw [wlp_bind, payloadOf_file hdata hname, wlp_ofExcept]
  refine ⟨fun payload hpayload => ?_, fun _ _ => rfl⟩
  obtain rfl := Except.ok.inj hpayload
  rw [wlp_bind, wlp_attempt]
  refine ⟨fun hcopy => ?_, fun _ _ _ => rfl⟩
  -- directories are made above the target only
  rw [wlp_bind, wlp_attempt]
  refine ⟨fun hparents => ?_, fun _ _ _ => get?_makeParents _ _ _⟩
  have hsame := get?_makeParents target (parents target).length ⟨disk, some staging⟩
  rw [wlp_bind, wlp_look]
  refine ⟨fun hread => ?_, fun _ _ _ => hsame⟩
  rw [wlp_bind, wlp_ofExcept]
  refine ⟨fun tree _ => ?_, fun _ _ => hsame⟩
  rw [wlp_bind, wlp_attempt]
  refine ⟨fun hwrite => ?_, fun _ _ _ => hsame⟩
  rw [wlp_bind, wlp_look]
  refine ⟨fun hexists => ?_, fun _ _ _ => hsame⟩
  rw [wlp_bind, wlp_get, wlp_ite]
  refine ⟨fun _ => hsame, fun habsent => ?_⟩
  rw [wlp_bind, wlp_attempt]
  refine ⟨fun hreplace => ?_, fun _ _ _ => hsame⟩
  refine ⟨⟨?_, ?_⟩, rfl, rfl, Dict.get?_set_self _ _ _⟩
  · simp only [bodyOperations, List.forall_mem_cons, List.not_mem_nil, false_implies, implies_true,
      and_true]
    exact ⟨hmkdir, hcopy, hparents, hread, hwrite, hexists, hreplace⟩
  · exact hsame.symm.trans (not_not.mp habsent)

/-- Where nothing fails and the target is not there, the body returns. -/
theorem returns_fill {request : Request} {target : Path} {name digest tree : Text} {data : Bytes}
    {disk : Disk} {staging : Staging} (hdata : disk.objects.get? name = some (.file data))
    (hname : IsName name) (htree : treeDigest E.sha256 (.single name data hname) = .ok tree)
    (hfailures : ∀ operation, failures operation = none)
    (habsent : disk.places.get? target = none) :
    Returns (fill E failures request target name digest) (fun _ _ => True)
      ⟨disk, some staging⟩ := by
  unfold fill
  have hsame := get?_makeParents target (parents target).length ⟨disk, some staging⟩
  rw [returns_bind, returns_get, returns_bind, returns_attempt (hfailures _), returns_bind,
    payloadOf_file hdata hname, returns_ofExcept_ok rfl, returns_bind,
    returns_attempt (hfailures _), returns_bind, returns_attempt (hfailures _), returns_bind]
  refine (returns_attempt (hfailures _)).mpr ?_
  rw [returns_bind, returns_ofExcept_ok htree, returns_bind, returns_attempt (hfailures _),
    returns_bind]
  refine (returns_attempt (hfailures _)).mpr ?_
  rw [returns_bind, returns_get]
  refine returns_guard.mpr ⟨not_not.mpr (hsame.trans habsent), ?_⟩
  rw [returns_bind, returns_attempt (hfailures _)]
  exact trivial

theorem total_metadata : Total (metadata E failures artifactId) := by
  unfold metadata
  refine total_bind total_get fun workspace => total_bind (total_ofExcept _) fun doc => ?_
  refine total_bind (total_ofExcept _) fun found => total_bind (total_attempt _ _ _) fun _ => ?_
  split
  · exact total_throw _
  · refine total_bind (total_attempt _ _ _) fun _ => ?_
    split
    · exact total_throw _
    · exact total_guard (total_pure _)

theorem total_fill {request : Request} {target : Path} {name digest : Text} :
    Total (fill E failures request target name digest) := by
  unfold fill
  refine total_bind total_get fun workspace => total_bind (total_attempt _ _ _) fun _ => ?_
  refine total_bind (total_ofExcept _) fun payload => total_bind (total_attempt _ _ _) fun _ => ?_
  refine total_bind (total_attempt _ _ _) fun _ => total_bind (total_attempt _ _ _) fun _ => ?_
  refine total_bind (total_ofExcept _) fun tree => total_bind (total_attempt _ _ _) fun _ => ?_
  refine total_bind (total_attempt _ _ _) fun _ => total_bind total_get fun workspace => ?_
  exact total_guard (total_bind (total_attempt _ _ _) fun _ => total_pure _)

/-- It always comes back. -/
theorem total_materialize (request : Request) :
    Total (materialize E manager failures removal request) := by
  unfold materialize
  refine total_guard (total_guard (total_guard ?_))
  refine total_bind total_metadata fun found => total_bind (total_attempt _ _ _) fun _ => ?_
  exact total_andFinally total_fill (total_modify _)

/-- What a call that publishes has found: nothing is against it. -/
structure Publishes (E : Environment) (manager : Manager)
    (failures : Operation → Option (Exn × ℕ)) (request : Request) (disk : Disk) (doc : Value)
    (digest name : Text) (data : Bytes) : Prop where
  scope : request.stateScope ∈ [Text.of "per_deployment", Text.of "shared"]
  shared : ¬ (request.stateScope = .of "shared" ∧ request.sharedStateId.getD [] = [])
  outside : ¬ manager.archive <+: E.resolution.resolve request.targetRoot
  found : Found E failures disk request.artifactId doc digest name data
  absent : disk.places.get? (E.resolution.resolve request.targetRoot) = none
  unfailing : ∀ operation, failures operation = none

/-- What a materialization leaves: one that returns has published one file with the content of
the object; one that raises has left the target alone, and no staging directory where that can
be removed. -/
theorem wlp_materialize (request : Request) (disk : Disk) :
    wlp (materialize E manager failures removal request)
      (fun manifest workspace' => ∃ doc digest name data, ∃ hname : IsName name,
        Publishes E manager failures request disk doc digest name data ∧
        manifest.artifactSha256 = digest ∧
        workspace'.disk.places.get? (E.resolution.resolve request.targetRoot) =
          some ⟨some manifest.written, some (.single name data hname)⟩)
      (fun _ workspace' =>
        workspace'.disk.places.get? (E.resolution.resolve request.targetRoot) =
          disk.places.get? (E.resolution.resolve request.targetRoot) ∧
        (removal = none → workspace'.staging = none))
      ⟨disk, none⟩ := by
  unfold materialize
  rw [wlp_ite]
  refine ⟨fun _ => ⟨rfl, fun _ => rfl⟩, fun hscope => ?_⟩
  rw [wlp_ite]
  refine ⟨fun _ => ⟨rfl, fun _ => rfl⟩, fun hshared => ?_⟩
  rw [wlp_ite]
  refine ⟨fun _ => ⟨rfl, fun _ => rfl⟩, fun houtside => ?_⟩
  rw [wlp_bind]
  refine wlp_mono wlp_metadata ?_ ?_
  · rintro ⟨name, digest⟩ _ ⟨rfl, doc, data, hfound⟩
    have hname := isName_of_objectOf hfound.object
    rw [wlp_bind, wlp_attempt]
    refine ⟨fun hmkdtemp => ?_, fun _ _ _ => ⟨rfl, fun _ => rfl⟩⟩
    rw [wlp_andFinally]
    refine wlp_mono (wlp_fill hfound.stored hname) ?_ ?_
    · rintro manifest workspace' ⟨⟨hbody, habsent⟩, hdigest, hstaging, hplace⟩
      refine ⟨doc, digest, name, data, hname, ?_, hdigest, hplace⟩
      refine ⟨not_not.mp hscope, hshared, houtside, hfound, habsent, fun operation => ?_⟩
      cases operation with
      | objectExists => exact hfound.looked.1
      | readObject => exact hfound.looked.2
      | mkdtemp => exact hmkdtemp
      | _ => exact hbody _ (by simp [bodyOperations])
    · intro _ workspace' hsame
      refine ⟨hsame, ?_⟩
      rintro rfl
      rfl
  · rintro _ _ rfl
    exact ⟨rfl, fun _ => rfl⟩

/-- Where nothing is against it, a materialization returns. -/
theorem Publishes.returns {request : Request} {disk : Disk} {doc : Value} {digest name : Text}
    {data : Bytes} (h : Publishes E manager failures request disk doc digest name data) :
    Returns (materialize E manager failures removal request) (fun _ _ => True) ⟨disk, none⟩ := by
  have hname := isName_of_objectOf h.found.object
  obtain ⟨tree, htree⟩ :=
    exists_treeDigest (E := E) data hname (isHex_of_objectOf h.found.object).2
  unfold materialize
  refine returns_guard.mpr ⟨not_not.mpr h.scope, returns_guard.mpr ⟨h.shared, ?_⟩⟩
  refine returns_guard.mpr ⟨h.outside, returns_bind.mpr ?_⟩
  refine wlp_mono (returns_metadata h.found) ?_ fun _ _ => id
  rintro _ _ ⟨rfl, rfl⟩
  dsimp only
  refine returns_bind.mpr ((returns_attempt (h.unfailing _)).mpr ?_)
  refine (returns_andFinally (total_modify _)).mpr ?_
  exact wlp_mono (returns_fill h.found.stored hname htree h.unfailing h.absent)
    (fun _ _ _ => trivial) fun _ _ => id

end Parts

/-! ## The staging directory left out -/

section Unstaged

variable {E : Environment} {manager : Manager} {failures : Operation → Option (Exn × ℕ)}
  {removal : Option (Staging → Staging)}

/-- The failures of the operations that `Deployment.materialize` has.  It counts the root
among the directories that it makes. -/
def steps (failures : Operation → Option (Exn × ℕ)) : Step → Option (Exn × ℕ)
  | .mkdtemp => failures .mkdtemp
  | .mkdirPayload => failures .mkdirPayload
  | .copy => failures .copy
  | .mkdirParents => (failures .mkdirParents).map (Prod.map id Nat.succ)
  | .writeManifest => failures .writeManifest
  | .replace => failures .replace

theorem ite_bind {α β : Type} {c : Prop} [Decidable c] (x y : Except Exn α) (f : α → Except Exn β) :
    (if c then x else y) >>= f = if c then x >>= f else y >>= f := by
  split <;> rfl

theorem deploymentError_bind {α β : Type} (message : String) (f : α → Except Exn β) :
    deploymentError message >>= f = deploymentError message := rfl

theorem metadata_eq (disk : Disk) (artifactId : Text) :
    Deployment.metadata E disk artifactId = (do
      let doc ← documentOf disk artifactId
      let (digest, name) ← objectOf doc
      match disk.objects.get? name with
      | none => deploymentError "preserved artifact object missing"
      | some (.directory _) => .error (.other (.foreign .osError))
      | some (.file data) =>
          if E.sha256.hexdigest data ≠ digest then
            deploymentError "preserved artifact verification failed"
          else return (doc, name, digest)) := by
  unfold Deployment.metadata documentOf objectOf
  split
  · rename_i doc hdoc
    simp only [hdoc, pure_bind, ite_bind, deploymentError_bind, bind_assoc] <;> rfl
  · rename_i hnone
    cases hfile : disk.metadata.get? artifactId with
    | none => rfl
    | some file =>
        cases file with
        | document doc => exact absurd hfile (hnone doc)
        | _ => rfl

variable {disk : Disk} {workspace : Workspace}

theorem look_eq {operation : Operation} (h : failures operation = none) :
    look failures operation = pure () := by
  unfold look
  rw [h]
  rfl

theorem follows_look {α : Type} {operation : Operation} {f : Unit → Act Workspace Exn α}
    {act : Act Disk Exn α} (h : failures operation = none)
    (hf : Follows Workspace.disk (f ()) act workspace disk) :
    Follows Workspace.disk (look failures operation >>= f) act workspace disk := by
  rw [look_eq h]
  exact hf

/-- `_metadata` finds the same. -/
theorem follows_metadata {α : Type} {artifactId : Text} {k : Text × Text → Act Workspace Exn α}
    {k' : Value × Text × Text → Act Disk Exn α}
    (h : failures .objectExists = none ∧ failures .readObject = none)
    (hk : ∀ found, Follows Workspace.disk (k found.2) (k' found) workspace workspace.disk) :
    Follows Workspace.disk (metadata E failures artifactId >>= k)
      (Act.ofExcept (Deployment.metadata E workspace.disk artifactId) >>= k') workspace
      workspace.disk := by
  unfold metadata
  rw [metadata_eq]
  refine follows_ofExcept_bind rfl fun doc _ => follows_ofExcept_bind rfl fun (digest, name) _ => ?_
  simp only [look_eq h.1, look_eq h.2]
  cases workspace.disk.objects.get? name with
  | none => exact follows_throw _ rfl
  | some object =>
      cases object with
      | directory below => exact follows_throw _ rfl
      | file data =>
          by_cases hhash : E.sha256.hexdigest data = digest
          · simp only [hhash, ne_eq, not_true_eq_false, if_false]
            exact hk (doc, name, digest)
          · simp only [hhash, ne_eq, not_false_eq_true, if_true]
            exact follows_throw _ rfl

theorem mkdirs_inits (path : Path) (n : ℕ) (hroot : disk.places.get? [] ≠ none) :
    mkdirs (path.inits.take (n + 1)) disk = mkdirs ((path.inits.drop 1).take n) disk := by
  have hinits : path.inits = [] :: path.inits.drop 1 := by cases path <;> rfl
  conv_lhs => rw [hinits, List.take_succ_cons]
  unfold mkdirs
  rw [List.foldl_cons, if_neg hroot]

/-- **The staging directory may be left out**: a materialization goes on outside of it as
`Deployment.materialize` has it, where looking at files does not fail. -/
theorem follows_materialize (request : Request) (staging : Option Staging)
    (hroot : disk.places.get? [] ≠ none)
    (hlooks : ∀ operation ∈ [Operation.objectExists, .readObject, .readPayload, .targetExists],
      failures operation = none) :
    Follows Workspace.disk (materialize E manager failures removal request)
      (Deployment.materialize E manager (steps failures) request) ⟨disk, staging⟩ disk := by
  have hsame : ∀ {answer : Option (Exn × ℕ)}, answer = answer.map (Prod.map id id) := by
    intro answer
    rw [Prod.map_id, Option.map_id, id]
  unfold materialize Deployment.materialize
  refine follows_guard rfl fun _ => follows_guard rfl fun _ => follows_guard rfl fun _ => ?_
  refine follows_metadata ⟨hlooks _ (by simp), hlooks _ (by simp)⟩ fun (doc, name, digest) => ?_
  generalize E.resolution.resolve request.targetRoot = target
  have hmkdirs : ∀ staging, (makeParents target (parents target).length ⟨disk, staging⟩).disk =
      mkdirs target.dropLast.inits disk := by
    intro staging
    have hinits := mkdirs_inits target.dropLast target.dropLast.inits.length hroot
    rw [List.take_of_length_le (Nat.le_succ _), List.take_of_length_le (by simp)] at hinits
    rw [hinits]
    unfold makeParents
    rw [List.take_length]
    rfl
  refine follows_attempt hsame (fun _ => rfl) ?_
  refine follows_andFinally ?_ fun _ => rfl
  unfold fill
  refine follows_attempt hsame (fun _ => rfl) ?_
  refine follows_ofExcept rfl fun payload _ => ?_
  refine follows_attempt hsame (fun _ => rfl) ?_
  refine follows_attempt rfl (fun n => ?_) ?_
  · exact (mkdirs_inits _ n hroot).symm
  refine follows_look (hlooks _ (by simp)) ?_
  refine follows_ofExcept (hmkdirs _) fun tree _ => ?_
  refine follows_attempt hsame (fun _ => hmkdirs _) ?_
  refine follows_look (hlooks _ (by simp)) ?_
  unfold publish
  refine follows_get_guard (fun workspace : Workspace => workspace.disk.places.get? target ≠ none)
    (fun disk : Disk => disk.places.get? target ≠ none) ?_ ?_ fun _ => ?_
  · exact hmkdirs _
  · exact hmkdirs (some ⟨some payload, none⟩) ▸ Iff.rfl
  · refine follows_attempt hsame (fun _ => hmkdirs _) (follows_pure _ ?_)
    exact congrArg (fun disk : Disk => { disk with
      places := disk.places.set target
        ⟨some (manifestOf request target digest tree).written, some payload⟩ }) (hmkdirs _)

/-- A materialization that returns has done what `Deployment.materialize` does where nothing
fails. -/
theorem run_of_staged {request : Request} {manifest : Manifest} {workspace' : Workspace}
    (hroot : disk.places.get? [] ≠ none)
    (hrun : (materialize E manager failures removal request).run ⟨disk, none⟩ =
      some (.ok manifest, workspace')) :
    (Deployment.materialize E manager (fun _ => none) request).run disk =
      some (.ok manifest, workspace'.disk) := by
  obtain ⟨doc, digest, name, data, hname, hpublishes, -⟩ := wlp_ok (wlp_materialize request disk) hrun
  have hsteps : steps failures = fun _ => none := by
    funext step
    cases step <;> simp only [steps, hpublishes.unfailing, Option.map_none]
  have hfollows := @follows_materialize E manager failures removal disk request none hroot
    fun operation _ => hpublishes.unfailing operation
  rw [hsteps] at hfollows
  rw [← hfollows, hrun]
  rfl

end Unstaged

/-! ## Comparison with the archive -/

/-- The content of an object that is a file. -/
def Object.bytes : Object → Bytes
  | .file data => data
  | .directory _ => []

def Object.isFile : Object → Bool
  | .file _ => true
  | .directory _ => false

/-- What the functions of the archive see: an object that is a directory cannot be opened. -/
def archived (disk : Disk) : Archive.Disk where
  initialized := true
  metadata := disk.metadata
  objects := (disk.objects.filterKeys fun name => (disk.objects.get? name).any Object.isFile).mapValues
    fun _ => Object.bytes
  quarantine := ∅
  locks := ∅

theorem get?_archived {disk : Disk} {name : Text} {data : Bytes}
    (h : disk.objects.get? name = some (.file data)) :
    (archived disk).objects.get? name = some data := by
  unfold archived
  rw [Dict.get?_mapValues, Dict.get?_filterKeys, h]
  rfl

/-- The size that a document gives is that of the object. -/
def HasSize (doc : Value) (size : ℕ) : Prop :=
  ∃ value, (doc.item "artifact" >>= fun artifact => artifact.item "size") = .ok value ∧
    value.isInt size = true

/-- A document that names a digest has an object `artifact` with it. -/
theorem exists_artifact_of_objectOf {doc : Value} {digest name : Text}
    (h : objectOf doc = .ok (digest, name)) :
    objectPath digest = .ok name ∧ ∃ artifact, doc.item "artifact" = .ok artifact ∧
      artifact.item "sha256" = .ok (.text digest) := by
  unfold objectOf lift at h
  obtain ⟨rights, -, h⟩ := Except.bind_eq_ok.mp h
  obtain ⟨permission, -, h⟩ := Except.bind_eq_ok.mp h
  split at h
  · cases h
  · obtain ⟨artifact, hartifact, h⟩ := Except.bind_eq_ok.mp h
    obtain ⟨value, hvalue, h⟩ := Except.bind_eq_ok.mp h
    split at h
    · cases h
    · rename_i htruthy
      obtain ⟨text, htext, h⟩ := Except.bind_eq_ok.mp h
      obtain ⟨path, hpath, h⟩ := Except.bind_eq_ok.mp h
      obtain ⟨rfl, rfl⟩ := Prod.mk.inj (Except.pure_eq_ok.mp h)
      rw [Except.mapError_eq_ok] at hartifact hvalue htext hpath
      obtain rfl := Archive.eq_text_of_toText htext
      refine ⟨hpath, artifact, ?_, Value.item_of_get_truthy hvalue (Bool.not_eq_false _ ▸ htruthy)⟩
      -- the default has no digest
      cases doc with
      | object fields =>
          simp only [Value.get, Except.ok.injEq] at hartifact
          cases hfield : Archive.Fields.get? fields "artifact" with
          | some found =>
              rw [hfield, Option.getD_some] at hartifact
              simp only [Value.item, Archive.Fields.item, hfield, hartifact]
          | none =>
              rw [hfield, Option.getD_none] at hartifact
              rw [← hartifact] at hvalue
              cases hvalue
      | _ => cases hartifact

variable {H : Host} {manager : Manager} {failures : Operation → Option (Exn × ℕ)}
  {removal : Option (Staging → Staging)}

/-- What `verify_one` asks of an artifact that `_metadata` has found. -/
theorem verifyOne_eq_ok_iff {disk : Disk} {artifactId digest name : Text} {doc metadata : Value}
    {data : Bytes} (h : Found H.toEnvironment failures disk artifactId doc digest name data) :
    verifyOne H.archive (archived disk) artifactId = .ok metadata ↔
      metadata = doc ∧ Archive.isId artifactId = true ∧ validateMetadata doc = .ok () ∧
        HasSize doc data.length := by
  obtain ⟨hpath, artifact, hartifact, hsha256⟩ := exists_artifact_of_objectOf h.object
  have hdocument : (archived disk).metadata.get? artifactId = some (.document doc) := h.document
  have hhash : H.archive.hashes.digest .sha256 data = digest := (H.sha256_eq data).trans h.hash
  unfold verifyOne Archive.loadMetadata HasSize
  rw [hdocument]
  constructor
  · intro hverify
    obtain ⟨loaded, hload, hverify⟩ := Except.bind_eq_ok.mp hverify
    obtain ⟨hid, hload⟩ := Except.check_bind_eq_ok.mp hload
    obtain ⟨hvalid, hload⟩ := Except.check_bind_eq_ok.mp hload
    obtain rfl := Except.pure_eq_ok.mp hload
    simp only [hartifact, hsha256, Value.toText, hpath, get?_archived h.stored, bind,
      Except.bind] at hverify ⊢
    cases hsize : artifact.item "size" with
    | error e => simp [hsize] at hverify
    | ok size =>
        simp only [hsize] at hverify
        by_cases hint : size.isInt data.length = false
        · simp [hint, throw, throwThe, MonadExceptOf.throw] at hverify
        · rw [if_neg (by simp [hhash, hint])] at hverify
          exact ⟨(Except.pure_eq_ok.mp hverify).symm, Archive.isId_of_validateId hid, hvalid, size, rfl,
            Bool.not_eq_false _ ▸ hint⟩
  · rintro ⟨rfl, hid, hvalid, size, hsize, hint⟩
    have hvalidId : Archive.validateId artifactId = .ok () := if_pos hid
    rw [hartifact] at hsize
    have hsize : artifact.item "size" = .ok size := hsize
    simp only [hvalidId, hvalid, hartifact, hsha256, Value.toText, hpath, get?_archived h.stored,
      hsize, bind, Except.bind, pure, Except.pure]
    rw [if_neg (by simp [hhash, hint])]

/-! ## What is promised -/

/-- The archive verifies the artifact, and its metadata permits to install it. -/
def Permitted (H : Host) (disk : Disk) (artifactId : Text) : Prop :=
  ∃ metadata, verifyOne H.archive (archived disk) artifactId = .ok metadata ∧
    Granted metadata "install_locally"

/-- The target has the manifest, which names the digest of an object, and one file with the
content of that object. -/
def HoldsObject (H : Host) (disk : Disk) (manifest : Manifest) (place : Option Place) : Prop :=
  ∃ name data, ∃ hname : IsName name, disk.objects.get? name = some (.file data) ∧
    manifest.artifactSha256 = H.sha256.hexdigest data ∧
    place = some ⟨some manifest.written, some (.single name data hname)⟩

/-- A materialization comes back.  If it returns, the artifact is permitted and the target holds
its object; if it raises, the target is as it was, and no staging directory is left where that
can be removed. -/
def FailsClosed (H : Host) (manager : Manager) (failures : Operation → Option (Exn × ℕ))
    (removal : Option (Staging → Staging)) (request : Request) (disk : Disk) : Prop :=
  twp (materialize H.toEnvironment manager failures removal request)
    (fun manifest workspace' =>
      Permitted H disk request.artifactId ∧
        HoldsObject H disk manifest
          (workspace'.disk.places.get? (H.resolution.resolve request.targetRoot)))
    (fun _ workspace' =>
      workspace'.disk.places.get? (H.resolution.resolve request.targetRoot) =
        disk.places.get? (H.resolution.resolve request.targetRoot) ∧
      (removal = none → workspace'.staging = none))
    ⟨disk, none⟩

/-- A materialization fails closed if and only if something is against it, or the id is one of
the archive, its document is valid metadata and gives the size of the object, and it permits to
install. -/
theorem failsClosed_iff (request : Request) (disk : Disk) :
    FailsClosed H manager failures removal request disk ↔
      ∀ doc digest name data,
        Publishes H.toEnvironment manager failures request disk doc digest name data →
          Archive.isId request.artifactId = true ∧ validateMetadata doc = .ok () ∧
            HasSize doc data.length ∧ Granted doc "install_locally" := by
  constructor
  · intro hcloses doc digest name data hpublishes
    have hreturns : Returns (materialize H.toEnvironment manager failures removal request)
        (fun _ _ => True) ⟨disk, none⟩ := hpublishes.returns
    obtain ⟨manifest, workspace', hrun, -⟩ :=
      (returns_iff_exists (total_materialize request)).mp hreturns
    obtain ⟨⟨metadata, hverify, hgranted⟩, -⟩ := wlp_ok hcloses.2 hrun
    obtain ⟨rfl, hid, hvalid, hsize⟩ := (verifyOne_eq_ok_iff hpublishes.found).mp hverify
    exact ⟨hid, hvalid, hsize, hgranted⟩
  · intro haccepted
    refine (total_materialize request).twp (wlp_mono (wlp_materialize request disk) ?_ fun _ _ => id)
    rintro manifest workspace' ⟨doc, digest, name, data, hname, hpublishes, hdigest, hplace⟩
    obtain ⟨hid, hvalid, hsize, hgranted⟩ := haccepted doc digest name data hpublishes
    refine ⟨⟨doc, (verifyOne_eq_ok_iff hpublishes.found).mpr ⟨rfl, hid, hvalid, hsize⟩, hgranted⟩,
      name, data, hname, hpublishes.found.stored, ?_, hplace⟩
    rw [hdigest, hpublishes.found.hash]

/-! ## Metadata without rights -/

theorem length_blankDigest (data : Bytes) : ((fun _ => emptyDigest : Bytes → Bytes) data).length = 32 :=
  rfl

/-- A SHA-256 that is right for the empty input. -/
def blankSha256 : Sha256 := ⟨fun _ => emptyDigest, length_blankDigest⟩

theorem hexdigest_blankSha256 (data : Bytes) :
    Archive.emptyEnvironment.hashes.digest .sha256 data = blankSha256.hexdigest data := by
  change Text.of "e3b0c44298fc1c149afbf4c8996fb92427ae41e4649b934ca495991b7852b855" =
    emptyDigest.flatMap hexByte
  simp only [Text.of]
  decide +kernel

def blankHost : Host where
  sha256 := blankSha256
  resolution := plainResolution
  str _ := []
  archive := Archive.emptyEnvironment
  sha256_eq := hexdigest_blankSha256

/-- The document of `emptyDisk` has a digest and nothing else: it is materialized, though
`verify_one` does not accept it. -/
theorem materialize_without_rights :
    ¬ FailsClosed blankHost emptyManager (fun _ => none) none emptyRequest emptyDisk := by
  intro hcloses
  have hrun : ∃ manifest workspace',
      (materialize blankHost.toEnvironment emptyManager (fun _ => none) none emptyRequest).run
        ⟨emptyDisk, none⟩ = some (.ok manifest, workspace') := ⟨_, _, rfl⟩
  obtain ⟨manifest, workspace', hrun⟩ := hrun
  obtain ⟨⟨metadata, hverify, -⟩, -⟩ := wlp_ok hcloses.2 hrun
  have hrefused : verifyOne blankHost.archive (archived emptyDisk) emptyRequest.artifactId =
      .error (.archiveError (.of "invalid artifact metadata: ")) := rfl
  rw [hrefused] at hverify
  cases hverify

end UltimateBBSBox.Deployment.Staged

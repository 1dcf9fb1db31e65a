import UltimateBBSBox.Archive.Values

/-!
# Artifact metadata

`validate_id` and `validate_metadata` of `ubb_archive.py`.  The checks raise what
Python raises on values of other types; `validate_metadata` makes an `ArchiveError`
of all but an `AttributeError`.
-/

namespace UltimateBBSBox.Archive

open CodePoint (ofChar isDigit isHex)

/-! ## Patterns and constants -/

/-- A character that an id may start with. -/
def isIdStart (c : CodePoint) : Bool := (ofChar 'a' ≤ c ∧ c ≤ ofChar 'z') ∨ isDigit c

/-- `ID_RE`. -/
def isId (value : Text) : Bool :=
  value.head?.any isIdStart ∧
    ∀ c ∈ value, isIdStart c = true ∨ c ∈ ['.', '_', '-'].map ofChar

/-- The keys of `HASH_RE`. -/
inductive Algorithm | sha256 | sha1 | md5
deriving DecidableEq

/-- The text of an algorithm. -/
def Algorithm.name : Algorithm → String
  | .sha256 => "sha256"
  | .sha1 => "sha1"
  | .md5 => "md5"

/-- How many hexadecimal digits a digest has. -/
def Algorithm.digits : Algorithm → ℕ
  | .sha256 => 64
  | .sha1 => 40
  | .md5 => 32

/-- `HASH_RE[name]`. -/
def isDigest (algorithm : Algorithm) (value : Text) : Bool :=
  value.length = algorithm.digits ∧ ∀ c ∈ value, isHex c = true

/-- `ROLES`. -/
def roles : List Text :=
  ["preservation_original", "source_code", "documentation", "install_source",
    "derived_install_media", "bbs_distribution", "reconstructed", "derived"].map Text.of

/-- `RIGHTS`. -/
def rightsStatuses : List Text :=
  ["unknown", "public_domain", "open_source", "freeware", "shareware", "freeware_redistributable",
    "shareware_redistributable", "commercial", "licensed", "licensed_private", "preservation_only",
    "restricted"].map Text.of

/-- The permissions of `rights`. -/
def rightsKeys : List String :=
  ["preserve_locally", "install_locally", "redistribute_original", "publish_to_bbs_filebase",
    "export_from_archive"]

/-- The values of `preservation.class`. -/
def preservationClasses : List Text :=
  ["original", "reconstructed", "derived", "private_preservation"].map Text.of

/-! ## The checks -/

/-- `raise ValueError`, whose text ends in that of the `ArchiveError` made of it. -/
def valueError {α : Type} : Except Exn α := .error (.foreign .valueError)

/-- A check that raises a `ValueError` lets the rest run when its condition does not hold. -/
theorem guard_valueError {α : Type} {c : Prop} [Decidable c] {f : Unit → Except Exn α} {a : α}
    (h : (if c then valueError >>= f else f ()) = .ok a) : ¬c ∧ f () = .ok a := by
  by_cases hc : c
  · rw [if_pos hc] at h
    cases h
  · rw [if_neg hc] at h
    exact ⟨hc, h⟩

/-- `validate_id`. -/
def validateId (value : Text) : Except Exn Unit :=
  if isId value then .ok ()
  else .error (.archiveError (.of "artifact id must match ^[a-z0-9][a-z0-9._-]*$"))

/-- `if not HASH_RE[name].fullmatch(value): raise ValueError`. -/
def checkDigest (algorithm : Algorithm) (value : Value) : Except Exn Unit := do
  let value ← value.toText
  if isDigest algorithm value then return else valueError

/-- `value in texts`. -/
def Value.isOneOf (value : Value) (texts : List Text) : Bool := texts.any fun text => value.isText text

/-- `safe_filename(value)`, whose result is not used. -/
def checkFilename : Value → Except Exn Unit
  | .text name => do let _ ← safeFilename name
  | _ => Value.attributeError

/-- The check of a digest of `artifact` that may be missing. -/
def checkOptional (algorithm : Algorithm) : Value → Except Exn Unit
  | .object fields =>
      match Fields.get? fields algorithm.name with
      | some value => checkDigest algorithm value
      | none => .ok ()
  | _ => Value.typeError

theorem isOneOf_text {value : Text} {texts : List Text} :
    (Value.text value).isOneOf texts = true ↔ value ∈ texts := by
  simp [Value.isOneOf, Value.isText]

/-- The check of `artifact`. -/
def checkArtifact (artifact : Value) : Except Exn Unit := do
  checkDigest .sha256 (← artifact.item "sha256")
  let negative ← (← artifact.item "size").negative
  if negative = true then valueError
  let role ← artifact.item "role"
  if role.isOneOf roles = false then valueError
  checkFilename (← artifact.item "original_filename")
  checkOptional .sha1 artifact
  checkOptional .md5 artifact

/-- The check of a text of `provenance` that must not be empty. -/
def checkGiven (value : Value) : Except Exn Unit :=
  match value with
  | .text value => if value = [] then valueError else .ok ()
  | _ => valueError

/-- The check of `provenance`. -/
def checkProvenance (provenance : Value) : Except Exn Unit := do
  checkGiven (← provenance.item "acquired_at")
  checkGiven (← provenance.item "source")

/-- The loop over the permissions of `rights`. -/
def checkPermissions (rights : Value) : List String → Except Exn Unit
  | [] => return
  | key :: rest => do
      let permission ← rights.item key
      if permission.isBool = false then valueError
      checkPermissions rights rest

/-- The check of `rights`. -/
def checkRights (rights : Value) : Except Exn Unit := do
  let status ← rights.item "status"
  if status.isOneOf rightsStatuses = false then valueError
  checkPermissions rights rightsKeys

/-- The loop over the parents of a lineage. -/
def checkParents : List Value → Except Exn Unit
  | [] => return
  | parent :: rest => do
      validateId (← (← parent.item "artifact_id").toText)
      checkDigest .sha256 (← parent.item "sha256")
      checkParents rest

/-- The check of a lineage that is not falsy. -/
def checkLineage (lineage : Value) : Except Exn Unit := do
  let parents ← lineage.get "parents" .null
  if parents.truthy = false then valueError
  let action ← lineage.get "action" .null
  if action.truthy = false then valueError
  let derivedAt ← lineage.get "derived_at" .null
  if derivedAt.truthy = false then valueError
  checkParents (← parents.elements)

/-- The check of `preservation`. -/
def checkPreservation (preservation : Value) : Except Exn Unit := do
  let cls ← preservation.item "class"
  if cls.isOneOf preservationClasses = false then valueError
  let immutable ← preservation.item "immutable"
  match immutable with
  | .bool true => pure ()
  | _ => valueError
  let lineage ← preservation.get "lineage" .null
  if lineage.truthy = true then checkLineage lineage

/-- The body of `validate_metadata`. -/
def checkMetadata (value : Value) : Except Exn Unit := do
  let kind ← value.item "kind"
  if kind.isText (.of "artifact") = false then valueError
  let version ← value.item "schema_version"
  if version.isInt 1 = false then valueError
  validateId (← (← value.item "id").toText)
  checkArtifact (← value.item "artifact")
  checkProvenance (← value.item "provenance")
  checkRights (← value.item "rights")
  checkPreservation (← value.item "preservation")

theorem eq_text_of_toText {value : Value} {text : Text} (h : value.toText = .ok text) :
    value = .text text := by
  cases value with
  | text value =>
      obtain rfl := Except.ok.inj h
      rfl
  | _ => cases h

theorem isId_of_validateId {text : Text} (h : validateId text = .ok ()) : isId text = true := by
  unfold validateId at h
  by_contra hnot
  rw [if_neg hnot] at h
  cases h

theorem isDigest_of_checkDigest {algorithm : Algorithm} {value : Value}
    (h : checkDigest algorithm value = .ok ()) :
    ∃ text, value = .text text ∧ isDigest algorithm text = true := by
  unfold checkDigest at h
  obtain ⟨text, htext, h⟩ := Except.bind_eq_ok.mp h
  refine ⟨text, eq_text_of_toText htext, ?_⟩
  by_contra hnot
  rw [if_neg hnot] at h
  cases h

/-- The parts of metadata that pass the check, and that each of them passes its own. -/
theorem parts_of_checkMetadata {value : Value} (h : checkMetadata value = .ok ()) :
    ∃ artifact provenance rights preservation,
      (value.item "artifact" = .ok artifact ∧ checkArtifact artifact = .ok ()) ∧
      (value.item "provenance" = .ok provenance ∧ checkProvenance provenance = .ok ()) ∧
      (value.item "rights" = .ok rights ∧ checkRights rights = .ok ()) ∧
      (value.item "preservation" = .ok preservation ∧ checkPreservation preservation = .ok ()) := by
  unfold checkMetadata at h
  obtain ⟨kind, -, h⟩ := Except.bind_eq_ok.mp h
  obtain ⟨-, h⟩ := guard_valueError h
  obtain ⟨version, -, h⟩ := Except.bind_eq_ok.mp h
  obtain ⟨-, h⟩ := guard_valueError h
  obtain ⟨id, -, h⟩ := Except.bind_eq_ok.mp h
  obtain ⟨text, -, h⟩ := Except.bind_eq_ok.mp h
  obtain ⟨-, h⟩ := Except.check_bind_eq_ok.mp h
  obtain ⟨artifact, hartifact, h⟩ := Except.bind_eq_ok.mp h
  obtain ⟨hcheckArtifact, h⟩ := Except.check_bind_eq_ok.mp h
  obtain ⟨provenance, hprovenance, h⟩ := Except.bind_eq_ok.mp h
  obtain ⟨hcheckProvenance, h⟩ := Except.check_bind_eq_ok.mp h
  obtain ⟨rights, hrights, h⟩ := Except.bind_eq_ok.mp h
  obtain ⟨hcheckRights, h⟩ := Except.check_bind_eq_ok.mp h
  obtain ⟨preservation, hpreservation, h⟩ := Except.bind_eq_ok.mp h
  exact ⟨artifact, provenance, rights, preservation, ⟨hartifact, hcheckArtifact⟩,
    ⟨hprovenance, hcheckProvenance⟩, ⟨hrights, hcheckRights⟩, hpreservation, h⟩

/-- `validate_metadata`; the text of the exception is left out after its colon. -/
def validateMetadata (value : Value) : Except Exn Unit :=
  match checkMetadata value with
  | .error (.foreign .keyError) | .error (.foreign .typeError) | .error (.foreign .valueError)
  | .error (.archiveError _) | .error (.duplicateArtifact _) | .error (.verificationError _) =>
      .error (.archiveError (.of "invalid artifact metadata: "))
  | result => result

end UltimateBBSBox.Archive

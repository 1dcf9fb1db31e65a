import UltimateBBSBox.Archive.Store

/-!
# What is preserved, and what is left when nothing is

A stream is preserved when it ends, within the limit, with the size and the hashes
that were expected of it, and no object of another size is stored under its digest
(`Preservable`).  What comes after these checks cannot fail for a request whose
parts `validate_metadata` accepts, unless the metadata files are in the way that
`source_predecessors` reads.  A call that raises leaves the metadata as it was and
neither a quarantine file nor a lock.
-/

namespace UltimateBBSBox.Archive

open Act Faulty

/-! ## The document passes its own check -/

/-- The parts of a request that end in the document are accepted. -/
structure Request.Accepted (request : Request) : Prop where
  role : request.role ∈ roles
  preservationClass : request.preservationClass ∈ preservationClasses
  rightsStatus : request.args.rightsStatus ∈ rightsStatuses
  provenance : checkProvenance (.object request.provenance) = .ok ()
  lineage : request.lineage.truthy = true → checkLineage request.lineage = .ok ()

section Document

variable {E : Environment} {request : Request} {filename name : Text} {data : Bytes}

theorem checkDigest_digest (hashes : Hashes) (algorithm : Algorithm) (data : Bytes) :
    checkDigest algorithm (.text (hashes.digest algorithm data)) = .ok () := by
  unfold checkDigest Value.toText
  simp only [bind, Except.bind, hashes.isDigest_digest]
  rfl

/-- The fields that every artifact has. -/
def artifactFields (E : Environment) (request : Request) (filename : Text) (data : Bytes) : Fields :=
  [(.of "role", .text request.role),
    (.of "original_filename", .text filename),
    (.of "sha256", .text (E.hashes.digest .sha256 data)),
    (.of "sha1", .text (E.hashes.digest .sha1 data)),
    (.of "md5", .text (E.hashes.digest .md5 data)),
    (.of "size", .number (.int data.length)),
    (.of "media_type", .text ((E.guessType filename).getD (.of "application/octet-stream")))]

theorem artifactOf_eq (derivedFrom : Fields) : ∃ optional,
    artifactOf E request filename data derivedFrom =
      .object (artifactFields E request filename data ++ optional) := by
  refine ⟨optionalField "software_family" request.args.softwareFamily ++
    (optionalField "version" request.args.version ++
      (optionalField "platform" request.args.platform ++ derivedFrom)), ?_⟩
  unfold artifactOf artifactFields
  rw [List.append_assoc, List.append_assoc, List.append_assoc]

/-- The optional fields hide none of the others. -/
theorem get?_artifactOf {fields derivedFrom : Fields} {key : String} {value : Value}
    (hfields : artifactOf E request filename data derivedFrom = .object fields)
    (h : (artifactFields E request filename data).get? key = some value) :
    fields.get? key = some value := by
  obtain ⟨optional, hoptional⟩ := @artifactOf_eq E request filename data derivedFrom
  obtain rfl : fields = artifactFields E request filename data ++ optional :=
    Value.object.inj (hfields.symm.trans hoptional)
  rw [Fields.get?_append, h]
  rfl

theorem item_artifactOf {key : String} {value : Value}
    (h : (artifactFields E request filename data).get? key = some value) (derivedFrom : Fields) :
    (artifactOf E request filename data derivedFrom).item key = .ok value := by
  simp only [artifactOf, Value.item, Fields.item, get?_artifactOf rfl h]

/-- An artifact of this role and name, of a size and with digests, passes its check. -/
theorem checkArtifact_artifactOf (hrole : request.role ∈ roles)
    (hname : safeFilename filename = .ok name) (derivedFrom : Fields) :
    checkArtifact (artifactOf E request filename data derivedFrom) = .ok () := by
  have hsha256 := item_artifactOf (by simp [artifactFields]; rfl :
    (artifactFields E request filename data).get? "sha256" = some _) derivedFrom
  have hsize := item_artifactOf (by simp [artifactFields]; rfl :
    (artifactFields E request filename data).get? "size" = some _) derivedFrom
  have hrole' := item_artifactOf (by simp [artifactFields]; rfl :
    (artifactFields E request filename data).get? "role" = some _) derivedFrom
  have hname' := item_artifactOf (by simp [artifactFields]; rfl :
    (artifactFields E request filename data).get? "original_filename" = some _) derivedFrom
  have hoptional : ∀ algorithm, algorithm ≠ .sha256 →
      checkOptional algorithm (artifactOf E request filename data derivedFrom) = .ok () := by
    intro algorithm halgorithm
    have hget : (artifactFields E request filename data).get? algorithm.name =
        some (.text (E.hashes.digest algorithm data)) := by
      cases algorithm with
      | sha256 => exact absurd rfl halgorithm
      | sha1 => simp [artifactFields, Algorithm.name]
      | md5 => simp [artifactFields, Algorithm.name]
    simp only [artifactOf, checkOptional, get?_artifactOf rfl hget, checkDigest_digest]
  have hnegative : ¬ (data.length : ℤ) < 0 := by omega
  unfold checkArtifact
  simp only [hsha256, hsize, hrole', hname', checkFilename, hoptional _ (by decide : Algorithm.sha1 ≠ .sha256),
    hoptional _ (by decide : Algorithm.md5 ≠ .sha256), bind, Except.bind, checkDigest_digest,
    Value.negative, isOneOf_text.mpr hrole, hname, hnegative, decide_false]
  rfl

theorem checkRights_rightsDocument {args : Args} (h : args.rightsStatus ∈ rightsStatuses) :
    checkRights (rightsDocument args) = .ok () := by
  have hstatus := isOneOf_text.mpr h
  simp [checkRights, rightsDocument, Value.item, Fields.item, checkPermissions, rightsKeys,
    Value.isBool, hstatus, bind, Except.bind, pure, Except.pure]

/-- The two keys that are added do not matter to the check. -/
theorem checkProvenance_provenanceOf {provenance : Fields}
    (h : checkProvenance (.object provenance) = .ok ()) (prior : List Value) :
    checkProvenance (provenanceOf provenance prior) = .ok () := by
  rw [← h]
  unfold provenanceOf
  by_cases hprior : prior.isEmpty = true
  · simp [hprior, checkProvenance, Value.item, Fields.item]
  · simp [hprior, checkProvenance, Value.item, Fields.item]

theorem checkPreservation_preservationOf (hclass : request.preservationClass ∈ preservationClasses)
    (hlineage : request.lineage.truthy = true → checkLineage request.lineage = .ok ()) :
    checkPreservation (preservationOf request.preservationClass request.lineage) = .ok () := by
  have hclass' := isOneOf_text.mpr hclass
  by_cases htruthy : request.lineage.truthy = true
  · simp [checkPreservation, preservationOf, Value.item, Fields.item, Value.get, hclass', htruthy,
      hlineage htruthy, bind, Except.bind]
  · have hnull : Value.null.truthy = false := rfl
    simp [checkPreservation, preservationOf, Value.item, Fields.item, Value.get, hclass', htruthy,
      hnull, bind, Except.bind, pure, Except.pure]

theorem parentIds_of_checkParents {parents : List Value} (h : checkParents parents = .ok ()) :
    ∃ ids, parents.mapM (fun parent => parent.item "artifact_id") = .ok ids := by
  induction parents with
  | nil => exact ⟨[], rfl⟩
  | cons parent rest ih =>
      unfold checkParents at h
      obtain ⟨id, hid, h⟩ := Except.bind_eq_ok.mp h
      obtain ⟨text, -, h⟩ := Except.bind_eq_ok.mp h
      obtain ⟨-, h⟩ := Except.check_bind_eq_ok.mp h
      obtain ⟨sha256, -, h⟩ := Except.bind_eq_ok.mp h
      obtain ⟨-, h⟩ := Except.check_bind_eq_ok.mp h
      obtain ⟨ids, hids⟩ := ih h
      refine ⟨id :: ids, ?_⟩
      rw [List.mapM_cons, hid]
      simp only [bind, Except.bind, hids]
      rfl

/-- The parents of an accepted lineage have their ids. -/
theorem parentIds_ok {lineage : Value} (h : checkLineage lineage = .ok ()) :
    ∃ ids, parentIds lineage = .ok ids := by
  unfold checkLineage at h
  obtain ⟨parents, hparents, h⟩ := Except.bind_eq_ok.mp h
  obtain ⟨htruthy, h⟩ := guard_valueError h
  obtain ⟨action, -, h⟩ := Except.bind_eq_ok.mp h
  obtain ⟨-, h⟩ := guard_valueError h
  obtain ⟨derivedAt, -, h⟩ := Except.bind_eq_ok.mp h
  obtain ⟨-, h⟩ := guard_valueError h
  obtain ⟨elements, helements, h⟩ := Except.bind_eq_ok.mp h
  obtain ⟨ids, hids⟩ := parentIds_of_checkParents h
  refine ⟨ids, ?_⟩
  have hitem := Value.item_of_get_truthy hparents (by simpa using htruthy)
  unfold parentIds
  simp only [hitem, bind, Except.bind, helements]
  exact hids

/-- The document of an accepted request passes its own check. -/
theorem documentOf_ok (h : request.Accepted) (hid : isId request.artifactId = true)
    (hname : safeFilename filename = .ok name) (prior : List Value) :
    ∃ document, documentOf E request filename data prior = .ok document ∧
      validateMetadata document = .ok () := by
  obtain ⟨derivedFrom, hderived⟩ : ∃ derivedFrom, derivedFromOf request.lineage = .ok derivedFrom := by
    unfold derivedFromOf
    by_cases htruthy : request.lineage.truthy = true
    · obtain ⟨ids, hids⟩ := parentIds_ok (h.lineage htruthy)
      refine ⟨[(Text.of "derived_from", Value.array ids)], ?_⟩
      rw [if_pos htruthy, hids]
      rfl
    · exact ⟨[], if_neg htruthy⟩
  have hartifact := @checkArtifact_artifactOf E request filename name data h.role hname derivedFrom
  have hpreservation := checkPreservation_preservationOf h.preservationClass h.lineage
  refine ⟨.object [(.of "kind", .text (.of "artifact")), (.of "schema_version", .number (.int 1)),
    (.of "id", .text request.artifactId), (.of "artifact", artifactOf E request filename data derivedFrom),
    (.of "provenance", provenanceOf request.provenance prior),
    (.of "rights", rightsDocument request.args),
    (.of "preservation", preservationOf request.preservationClass request.lineage)], ?_, ?_⟩
  · unfold documentOf
    rw [hderived]
    rfl
  · unfold validateMetadata
    simp [checkMetadata, Value.item, Fields.item, Value.isText, Value.isInt, Value.toText,
      validateId, hid, hartifact, checkProvenance_provenanceOf h.provenance,
      checkRights_rightsDocument h.rightsStatus, hpreservation, bind, Except.bind]

end Document

/-! ## Streams that are preserved -/

/-- The data of a stream that ends without an exception. -/
def content : Reads → Option Bytes
  | [] => some []
  | .error _ :: _ => none
  | .ok [] :: _ => some []
  | .ok chunk :: rest => (content rest).map fun data => chunk ++ data

@[simp] theorem content_cons (byte : UInt8) (chunk : Bytes) (rest : Reads) :
    content (.ok (byte :: chunk) :: rest) =
      (content rest).map fun data => byte :: chunk ++ data := rfl

/-- The size is compared with the limit after each chunk, so never for the empty stream. -/
def InLimit (maxBytes : ℤ) (data : Bytes) : Prop := data = [] ∨ (data.length : ℤ) ≤ maxBytes

/-- What a stream that is preserved is like. -/
structure Preservable (E : Environment) (request : Request) (disk : Disk) (data : Bytes) : Prop where
  complete : content request.reads = some data
  within : InLimit request.args.maxBytes data
  sized : ∀ expected, request.expectedSize = some expected → (data.length : ℤ) = expected
  hashed : ∀ algorithm wanted, request.args.expected algorithm = some wanted → wanted ≠ [] →
    isDigest algorithm wanted = true ∧ (E.hashes.digest algorithm data).map CodePoint.asciiLower =
      wanted.map CodePoint.asciiLower
  fits : ∀ bytes, disk.objects.get? (E.hashes.digest .sha256 data) = some bytes →
    bytes.length = data.length

section Stream

variable {name : Text} {maxBytes : ℤ} {reads : Reads} {disk : Disk} {data : Bytes}

/-- The quarantine file with some content. -/
def Disk.quarantined (disk : Disk) (name : Text) (data : Bytes) : Disk :=
  { disk with quarantine := disk.quarantine.set name data }

/-- The loop of `hashes_for` returns the data of a stream that ends within the limit, and
raises on any other. -/
theorem wlp_hashesFor {Q : Bytes → Faulty Disk Exn → Prop} {X : Exn → Faulty Disk Exn → Prop}
    (reads : Reads) (data : Bytes)
    (hdone : ∀ rest, content reads = some rest →
      (rest = [] ∨ ((data ++ rest).length : ℤ) ≤ maxBytes) →
      Q (data ++ rest) ⟨disk.quarantined name (data ++ rest), []⟩)
    (hfail : ∀ e reached, (∀ rest, content reads = some rest →
      ¬(rest = [] ∨ ((data ++ rest).length : ℤ) ≤ maxBytes)) →
      X e ⟨disk.quarantined name reached, []⟩) :
    wlp (hashesFor name maxBytes reads data) Q X ⟨disk.quarantined name data, []⟩ := by
  induction reads generalizing data with
  | nil =>
      have hend := hdone [] rfl (.inl rfl)
      rw [List.append_nil] at hend
      exact hend
  | cons read rest ih =>
      match read with
      | .error e =>
          refine hfail e data ?_
          intro data' hcontent
          cases hcontent
      | .ok [] =>
          have hend := hdone [] rfl (.inl rfl)
          rw [List.append_nil] at hend
          exact hend
      | .ok (byte :: chunk) =>
          have hcontent : ∀ rest', content rest = some rest' →
              content (.ok (byte :: chunk) :: rest) = some (byte :: chunk ++ rest') := by
            intro rest' h
            rw [content_cons, h]
            rfl
          have hlength : ∀ rest' : Bytes, ((data ++ byte :: chunk).length : ℤ) ≤
              (data ++ (byte :: chunk ++ rest')).length := by
            intro rest'
            simp only [List.length_append, List.length_cons, List.cons_append]
            omega
          unfold hashesFor
          -- the limit is checked for each chunk that is read, before it is written
          by_cases hlimit : maxBytes < ((data ++ byte :: chunk).length : ℤ)
          · rw [if_pos hlimit, wlp_bind]
            refine hfail _ data ?_
            intro data' hdata'
            rw [content_cons] at hdata'
            obtain ⟨rest', -, rfl⟩ := Option.map_eq_some_iff.mp hdata'
            intro hwithin
            rcases hwithin with hnil | hle
            · cases hnil
            · have := hlength rest'
              omega
          · rw [if_neg hlimit, wlp_bind, wlp_performOr_nil]
            have hset : (disk.quarantined name data).quarantine.set name (data ++ byte :: chunk) =
                disk.quarantine.set name (data ++ byte :: chunk) := Dict.set_set ..
            rw [hset]
            refine ih (data ++ byte :: chunk) ?_ ?_
            · intro rest' hrest' hwithin
              have hend := hdone (byte :: chunk ++ rest') (hcontent rest' hrest')
              rw [← List.append_assoc] at hend
              refine hend (.inr ?_)
              rcases hwithin with rfl | hle
              · rw [List.append_nil]
                omega
              · exact hle
            · intro e reached hbeyond
              refine hfail e reached ?_
              intro data' hdata'
              rw [content_cons] at hdata'
              obtain ⟨rest', hrest', rfl⟩ := Option.map_eq_some_iff.mp hdata'
              intro hwithin
              refine hbeyond rest' hrest' (.inr ?_)
              rw [List.append_assoc]
              rcases hwithin with hnil | hle
              · cases hnil
              · exact hle

end Stream

/-! ## The scan for predecessors -/

/-- The scan of the metadata for predecessors of what is acquired raises nothing. -/
def Scannable (E : Environment) (request : Request) (disk : Disk) : Prop :=
  ∀ data, content request.reads = some data →
    ∃ prior, priorOf E request.provenance (E.hashes.digest .sha256 data) disk = .ok prior

theorem priorOf_congr {E : Environment} {provenance : Fields} {digest : Text} {disk disk' : Disk}
    (h : disk'.metadata = disk.metadata) :
    priorOf E provenance digest disk' = priorOf E provenance digest disk := by
  unfold priorOf sourcePredecessors
  rw [h]

/-! ## The checks of the data -/

section Checks

variable {hashes : Hashes} {data : Bytes} {expected : Algorithm → Option Text}

theorem checkSize_ok_iff {expectedSize : Option ℤ} :
    checkSize expectedSize data = .ok () ↔
      ∀ expected, expectedSize = some expected → (data.length : ℤ) = expected := by
  cases expectedSize with
  | none => simp [checkSize]
  | some expected =>
      by_cases hsize : (data.length : ℤ) = expected
      · simp [checkSize, hsize]
      · simp [checkSize, hsize]

theorem checkExpectedOne_ok_iff {algorithm : Algorithm} {wanted : Option Text} :
    checkExpectedOne hashes data algorithm wanted = .ok () ↔
      ∀ text, wanted = some text → text ≠ [] → isDigest algorithm text = true ∧
        (hashes.digest algorithm data).map CodePoint.asciiLower = text.map CodePoint.asciiLower := by
  match wanted with
  | none => simp [checkExpectedOne]
  | some [] => simp [checkExpectedOne]
  | some (c :: text) =>
      by_cases hform : isDigest algorithm (c :: text) = true
      · by_cases hequal : (hashes.digest algorithm data).map CodePoint.asciiLower =
          (c :: text).map CodePoint.asciiLower
        · simp [checkExpectedOne, hform, hequal]
        · simp [checkExpectedOne, hform]
      · simp [checkExpectedOne, hform]

theorem checkExpected_ok_iff :
    checkExpected hashes data expected = .ok () ↔
      ∀ algorithm wanted, expected algorithm = some wanted → wanted ≠ [] →
        isDigest algorithm wanted = true ∧ (hashes.digest algorithm data).map CodePoint.asciiLower =
          wanted.map CodePoint.asciiLower := by
  unfold checkExpected
  rw [Except.check_bind_eq_ok, Except.check_bind_eq_ok, checkExpectedOne_ok_iff,
    checkExpectedOne_ok_iff, checkExpectedOne_ok_iff]
  constructor
  · intro ⟨hsha256, hsha1, hmd5⟩ algorithm
    cases algorithm with
    | sha256 => exact hsha256
    | sha1 => exact hsha1
    | md5 => exact hmd5
  · exact fun h => ⟨h .sha256, h .sha1, h .md5⟩

/-- A digest is the name of an object. -/
theorem objectPath_digest :
    objectPath (hashes.digest .sha256 data) = .ok (hashes.digest .sha256 data) := by
  unfold objectPath
  rw [if_pos (hashes.isDigest_digest .sha256 data), hashes.lower_digest]

end Checks

/-! ## What is left -/

/-- What is left of an archive by a call that raised: the metadata as they were, and neither
the quarantine file nor the lock. -/
structure CleanedUp (E : Environment) (artifactId : Text) (disk disk' : Disk) : Prop where
  metadata : disk'.metadata = disk.metadata
  quarantine : disk'.quarantine.get? (quarantineName E artifactId) = none
  lock : disk'.locks.get? artifactId = none

section Publish

variable {E : Environment} {request : Request} {filename name key : Text} {disk : Disk}
  {data : Bytes}

/-- The state before the lock is given back, where metadata were not written. -/
def Unpublished (disk : Disk) (s : Faulty Disk Exn) : Prop :=
  s.answers = [] ∧ s.state.metadata = disk.metadata

theorem wlp_check {check : Except Exn Unit} {Q : Unit → Faulty Disk Exn → Prop}
    {X : Exn → Faulty Disk Exn → Prop} {s : Faulty Disk Exn} (hok : check = .ok () → Q () s)
    (herror : ∀ e, check ≠ .ok () → X e s) : wlp (Act.ofExcept check) Q X s := by
  rw [wlp_ofExcept]
  refine ⟨fun _ => hok, ?_⟩
  intro e he
  refine herror e ?_
  rw [he]
  intro h
  cases h

theorem wlp_ofExcept_ok {α : Type} {a : α} {Q : α → Faulty Disk Exn → Prop}
    {X : Exn → Faulty Disk Exn → Prop} {s : Faulty Disk Exn} (h : Q a s) :
    wlp (Act.ofExcept (.ok a)) Q X s := h

/-- An object is in its place, unless one of another size is. -/
theorem wlp_placeObject {Q : Unit → Faulty Disk Exn → Prop} {X : Exn → Faulty Disk Exn → Prop}
    (hdone : (∀ bytes, disk.objects.get? key = some bytes → bytes.length = data.length) →
      ∀ state : Disk, state.metadata = disk.metadata → Q () ⟨state, []⟩)
    (hfail : ∀ e bytes, disk.objects.get? key = some bytes → bytes.length ≠ data.length →
      X e ⟨disk, []⟩) :
    wlp (placeObject name key data) Q X ⟨disk, []⟩ := by
  unfold placeObject
  rw [wlp_bind, wlp_perform_nil, wlp_bind, wlp_get]
  cases hobject : disk.objects.get? key with
  | some bytes =>
      simp only [id, hobject]
      by_cases hsize : bytes.length = data.length
      · rw [if_neg (not_not.mpr hsize), wlp_perform_nil]
        refine hdone ?_ _ rfl
        intro bytes' hbytes'
        rw [hobject, Option.some.injEq] at hbytes'
        rw [← hbytes', hsize]
      · rw [if_pos hsize, wlp_throw]
        exact hfail _ bytes hobject hsize
  | none =>
      simp only [id, hobject]
      rw [wlp_bind, wlp_perform_nil, wlp_bind, wlp_perform_nil, wlp_bind, wlp_perform_nil,
        wlp_perform_nil]
      refine hdone ?_ _ rfl
      intro bytes hbytes
      rw [hobject] at hbytes
      cases hbytes

/-- Under the lock a stream is published when it is preservable and the scan raises nothing, and
only a preservable one is; a call that raises has not touched the metadata. -/
theorem wlp_publish (haccepted : request.Accepted) (hid : isId request.artifactId = true)
    (hname : safeFilename filename = .ok name)
    (hquarantine : disk.quarantine.get? (quarantineName E request.artifactId) = none) :
    wlp (publish E request filename)
      (fun _ s => s.answers = [] ∧ ∃ data, Preservable E request disk data)
      (fun _ s => Unpublished disk s ∧
        (Scannable E request disk → ¬∃ data, Preservable E request disk data))
      ⟨disk, []⟩ := by
  unfold publish
  rw [wlp_bind, wlp_get]
  simp only [hquarantine, Option.isSome_none, Bool.false_eq_true, if_false]
  rw [wlp_bind, wlp_perform_nil, wlp_bind]
  refine wlp_hashesFor _ [] ?_ ?_
  · intro data hcontent hlimit
    rw [List.nil_append] at hlimit ⊢
    -- the stream has one content, so each check decides for all
    have honly : ∀ data', Preservable E request disk data' → data' = data := by
      intro data' h
      exact Option.some.inj (h.complete.symm.trans hcontent)
    have hfailed : ∀ {s : Faulty Disk Exn}, Unpublished disk s →
        ¬Preservable E request disk data → Unpublished disk s ∧
          (Scannable E request disk → ¬∃ data, Preservable E request disk data) := by
      intro s hs hnot
      refine ⟨hs, ?_⟩
      rintro _ ⟨data', h⟩
      exact hnot (honly data' h ▸ h)
    rw [wlp_bind, wlp_perform_nil, wlp_bind]
    refine wlp_check ?_ fun e hsize => hfailed ⟨rfl, rfl⟩ fun h => hsize (checkSize_ok_iff.mpr h.sized)
    intro hsize
    rw [wlp_bind]
    refine wlp_check ?_ fun e hhash => hfailed ⟨rfl, rfl⟩ fun h =>
      hhash (checkExpected_ok_iff.mpr h.hashed)
    intro hhash
    rw [wlp_bind, objectPath_digest]
    refine wlp_ofExcept_ok ?_
    rw [wlp_bind]
    refine wlp_placeObject ?_ fun e bytes hbytes hne => hfailed ⟨rfl, rfl⟩ fun h =>
      hne (h.fits bytes hbytes)
    intro hfits state hstate
    have hpreservable : Preservable E request disk data :=
      ⟨hcontent, hlimit, checkSize_ok_iff.mp hsize, checkExpected_ok_iff.mp hhash, hfits⟩
    rw [wlp_bind, wlp_get, wlp_bind, wlp_ofExcept]
    refine ⟨?_, ?_⟩
    · intro prior _
      obtain ⟨document, hdocument, hvalid⟩ :=
        @documentOf_ok E request filename name data haccepted hid hname prior
      rw [wlp_bind, hdocument]
      refine wlp_ofExcept_ok ?_
      rw [wlp_bind, hvalid]
      refine wlp_ofExcept_ok ?_
      exact ⟨rfl, data, hpreservable⟩
    · intro e he
      refine ⟨⟨rfl, hstate⟩, ?_⟩
      intro hscan
      obtain ⟨prior, hprior⟩ := hscan data hcontent
      have hfound : priorOf E request.provenance (E.hashes.digest .sha256 data) state = .ok prior :=
        (priorOf_congr hstate).trans hprior
      cases hfound.symm.trans he
  · intro e reached hbeyond
    refine ⟨⟨rfl, rfl⟩, ?_⟩
    rintro _ ⟨data, h⟩
    exact hbeyond data h.complete h.within

/-- Nothing fails in the clean-up. -/
theorem wlp_unlinks {Q : Unit → Faulty Disk Exn → Prop} {X : Exn → Faulty Disk Exn → Prop}
    {artifactId : Text}
    (h : ∀ disk' : Disk, disk'.metadata = disk.metadata → disk'.quarantine.get? name = none →
      disk'.locks.get? artifactId = none → Q () ⟨disk', []⟩) :
    wlp (do unlinkQuarantine name; unlinkLock artifactId) Q X ⟨disk, []⟩ := by
  unfold unlinkQuarantine unlinkLock
  simp only [wlp_bind, wlp_get, wlp_whenever, wlp_perform_nil, Option.not_isSome_iff_eq_none]
  refine ⟨fun _ => ⟨fun _ => ?_, fun hlock => ?_⟩, fun hquarantine => ⟨fun _ => ?_, fun hlock => ?_⟩⟩
  · exact h _ rfl (Dict.get?_pop_self ..) (Dict.get?_pop_self ..)
  · exact h _ rfl (Dict.get?_pop_self ..) hlock
  · exact h _ rfl hquarantine (Dict.get?_pop_self ..)
  · exact h _ rfl hquarantine hlock

end Publish

/-! ## Coming back -/

section Total

variable {E : Environment} {request : Request} {filename name : Text}

theorem total_hashesFor (maxBytes : ℤ) (reads : Reads) (data : Bytes) :
    Total (hashesFor name maxBytes reads data) := by
  induction reads generalizing data with
  | nil => exact total_pure _
  | cons read rest ih =>
      match read with
      | .error e => exact total_throw e
      | .ok [] => exact total_pure _
      | .ok (byte :: chunk) =>
          unfold hashesFor
          refine total_guard (total_bind (total_performOr _ _) fun _ => ?_)
          exact ih (data ++ byte :: chunk)

theorem total_placeObject (name key : Text) (data : Bytes) : Total (placeObject name key data) := by
  unfold placeObject
  refine total_bind (total_perform _) fun _ => total_bind total_get fun s => ?_
  split
  · exact total_ite (fun _ => total_throw _) fun _ => total_perform _
  · exact total_bind (total_perform _) fun _ => total_bind (total_perform _) fun _ =>
      total_bind (total_perform _) fun _ => total_perform _

theorem total_writeMetadata (artifactId : Text) (document : Value) :
    Total (writeMetadata artifactId document) := by
  unfold writeMetadata
  exact total_bind (total_perform _) fun _ => total_bind (total_perform _) fun _ => total_perform _

theorem total_publish : Total (publish E request filename) := by
  unfold publish
  refine total_bind total_get fun s => total_guard ?_
  refine total_bind (total_perform _) fun _ => total_bind (total_hashesFor _ _ _) fun data => ?_
  refine total_bind (total_perform _) fun _ => total_bind (total_ofExcept _) fun _ => ?_
  refine total_bind (total_ofExcept _) fun _ => total_bind (total_ofExcept _) fun key => ?_
  refine total_bind (total_placeObject _ _ _) fun _ => total_bind total_get fun s => ?_
  refine total_bind (total_ofExcept _) fun prior => total_bind (total_ofExcept _) fun document => ?_
  exact total_bind (total_ofExcept _) fun _ => total_bind (total_writeMetadata _ _) fun _ =>
    total_pure _

theorem total_unlinks (name artifactId : Text) :
    Total (do unlinkQuarantine name; unlinkLock artifactId) := by
  unfold unlinkQuarantine unlinkLock
  refine total_bind (total_bind total_get fun s => ?_) fun _ => total_bind total_get fun s => ?_
  · exact total_whenever fun _ => total_perform _
  · exact total_whenever fun _ => total_perform _

theorem total_preserveStream : Total (preserveStream E request) := by
  unfold preserveStream
  refine total_bind total_get fun s => total_guard ?_
  refine total_bind (total_ofExcept _) fun _ => total_bind (total_ofExcept _) fun filename => ?_
  refine total_guard (total_guard ?_)
  refine total_bind (total_perform _) fun _ => ?_
  exact total_andFinally total_publish (total_unlinks _ _)

end Total

/-! ## Acquisitions -/

section Acquisition

variable {E : Environment} {request : Request} {filename name : Text} {disk : Disk}

/-- The spec of `preserve_stream` where no operation fails and no one else writes. -/
theorem wlp_preserveStream (hinitialized : disk.initialized = true)
    (hid : isId request.artifactId = true) (hunused : disk.metadata.get? request.artifactId = none)
    (hlock : disk.locks.get? request.artifactId = none)
    (hquarantine : disk.quarantine.get? (quarantineName E request.artifactId) = none)
    (hfilename : safeFilename request.filename = .ok filename)
    (hname : safeFilename filename = .ok name) (haccepted : request.Accepted) :
    wlp (preserveStream E request)
      (fun _ s => s.answers = [] ∧ ∃ data, Preservable E request disk data)
      (fun _ s => s.answers = [] ∧ CleanedUp E request.artifactId disk s.state ∧
        (Scannable E request disk → ¬∃ data, Preservable E request disk data))
      ⟨disk, []⟩ := by
  have hvalid : validateId request.artifactId = .ok () := if_pos hid
  unfold preserveStream
  rw [wlp_bind, wlp_get]
  simp only [hinitialized, Bool.true_eq_false, if_false]
  rw [wlp_bind, hvalid]
  refine wlp_ofExcept_ok ?_
  rw [wlp_bind, hfilename]
  refine wlp_ofExcept_ok ?_
  simp only [hunused, hlock, Option.isSome_none, Bool.false_eq_true, if_false]
  rw [wlp_bind, wlp_perform_nil, wlp_andFinally]
  have hpublish := @wlp_publish E request filename name
    { disk with locks := disk.locks.set request.artifactId () } haccepted hid hname hquarantine
  refine wlp_mono hpublish ?_ ?_
  · rintro document s ⟨hanswers, hpreservable⟩
    obtain ⟨state, answers⟩ := s
    obtain rfl : answers = [] := hanswers
    refine wlp_unlinks fun disk' _ _ _ => ⟨rfl, ?_⟩
    obtain ⟨data, h⟩ := hpreservable
    exact ⟨data, h.complete, h.within, h.sized, h.hashed, h.fits⟩
  · rintro e s ⟨⟨hanswers, hmetadata⟩, hnot⟩
    obtain ⟨state, answers⟩ := s
    obtain rfl : answers = [] := hanswers
    refine wlp_unlinks fun disk' hdisk hquarantine' hlock' => ⟨rfl, ⟨?_, hquarantine', hlock'⟩, ?_⟩
    · exact hdisk.trans hmetadata
    · rintro hscan ⟨data, h⟩
      exact hnot hscan ⟨data, h.complete, h.within, h.sized, h.hashed, h.fits⟩

/-- **What is acquired, and that nothing is left of what is not.**  Over an initialized
archive, for an unused id without a lock or a quarantine file, a name that is safe twice and
parts that the metadata check accepts, a call comes back.  When it returns, the stream was
preservable, and a preservable stream is returned as long as the scan for predecessors raises
nothing.  When it raises, the metadata are as they were, and no quarantine file and
no lock are left. -/
theorem preserveStream_accepts_complete_streams (hinitialized : disk.initialized = true)
    (hid : isId request.artifactId = true) (hunused : disk.metadata.get? request.artifactId = none)
    (hlock : disk.locks.get? request.artifactId = none)
    (hquarantine : disk.quarantine.get? (quarantineName E request.artifactId) = none)
    (hfilename : safeFilename request.filename = .ok filename)
    (hname : safeFilename filename = .ok name) (haccepted : request.Accepted) :
    ∃ result disk', (preserveStream E request).run ⟨disk, []⟩ = some (result, ⟨disk', []⟩) ∧
      ((∃ document, result = .ok document) → ∃ data, Preservable E request disk data) ∧
      (Scannable E request disk → (∃ data, Preservable E request disk data) →
        ∃ document, result = .ok document) ∧
      ∀ e, result = .error e → CleanedUp E request.artifactId disk disk' := by
  have hspec := wlp_preserveStream hinitialized hid hunused hlock hquarantine hfilename hname haccepted
  cases hrun : (preserveStream E request).run ⟨disk, []⟩ with
  | none => exact absurd hrun (total_preserveStream _)
  | some outcome =>
      obtain ⟨result, disk', answers⟩ := outcome
      cases result with
      | ok document =>
          obtain ⟨hanswers, hpreservable⟩ := wlp_ok hspec hrun
          obtain rfl : answers = [] := hanswers
          refine ⟨.ok document, disk', rfl, fun _ => hpreservable, fun _ _ => ⟨document, rfl⟩, ?_⟩
          intro e he
          cases he
      | error e =>
          obtain ⟨hanswers, hcleaned, hnot⟩ := wlp_error hspec hrun
          obtain rfl : answers = [] := hanswers
          refine ⟨.error e, disk', rfl, ?_, ?_, fun _ _ => hcleaned⟩
          · intro ⟨document, h⟩
            cases h
          · intro hscan hpreservable
            exact absurd hpreservable (hnot hscan)

end Acquisition

/-! ## An empty file -/

/-- The digests of the empty input. -/
def emptyDigest : Algorithm → Text
  | .sha256 => .of "e3b0c44298fc1c149afbf4c8996fb92427ae41e4649b934ca495991b7852b855"
  | .sha1 => .of "da39a3ee5e6b4b0d3255bfef95601890afd80709"
  | .md5 => .of "d41d8cd98f00b204e9800998ecf8427e"

/-- Hashes that are right for the empty input. -/
def emptyHashes : Hashes where
  digest algorithm _ := emptyDigest algorithm
  isDigest_digest := by
    intro algorithm _
    cases algorithm <;> simp only [emptyDigest, Text.of] <;> decide
  lower_digest := by
    intro algorithm _
    cases algorithm <;> simp only [emptyDigest, Text.of] <;> decide

/-- A process that knows no media type. -/
def emptyEnvironment : Environment where
  root := .of "/srv/archive"
  pid := .of "7"
  hashes := emptyHashes
  guessType _ := none
  sortOthers _ := Value.typeError

/-- The import of an empty file, to be published and without expectations. -/
def emptyRequest (filename : String) : Request where
  artifactId := .of "blank"
  filename := .of filename
  reads := []
  provenance := [(.of "acquired_at", .text (.of "2026-01-01T00:00:00Z")),
    (.of "source", .text (.of "disk")), (.of "source_url", .text (.of "https://example.org/blank")),
    (.of "retrieval_method", .text (.of "local_file"))]
  args :=
    { expected := fun _ => none
      maxBytes := 1024
      rightsStatus := .of "unknown"
      installLocally := false
      redistributeOriginal := false
      publishToBbsFilebase := true
      noOwnerExport := false
      rightsEvidence := []
      softwareFamily := none
      version := none
      platform := none }
  preservationClass := .of "original"
  role := .of "preservation_original"
  lineage := .null
  expectedSize := none

/-- An archive with some objects. -/
def Disk.holding (objects : Dict Text Bytes) : Disk := ⟨true, ∅, objects, ∅, ∅⟩

theorem isId_emptyRequest (filename : String) : isId (emptyRequest filename).artifactId = true := by
  simp only [emptyRequest, Text.of]
  decide

theorem safeFilename_blank : safeFilename (.of "BLANK") = .ok (.of "BLANK") := by
  simp only [Text.of]
  decide

theorem accepted_emptyRequest (filename : String) : (emptyRequest filename).Accepted where
  role := List.mem_map_of_mem (by decide)
  preservationClass := List.mem_map_of_mem (by decide)
  rightsStatus := List.mem_map_of_mem (by decide)
  provenance := by
    have hgiven : ∀ c text, checkGiven (.text (c :: text)) = .ok () := fun _ _ => rfl
    simp only [emptyRequest, checkProvenance, Value.item, Fields.item, Fields.get?_cons, bind,
      Except.bind]
    simp [Text.of, hgiven]
  lineage := by
    intro h
    cases h

/-- It can be preserved where no object of another size has its digest. -/
theorem preservable_emptyRequest (filename : String) :
    Preservable emptyEnvironment (emptyRequest filename) (.holding ∅) [] := by
  refine ⟨rfl, .inl rfl, ?_, ?_, ?_⟩
  · intro expected h
    cases h
  · intro algorithm wanted h
    cases h
  · intro bytes h
    cases h

theorem scannable_emptyRequest (filename : String) :
    Scannable emptyEnvironment (emptyRequest filename) (.holding ∅) :=
  fun _ _ => ⟨_, rfl⟩

/-- An empty file is imported into an archive without objects. -/
theorem preserveStream_accepts_empty :
    ∃ document disk', (preserveStream emptyEnvironment (emptyRequest "BLANK")).run ⟨.holding ∅, []⟩ =
      some (.ok document, ⟨disk', []⟩) := by
  obtain ⟨result, disk', hrun, -, haccepts, -⟩ :=
    @preserveStream_accepts_complete_streams emptyEnvironment (emptyRequest "BLANK") _ _ (.holding ∅)
      rfl (isId_emptyRequest _) rfl rfl rfl safeFilename_blank safeFilename_blank
      (accepted_emptyRequest _)
  obtain ⟨document, rfl⟩ := haccepts (scannable_emptyRequest _) ⟨[], preservable_emptyRequest _⟩
  exact ⟨document, disk', hrun⟩

/-- The same file is refused where an object of another size is stored under its digest. -/
theorem preserveStream_refuses_mismatched_object :
    let disk := Disk.holding ((∅ : Dict Text Bytes).set (emptyDigest .sha256) [0])
    let request := emptyRequest "BLANK"
    disk.initialized = true ∧ isId request.artifactId = true ∧
      disk.metadata.get? request.artifactId = none ∧ disk.locks.get? request.artifactId = none ∧
      disk.quarantine.get? (quarantineName emptyEnvironment request.artifactId) = none ∧
      safeFilename request.filename = .ok request.filename ∧ request.Accepted ∧
      content request.reads = some [] ∧ 0 ≤ request.args.maxBytes ∧ request.expectedSize = none ∧
      (∀ algorithm, request.args.expected algorithm = none) ∧
      ∃ e disk', (preserveStream emptyEnvironment request).run ⟨disk, []⟩ =
        some (.error e, ⟨disk', []⟩) := by
  intro disk request
  refine ⟨rfl, isId_emptyRequest _, rfl, rfl, rfl, safeFilename_blank, accepted_emptyRequest _,
    rfl, by decide, rfl, fun _ => rfl, ?_⟩
  have hspec := @wlp_preserveStream emptyEnvironment request _ _ disk rfl (isId_emptyRequest _) rfl
    rfl rfl safeFilename_blank safeFilename_blank (accepted_emptyRequest _)
  cases hrun : (preserveStream emptyEnvironment request).run ⟨disk, []⟩ with
  | none => exact absurd hrun (total_preserveStream _)
  | some outcome =>
      obtain ⟨result, disk', answers⟩ := outcome
      cases result with
      | ok document =>
          obtain ⟨-, data, h⟩ := wlp_ok hspec hrun
          obtain rfl : [] = data := Option.some.inj h.complete
          have hlength := h.fits [0] (Dict.get?_set_self ..)
          cases hlength
      | error e =>
          obtain ⟨hanswers, -⟩ := wlp_error hspec hrun
          obtain rfl : answers = [] := hanswers
          exact ⟨e, disk', rfl⟩

end UltimateBBSBox.Archive

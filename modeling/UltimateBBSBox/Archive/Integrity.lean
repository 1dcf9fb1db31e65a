import UltimateBBSBox.Archive.Runs

/-!
# The integrity of an archive

After any calls every document in `metadata` loads and verifies under its own id, and every
object has the digest that it is named by.  Neither changes any more once it is there.
-/

namespace UltimateBBSBox.Archive

open Act Faulty
open Url

/-! ## Documents that load and verify -/

section Loading

variable {E : Environment} {disk disk' : Disk} {artifactId : Text} {metadata : Value}

theorem loadMetadata_ok_iff :
    loadMetadata disk artifactId = .ok metadata ↔ isId artifactId = true ∧
      disk.metadata.get? artifactId = some (.document metadata) ∧ checkMetadata metadata = .ok () := by
  unfold loadMetadata
  rw [Except.check_bind_eq_ok]
  constructor
  · rintro ⟨hid, h⟩
    refine ⟨isId_of_validateId hid, ?_⟩
    split at h
    · cases h
    · cases h
    · cases h
    · cases h
    · rename_i value hfile
      obtain ⟨hvalid, h⟩ := Except.check_bind_eq_ok.mp h
      obtain rfl := Except.pure_eq_ok.mp h
      exact ⟨hfile, validateMetadata_ok_iff.mp hvalid⟩
  · rintro ⟨hid, hfile, hvalid⟩
    refine ⟨if_pos hid, ?_⟩
    simp only [hfile, validateMetadata_ok_iff.mpr hvalid, bind, Except.bind]
    rfl

/-- The object of some metadata is there, with the digest and the size that they say. -/
structure Stocked (E : Environment) (disk : Disk) (metadata : Value) (sha256 : Text) (bytes : Bytes) :
    Prop where
  recorded : (metadata.item "artifact" >>= fun artifact => artifact.item "sha256") = .ok (.text sha256)
  size : ∃ size, (metadata.item "artifact" >>= fun artifact => artifact.item "size") = .ok size ∧
    size.isInt bytes.length = true
  object : ∃ key, objectPath sha256 = .ok key ∧ disk.objects.get? key = some bytes
  digest : E.hashes.digest .sha256 bytes = sha256

theorem verifyOne_ok_iff :
    verifyOne E disk artifactId = .ok metadata ↔
      loadMetadata disk artifactId = .ok metadata ∧ ∃ sha256 bytes, Stocked E disk metadata sha256 bytes := by
  unfold verifyOne
  constructor
  · intro h
    obtain ⟨loaded, hload, h⟩ := Except.bind_eq_ok.mp h
    obtain ⟨artifact, hartifact, h⟩ := Except.bind_eq_ok.mp h
    obtain ⟨value, hvalue, h⟩ := Except.bind_eq_ok.mp h
    obtain ⟨sha256, hsha256, hrest⟩ := Except.bind_eq_ok.mp h
    rw [eq_text_of_toText hsha256] at hvalue
    obtain ⟨key, hkey, hrest⟩ := Except.bind_eq_ok.mp hrest
    split at hrest
    · cases hrest
    · rename_i bytes hbytes
      obtain ⟨size, hsize, hrest⟩ := Except.bind_eq_ok.mp hrest
      obtain ⟨hmatch, hrest⟩ := Except.guard_eq_ok.mp hrest
      obtain rfl := Except.pure_eq_ok.mp hrest
      push Not at hmatch
      refine ⟨hload, sha256, bytes, ?_, ⟨size, ?_, ?_⟩, ⟨key, hkey, hbytes⟩, hmatch.1⟩
      · rw [hartifact]
        exact hvalue
      · rw [hartifact]
        exact hsize
      · simpa using hmatch.2
  · rintro ⟨hload, sha256, bytes, hsha256, ⟨size, hsize, hmatch⟩, ⟨key, hkey, hbytes⟩, hdigest⟩
    obtain ⟨artifact, hartifact, hvalue⟩ := Except.bind_eq_ok.mp hsha256
    rw [hartifact] at hsize
    have hsize' : artifact.item "size" = .ok size := hsize
    simp only [hload, hartifact, hvalue, Value.toText, hkey, hbytes, hsize', bind, Except.bind]
    simp [hdigest, hmatch, pure, Except.pure]

end Loading

/-! ## What is there stays -/

/-- Neither the metadata files nor the objects that are there change. -/
structure Kept (disk disk' : Disk) : Prop where
  metadata : ∀ stem file, disk.metadata.get? stem = some file → disk'.metadata.get? stem = some file
  objects : ∀ digest bytes, disk.objects.get? digest = some bytes →
    disk'.objects.get? digest = some bytes

/-- Every object has its digest as its name, and every document loads and verifies under its
own id. -/
structure Intact (E : Environment) (disk : Disk) : Prop where
  named : ∀ digest bytes, disk.objects.get? digest = some bytes →
    E.hashes.digest .sha256 bytes = digest
  published : ∀ stem file, disk.metadata.get? stem = some file → ∃ document, file = .document document ∧
    loadMetadata disk stem = .ok document ∧ document.item "id" = .ok (.text stem) ∧
    verifyOne E disk stem = .ok document

section Integrity

variable {E : Environment} {U : Unicode} {disk disk' disk'' : Disk} {request : Request} {data : Bytes}
  {prior : List Value} {document metadata : Value} {artifactId filename : Text}

theorem Kept.refl (disk : Disk) : Kept disk disk := ⟨fun _ _ => id, fun _ _ => id⟩

theorem Kept.trans (h : Kept disk disk') (h' : Kept disk' disk'') : Kept disk disk'' :=
  ⟨fun stem file hfile => h'.metadata stem file (h.metadata stem file hfile),
    fun digest bytes hbytes => h'.objects digest bytes (h.objects digest bytes hbytes)⟩

theorem Deposits.get? {objects objects' : Dict Text Bytes} {digest : Text} {bytes : Bytes}
    (h : Deposits E.hashes data objects objects') (hbytes : objects.get? digest = some bytes) :
    objects'.get? digest = some bytes := by
  rcases h with rfl | ⟨hnone, rfl⟩
  · exact hbytes
  · have hne : digest ≠ E.hashes.digest .sha256 data := by
      rintro rfl
      rw [hnone] at hbytes
      cases hbytes
    rw [Dict.get?_set_ne _ _ hne, hbytes]

theorem Publishes.get? (h : Publishes E request disk disk' data prior document) :
    disk'.metadata.get? request.artifactId = some (.document document.sortKeys) := by
  rw [h.metadata, Dict.get?_set_self]

/-- A metadata file after a publication is the new one, or was there before. -/
theorem Publishes.cases (h : Publishes E request disk disk' data prior document) {stem : Text}
    {file : MetadataFile} (hfile : disk'.metadata.get? stem = some file) :
    (stem = request.artifactId ∧ file = .document document.sortKeys) ∨
      disk.metadata.get? stem = some file := by
  rw [h.metadata, Dict.get?_set] at hfile
  split at hfile
  · rename_i hstem
    exact .inl ⟨hstem, (Option.some.inj hfile).symm⟩
  · exact .inr hfile

theorem Moves.kept (h : Moves E disk disk') : Kept disk disk' := by
  rcases h with ⟨hmetadata, data, hdeposits⟩ | ⟨request, data, prior, document, -, h⟩
  · refine ⟨fun stem file hfile => ?_, fun _ _ => hdeposits.get?⟩
    rw [hmetadata]
    exact hfile
  · refine ⟨fun stem file hfile => ?_, fun _ _ => h.objects.get?⟩
    have hne : stem ≠ request.artifactId := by
      rintro rfl
      rw [h.unused] at hfile
      cases hfile
    rw [h.metadata, Dict.get?_set_ne _ _ hne]
    exact hfile

theorem loadMetadata_kept (hkept : Kept disk disk') (h : loadMetadata disk artifactId = .ok metadata) :
    loadMetadata disk' artifactId = .ok metadata := by
  obtain ⟨hid, hfile, hvalid⟩ := loadMetadata_ok_iff.mp h
  exact loadMetadata_ok_iff.mpr ⟨hid, hkept.metadata _ _ hfile, hvalid⟩

/-- What verifies goes on to verify. -/
theorem verifyOne_kept (hkept : Kept disk disk') (h : verifyOne E disk artifactId = .ok metadata) :
    verifyOne E disk' artifactId = .ok metadata := by
  obtain ⟨hload, sha256, bytes, hsha256, hsize, ⟨key, hkey, hbytes⟩, hdigest⟩ := verifyOne_ok_iff.mp h
  exact verifyOne_ok_iff.mpr ⟨loadMetadata_kept hkept hload, sha256, bytes, hsha256, hsize,
    ⟨key, hkey, hkept.objects _ _ hbytes⟩, hdigest⟩

/-- The fields of a document that is read back. -/
theorem artifact_of_documentOf (h : documentOf E request filename data prior = .ok document)
    {key : String} {value : Value} (hkey : (artifactFields E request filename data).get? key = some value) :
    (document.sortKeys.item "artifact" >>= fun artifact => artifact.item key) = .ok value.sortKeys := by
  obtain ⟨⟨derivedFrom, hartifact⟩, -⟩ := items_of_documentOf h
  exact nested_item_sortKeys hartifact (item_artifactOf hkey derivedFrom)

theorem id_of_documentOf (h : documentOf E request filename data prior = .ok document) :
    document.sortKeys.item "id" = .ok (.text request.artifactId) := by
  unfold documentOf at h
  obtain ⟨derivedFrom, -, h⟩ := Except.bind_eq_ok.mp h
  obtain rfl := Except.pure_eq_ok.mp h
  rw [Value.item_sortKeys]
  simp [Value.item, Fields.item, Except.map, Value.sortKeys]

/-- The digest of a document that has been published. -/
theorem Publishes.sha256 (h : Publishes E request disk disk' data prior document) :
    (document.sortKeys.item "artifact" >>= fun artifact => artifact.item "sha256") =
      .ok (.text (E.hashes.digest .sha256 data)) := by
  obtain ⟨filename, hdocument⟩ := h.written
  have hkey : (artifactFields E request filename data).get? "sha256" =
      some (.text (E.hashes.digest .sha256 data)) := by simp [artifactFields]
  exact artifact_of_documentOf hdocument hkey

theorem Publishes.loaded (h : Publishes E request disk disk' data prior document) :
    loadMetadata disk' request.artifactId = .ok document.sortKeys :=
  loadMetadata_ok_iff.mpr ⟨h.isId, h.get?, checkMetadata_sortKeys (validateMetadata_ok_iff.mp h.valid)⟩

/-- What has been published verifies, also where its object was there before. -/
theorem Publishes.verified (h : Publishes E request disk disk' data prior document)
    (hnamed : ∀ digest bytes, disk'.objects.get? digest = some bytes →
      E.hashes.digest .sha256 bytes = digest) :
    verifyOne E disk' request.artifactId = .ok document.sortKeys := by
  obtain ⟨bytes, hbytes, hlength⟩ := h.placed
  obtain ⟨filename, hdocument⟩ := h.written
  have hsize : (artifactFields E request filename data).get? "size" =
      some (.number (.int data.length)) := by simp [artifactFields]
  refine verifyOne_ok_iff.mpr ⟨h.loaded, _, bytes, h.sha256,
    ⟨_, artifact_of_documentOf hdocument hsize, ?_⟩, ⟨_, objectPath_digest, hbytes⟩, hnamed _ _ hbytes⟩
  rw [hlength]
  exact decide_eq_true rfl

theorem Deposits.named {objects objects' : Dict Text Bytes} (h : Deposits E.hashes data objects objects')
    (hnamed : ∀ digest bytes, objects.get? digest = some bytes → E.hashes.digest .sha256 bytes = digest) :
    ∀ digest bytes, objects'.get? digest = some bytes → E.hashes.digest .sha256 bytes = digest := by
  rcases h with rfl | ⟨-, rfl⟩
  · exact hnamed
  · intro digest bytes hbytes
    rw [Dict.get?_set] at hbytes
    split at hbytes
    · rename_i hdigest
      rw [hdigest, Option.some.inj hbytes]
    · exact hnamed digest bytes hbytes

theorem Moves.intact (hmoves : Moves E disk disk') (h : Intact E disk) : Intact E disk' := by
  have hkept := hmoves.kept
  have hbefore : ∀ stem file, disk.metadata.get? stem = some file → ∃ document,
      file = .document document ∧ loadMetadata disk' stem = .ok document ∧
        document.item "id" = .ok (.text stem) ∧ verifyOne E disk' stem = .ok document := by
    intro stem file hfile
    obtain ⟨document, hdocument, hload, hid, hverified⟩ := h.published stem file hfile
    exact ⟨document, hdocument, loadMetadata_kept hkept hload, hid, verifyOne_kept hkept hverified⟩
  rcases hmoves with ⟨hmetadata, data, hdeposits⟩ | ⟨request, data, prior, document, -, hpublishes⟩
  · refine ⟨hdeposits.named h.named, fun stem file hfile => ?_⟩
    rw [hmetadata] at hfile
    exact hbefore stem file hfile
  · have hnamed := hpublishes.objects.named h.named
    refine ⟨hnamed, fun stem file hfile => ?_⟩
    rcases hpublishes.cases hfile with ⟨rfl, rfl⟩ | hold
    · obtain ⟨filename, hdocument⟩ := hpublishes.written
      exact ⟨_, rfl, hpublishes.loaded, id_of_documentOf hdocument, hpublishes.verified hnamed⟩
    · exact hbefore stem file hold

theorem intact_fresh (E : Environment) : Intact E .fresh := by
  refine ⟨?_, ?_⟩
  · intro digest bytes h
    cases h
  · intro stem file h
    cases h

theorem intact_leaves (turns : List Turn) : Intact E (leaves E U turns .fresh) :=
  leaves_induction (fun _ _ h hmoves => hmoves.intact h) turns (intact_fresh E)

theorem kept_leaves (turns : List Turn) : Kept disk (leaves E U turns disk) :=
  leaves_induction (fun _ _ h hmoves => h.trans hmoves.kept) turns (.refl disk)

/-- **The integrity of an archive.**  After any calls on an archive that was initialized, each with
any of its operations failing, every document loads, has the id that its file is named by, and
verifies, and every object has the digest that it is named by; and no later calls change a document
or an object that is there. -/
theorem archive_intact (E : Environment) (U : Unicode) (turns later : List Turn) :
    Intact E (leaves E U turns .fresh) ∧
      Kept (leaves E U turns .fresh) (leaves E U later (leaves E U turns .fresh)) :=
  ⟨intact_leaves turns, kept_leaves later⟩

end Integrity

end UltimateBBSBox.Archive

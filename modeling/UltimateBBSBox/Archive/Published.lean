import UltimateBBSBox.Archive.Exporting
import UltimateBBSBox.Archive.Preserving
import UltimateBBSBox.Archive.ReadBack

/-!
# Published artifacts

The calls that publish an artifact (`import_artifact`, `acquire_http` and `derive`) hand
their provenance and lineage to `preserve_stream`; what it returns is what is in the
metadata file afterwards, with sorted keys, whichever operations failed on the way.
-/

namespace UltimateBBSBox.Archive

open Act Faulty

/-! ## Where a request comes from -/

/-- `**({"notes": args.notes} if args.notes else {})`. -/
def withNotes (fields : Fields) : Option Text → Fields
  | none | some [] => fields
  | some notes => fields.set "notes" (.text notes)

/-- The provenance of `import_artifact` and `acquire_http`; `extra` is `args.provenance`. -/
def acquiredProvenance (acquiredAt source cleanUrl retrievalMethod : Text) (extra : Fields)
    (notes : Option Text) : Fields :=
  let fields : Fields := [(.of "acquired_at", .text acquiredAt), (.of "source", .text source),
    (.of "source_url", .text cleanUrl), (.of "retrieval_method", .text retrievalMethod)]
  withNotes (extra.foldl (fun fields field => Dict.setEntries field.1 field.2 fields) fields) notes

/-- The provenance of `derive`. -/
def derivedProvenance (acquiredAt : Text) (notes : Option Text) : Fields :=
  withNotes [(.of "acquired_at", .text acquiredAt), (.of "source", .text (.of "derived in archive")),
    (.of "retrieval_method", .text (.of "derived"))] notes

/-- The lineage of `derive`. -/
def derivedLineage (parents : List (Text × Text)) (action derivedAt : Text) (tool notes : Option Text) :
    Value :=
  .object ([(Text.of "parents", .array (parents.map fun parent =>
      .object [(.of "artifact_id", .text parent.1), (.of "sha256", .text parent.2)])),
    (.of "action", .text action), (.of "derived_at", .text derivedAt)] ++
    optionalField "tool" tool ++ optionalField "notes" notes)

/-- The requests of `import_artifact` and `acquire_http`, and those of `derive`. -/
inductive Origin : Request → Prop
  | acquired (artifactId filename : Text) (reads : Reads) (args : Args) (expectedSize : Option ℤ)
      (acquiredAt source cleanUrl retrievalMethod : Text) (extra : Fields) (notes : Option Text) :
      Origin
        { artifactId := artifactId
          filename := filename
          reads := reads
          provenance := acquiredProvenance acquiredAt source cleanUrl retrievalMethod extra notes
          args := args
          preservationClass := .of "original"
          role := .of "preservation_original"
          lineage := .null
          expectedSize := expectedSize }
  | derived (artifactId filename : Text) (reads : Reads) (args : Args) (acquiredAt derivedAt role : Text)
      (parents : List (Text × Text)) (action : Text) (tool notes : Option Text) :
      Origin
        { artifactId := artifactId
          filename := filename
          reads := reads
          provenance := derivedProvenance acquiredAt notes
          args := args
          preservationClass :=
            if role = .of "reconstructed" then .of "reconstructed" else .of "derived"
          role := role
          lineage := derivedLineage parents action derivedAt tool notes
          expectedSize := none }

/-- A lineage has an action, which is a text. -/
theorem action_of_origin {request : Request} (h : Origin request) :
    request.lineage = .null ∨ ∃ action, request.lineage.item "action" = .ok (.text action) := by
  cases h with
  | acquired => exact .inl rfl
  | derived artifactId filename reads args acquiredAt derivedAt role parents action =>
      refine .inr ⟨action, ?_⟩
      simp [derivedLineage, Value.item, Fields.item]

/-! ## Parts of a published document -/

section Document

variable {E : Environment} {request : Request} {filename : Text} {data : Bytes} {prior : List Value}
  {document : Value}

/-- The parts of the document of a request. -/
theorem items_of_documentOf (h : documentOf E request filename data prior = .ok document) :
    (∃ derivedFrom, document.item "artifact" = .ok (artifactOf E request filename data derivedFrom)) ∧
      document.item "provenance" = .ok (provenanceOf request.provenance prior) ∧
      document.item "rights" = .ok (rightsDocument request.args) ∧
      document.item "preservation" =
        .ok (preservationOf request.preservationClass request.lineage) := by
  unfold documentOf at h
  obtain ⟨derivedFrom, -, h⟩ := Except.bind_eq_ok.mp h
  obtain rfl := Except.pure_eq_ok.mp h
  refine ⟨⟨derivedFrom, ?_⟩, ?_, ?_, ?_⟩
  · simp [Value.item, Fields.item]
  · simp [Value.item, Fields.item]
  · simp [Value.item, Fields.item]
  · simp [Value.item, Fields.item]

/-- A field of the provenance is there as it was given, but for the two that are added. -/
theorem get?_provenanceOf (provenance : Fields) (prior : List Value) {key : String}
    (hchanged : key ≠ "source_changed") (hprevious : key ≠ "previous_artifacts_from_source") :
    ∃ fields, provenanceOf provenance prior = .object fields ∧
      Fields.get? fields key = provenance.get? key := by
  unfold provenanceOf
  by_cases hprior : prior.isEmpty = true
  · rw [if_pos hprior]
    refine ⟨_, rfl, ?_⟩
    rw [Fields.get?_set, if_neg hchanged]
  · rw [if_neg hprior]
    refine ⟨_, rfl, ?_⟩
    rw [Fields.get?_set, if_neg hprevious, Fields.get?_set, if_neg hchanged]

variable {disk : Disk} {name : Text}

/-- The payload of a published artifact. -/
theorem payload_of_documentOf (h : documentOf E request filename data prior = .ok document)
    (hobject : disk.objects.get? (E.hashes.digest .sha256 data) = some data)
    (hname : safeFilename filename = .ok name) :
    Payload disk document.sortKeys (E.hashes.digest .sha256 data) (E.hashes.digest .sha256 data) data
      filename name := by
  obtain ⟨⟨derivedFrom, hartifact⟩, -⟩ := items_of_documentOf h
  have hfield : ∀ {key : String} {text : Text},
      (artifactFields E request filename data).get? key = some (.text text) →
      (document.sortKeys.item "artifact" >>= fun artifact => artifact.item key) = .ok (.text text) :=
    fun hkey => nested_item_sortKeys hartifact (item_artifactOf hkey derivedFrom)
  exact ⟨hfield (by simp [artifactFields]), objectPath_digest, hobject,
    hfield (by simp [artifactFields]), hname⟩

/-- **What is published verifies**, as long as its metadata file and its object are as they were left. -/
theorem verifyOne_of_documentOf (h : documentOf E request filename data prior = .ok document)
    (hvalid : validateMetadata document = .ok ()) (hid : isId request.artifactId = true)
    (hmetadata : disk.metadata.get? request.artifactId = some (.document document.sortKeys))
    (hobject : disk.objects.get? (E.hashes.digest .sha256 data) = some data) :
    verifyOne E disk request.artifactId = .ok document.sortKeys := by
  obtain ⟨⟨derivedFrom, hartifact⟩, -⟩ := items_of_documentOf h
  have hloaded : loadMetadata disk request.artifactId = .ok document.sortKeys := by
    have hchecked := validateMetadata_ok_iff.mpr
      (checkMetadata_sortKeys (validateMetadata_ok_iff.mp hvalid))
    unfold loadMetadata
    simp only [validateId, hid, if_true, hmetadata, hchecked, bind, Except.bind]
    rfl
  have hsha256 : (artifactOf E request filename data derivedFrom).sortKeys.item "sha256" =
      .ok (.text (E.hashes.digest .sha256 data)) := by
    rw [Value.item_sortKeys, item_artifactOf (by simp [artifactFields]; rfl)]
    rfl
  have hsize : (artifactOf E request filename data derivedFrom).sortKeys.item "size" =
      .ok (.number (.int data.length)) := by
    rw [Value.item_sortKeys, item_artifactOf (by simp [artifactFields]; rfl)]
    rfl
  have hsorted : document.sortKeys.item "artifact" =
      .ok (artifactOf E request filename data derivedFrom).sortKeys := by
    rw [Value.item_sortKeys, hartifact]
    rfl
  have hmatch : Value.isInt (.number (.int data.length)) data.length = true := decide_eq_true rfl
  unfold verifyOne
  simp only [hloaded, hsorted, hsha256, hsize, Value.toText, objectPath_digest, hobject, hmatch, bind,
    Except.bind]
  simp [pure, Except.pure]

/-- The permissions of a published artifact are those of its request. -/
theorem granted_of_documentOf (h : documentOf E request filename data prior = .ok document)
    {key : String} (hkey : (rightsDocument request.args).item key = .ok (.bool true)) :
    Granted document.sortKeys key := by
  obtain ⟨-, -, hrights, -⟩ := items_of_documentOf h
  exact nested_item_sortKeys hrights hkey

end Document

/-! ## What is published -/

section Published

variable {E : Environment} {request : Request} {filename : Text} {document : Value} {disk : Disk}
  {s s' : Faulty Disk Exn}

/-- The metadata that a call leaves in a file: those of the data of the stream. -/
def Recorded (E : Environment) (request : Request) (filename : Text) (document : Value)
    (s : Faulty Disk Exn) : Prop :=
  (∃ data prior, content request.reads = some data ∧
    documentOf E request filename data prior = .ok document) ∧
    validateMetadata document = .ok () ∧
    s.state.metadata.get? request.artifactId = some (.document document.sortKeys)

/-- What the loop of `hashes_for` returns is the data of the stream, in any case. -/
theorem hashesFor_content {name : Text} {maxBytes : ℤ} (reads : Reads) (data : Bytes)
    (s : Faulty Disk Exn) :
    wlp (hashesFor name maxBytes reads data)
      (fun result _ => ∃ rest, content reads = some rest ∧ result = data ++ rest)
      (fun _ _ => True) s := by
  induction reads generalizing data s with
  | nil => exact ⟨[], rfl, (List.append_nil data).symm⟩
  | cons read rest ih =>
      match read with
      | .error e => trivial
      | .ok [] => exact ⟨[], rfl, (List.append_nil data).symm⟩
      | .ok (byte :: chunk) =>
          unfold hashesFor
          rw [wlp_ite]
          refine ⟨fun _ => trivial, fun _ => wlp_skip fun _ s' => ?_⟩
          refine wlp_mono (ih (data ++ byte :: chunk) s') ?_ fun _ _ => id
          rintro result _ ⟨rest', hrest', hresult⟩
          refine ⟨byte :: chunk ++ rest', ?_, ?_⟩
          · rw [content_cons, hrest']
            rfl
          · rw [hresult, List.append_assoc]

/-- Whichever operations fail: what is returned has been recorded. -/
theorem publish_recorded (s : Faulty Disk Exn) :
    wlp (publish E request filename) (Recorded E request filename) (fun _ _ => True) s := by
  unfold publish
  rw [wlp_bind, wlp_get, wlp_ite]
  refine ⟨fun _ => trivial, fun _ => ?_⟩
  refine wlp_skip fun _ s₁ => ?_
  rw [wlp_bind]
  refine wlp_mono (hashesFor_content request.reads [] s₁) ?_ fun _ _ => id
  intro data _ ⟨_, hcontent, hdata⟩
  rw [List.nil_append] at hdata
  subst hdata
  refine wlp_skip fun _ _ => wlp_skip fun _ _ => wlp_skip fun _ _ => wlp_skip fun key _ => ?_
  refine wlp_skip fun _ _ => ?_
  rw [wlp_bind, wlp_get]
  refine wlp_skip fun prior _ => ?_
  rw [wlp_bind, wlp_ofExcept]
  refine ⟨fun document hdocument => ?_, fun _ _ => trivial⟩
  rw [wlp_bind, wlp_ofExcept]
  refine ⟨fun _ hvalid => ?_, fun _ _ => trivial⟩
  unfold writeMetadata
  rw [wlp_bind]
  refine wlp_skip fun _ _ => ?_
  rw [wlp_bind, wlp_perform]
  refine ⟨fun _ => ?_, fun _ _ _ => trivial⟩
  rw [wlp_perform]
  refine ⟨fun _ => ⟨⟨data, prior, hcontent, hdocument⟩, hvalid, ?_⟩, fun _ _ _ => trivial⟩
  exact Dict.get?_set_self ..

theorem unlinks_keep_metadata (name artifactId : Text) :
    wlp (do unlinkQuarantine name; unlinkLock artifactId)
      (fun _ s' => s'.state.metadata = s.state.metadata) (fun _ _ => True) s := by
  unfold unlinkQuarantine unlinkLock
  simp only [wlp_bind, wlp_get, wlp_whenever, wlp_perform]
  simp

/-- What a call returns is what the metadata file holds afterwards. -/
theorem recorded_of_run (hrun : (preserveStream E request).run s = some (.ok document, s')) :
    ∃ filename, safeFilename request.filename = .ok filename ∧
      Recorded E request filename document s' := by
  have hspec : wlp (preserveStream E request) (fun document s' => ∃ filename,
      safeFilename request.filename = .ok filename ∧ Recorded E request filename document s')
      (fun _ _ => True) s := by
    unfold preserveStream
    rw [wlp_bind, wlp_get, wlp_ite]
    refine ⟨fun _ => trivial, fun _ => wlp_skip fun _ _ => ?_⟩
    rw [wlp_bind, wlp_ofExcept]
    refine ⟨fun filename hfilename => ?_, fun _ _ => trivial⟩
    rw [wlp_ite]
    refine ⟨fun _ => trivial, fun _ => ?_⟩
    rw [wlp_ite]
    refine ⟨fun _ => trivial, fun _ => wlp_skip fun _ _ => ?_⟩
    rw [wlp_andFinally]
    refine wlp_mono (publish_recorded _) ?_ ?_
    · intro document s₁ hrecorded
      refine wlp_mono (unlinks_keep_metadata _ _) ?_ fun _ _ => id
      intro _ s₂ hsame
      refine ⟨filename, hfilename, hrecorded.1, hrecorded.2.1, ?_⟩
      rw [hsame]
      exact hrecorded.2.2
    · intro e s₁ _
      exact wlp_mono wlp_true (fun _ _ => id) fun _ _ => id
  exact wlp_ok hspec hrun

/-- The artifact of a request has been published, whatever happened before and on the way, and its
metadata file is as it was left. -/
def Published (E : Environment) (disk : Disk) (request : Request) (document : Value) : Prop :=
  ∃ s s', (preserveStream E request).run s = some (.ok document, s') ∧
    disk.metadata.get? request.artifactId = s'.state.metadata.get? request.artifactId

end Published

/-! ## An empty file that is published -/

/-- An exporter for which no file is a ZIP file. -/
def emptyExporter : Exporter where
  toEnvironment := emptyEnvironment
  str _ := []
  upper := id
  suffix := .of "abcdefgh"
  length_suffix := rfl
  zip _ := .error (.foreign .badZipFile)
  linkTarget _ := none

/-- The empty file is imported with a source and without notes. -/
theorem origin_emptyRequest (filename : String) : Origin (emptyRequest filename) := by
  have hprovenance : (emptyRequest filename).provenance =
      acquiredProvenance (.of "2026-01-01T00:00:00Z") (.of "disk") (.of "https://example.org/blank")
        (.of "local_file") [] none := rfl
  have horigin := Origin.acquired (.of "blank") (.of filename) [] (emptyRequest filename).args none
    (.of "2026-01-01T00:00:00Z") (.of "disk") (.of "https://example.org/blank") (.of "local_file") [] none
  rw [← hprovenance] at horigin
  exact horigin

/-- The archive has the empty file under a name, ready to be published. -/
structure Staged (filename : String) (disk : Disk) (document : Value) : Prop where
  published : Published emptyExporter.toEnvironment disk (emptyRequest filename) document
  verified : verifyOne emptyExporter.toEnvironment disk (emptyRequest filename).artifactId =
    .ok document.sortKeys
  permitted : Permitted document.sortKeys .publication false
  payload : Payload disk document.sortKeys (emptyDigest .sha256) (emptyDigest .sha256) []
    (.of filename) (.of filename)

/-- The empty file can be published under any name that is safe as it is. -/
theorem exists_staged {filename : String} (h : safeFilename (.of filename) = .ok (.of filename)) :
    ∃ disk document, Staged filename disk document := by
  have hspec := @wlp_preserveStream emptyEnvironment (emptyRequest filename) (.of filename)
    (.of filename) (.holding ∅) rfl (isId_emptyRequest _) rfl rfl rfl h h (accepted_emptyRequest _)
  cases hrun : (preserveStream emptyEnvironment (emptyRequest filename)).run ⟨.holding ∅, []⟩ with
  | none => exact absurd hrun (total_preserveStream _)
  | some outcome =>
      obtain ⟨result, s'⟩ := outcome
      cases result with
      | error e =>
          obtain ⟨-, -, hnot⟩ := wlp_error hspec hrun
          exact absurd ⟨[], preservable_emptyRequest _⟩ (hnot (scannable_emptyRequest _))
      | ok document =>
          obtain ⟨name, hname, ⟨data, prior, hcontent, hdocument⟩, hvalid, hrecorded⟩ :=
            recorded_of_run hrun
          obtain rfl : [] = data := Option.some.inj hcontent
          obtain rfl : Text.of filename = name := Except.ok.inj (h.symm.trans hname)
          -- the disk as the call has left it, with its object in place
          let disk : Disk :=
            { Disk.holding ((∅ : Dict Text Bytes).set (emptyDigest .sha256) []) with
              metadata := s'.state.metadata }
          have hobject : disk.objects.get? (emptyDigest .sha256) = some [] := Dict.get?_set_self ..
          refine ⟨disk, document, ⟨_, s', hrun, rfl⟩, ?_, ⟨?_, ?_⟩, ?_⟩
          · exact verifyOne_of_documentOf hdocument hvalid (isId_emptyRequest _) hrecorded hobject
          · refine granted_of_documentOf hdocument ?_
            simp [rightsDocument, Value.item, Fields.item, Mode.permission, emptyRequest]
          · intro hredistribution
            cases hredistribution
          · exact payload_of_documentOf hdocument hobject h

end UltimateBBSBox.Archive

import UltimateBBSBox.Archive.Lineage

/-!
# Evidence that a source has changed

A document lists the artifacts that were published from its source before with other contents.
Where calls come one after the other, of any two artifacts with the same source and different
contents the later one lists the other, and nothing else is listed.
-/

namespace UltimateBBSBox.Archive

open Act Faulty
open Url

/-! ## What a document says of its source -/

/-- The source URL of a document is this text. -/
def HasSource (document : Value) (url : Text) : Prop :=
  (document.item "provenance" >>= fun provenance => provenance.item "source_url") = .ok (.text url)

/-- The document says that its source has changed, and lists this artifact. -/
def Lists (document : Value) (artifactId : Text) : Prop :=
  (document.item "provenance" >>= fun provenance => provenance.item "source_changed") =
      .ok (.bool true) ∧
    ∃ items, (document.item "provenance" >>= fun provenance =>
      provenance.item "previous_artifacts_from_source") = .ok (.array items) ∧ .text artifactId ∈ items

/-- Of two documents with one source and different contents, one lists the other; and what is
listed is published, with other contents and from the same source. -/
structure Evident (disk : Disk) : Prop where
  complete : ∀ first second document document' url sha256 sha256',
    disk.metadata.get? first = some (.document document) →
    disk.metadata.get? second = some (.document document') →
    HasSource document url → HasSource document' url → url ≠ [] →
    HasSha256 document sha256 → HasSha256 document' sha256' → sha256 ≠ sha256' →
      Lists document second ∨ Lists document' first
  sound : ∀ artifactId document other, disk.metadata.get? artifactId = some (.document document) →
    Lists document other → ∃ document' sha256 sha256',
      disk.metadata.get? other = some (.document document') ∧ HasSha256 document sha256 ∧
      HasSha256 document' sha256' ∧ sha256 ≠ sha256' ∧
      ∀ url, HasSource document url → HasSource document' url

section Documents

variable {E : Environment} {request : Request} {filename digest : Text} {data : Bytes} {prior : List Value}
  {document : Value}

theorem sortKeys_eq_text_iff {value : Value} {text : Text} :
    value.sortKeys = .text text ↔ value = .text text := by
  cases value <;> simp [Value.sortKeys]

/-- A field of the provenance of a document that is read back. -/
theorem provenance_of_documentOf (h : documentOf E request filename data prior = .ok document)
    (key : String) :
    (document.sortKeys.item "provenance" >>= fun provenance => provenance.item key) =
      ((provenanceOf request.provenance prior).item key).map Value.sortKeys := by
  obtain ⟨-, hprovenance, -⟩ := items_of_documentOf h
  rw [bind_item_sortKeys, hprovenance, ← Value.item_sortKeys]
  rfl

theorem hasSource_iff_of_documentOf (h : documentOf E request filename data prior = .ok document)
    {url : Text} :
    HasSource document.sortKeys url ↔ request.provenance.get? "source_url" = some (.text url) := by
  obtain ⟨fields, hfields, hget⟩ := get?_provenanceOf request.provenance prior
    (by decide : "source_url" ≠ "source_changed")
    (by decide : "source_url" ≠ "previous_artifacts_from_source")
  unfold HasSource
  rw [provenance_of_documentOf h, hfields]
  simp only [Value.item, Fields.item, hget]
  cases request.provenance.get? "source_url" with
  | none => simp [Except.map]
  | some value => simp [Except.map, sortKeys_eq_text_iff]

theorem lists_iff_of_documentOf (h : documentOf E request filename data prior = .ok document)
    {artifactId : Text} : Lists document.sortKeys artifactId ↔ .text artifactId ∈ prior := by
  unfold Lists
  rw [provenance_of_documentOf h, provenance_of_documentOf h]
  unfold provenanceOf
  cases prior with
  | nil => simp [Value.item, Fields.item, Except.map, Value.sortKeys]
  | cons first rest =>
      have hmem : .text artifactId ∈ (first :: rest).map Value.sortKeys ↔
          .text artifactId ∈ first :: rest := by
        simp only [List.mem_map, sortKeys_eq_text_iff, exists_eq_right]
      rw [← hmem]
      simp [Value.item, Fields.item, Except.map, Value.sortKeys, Value.sortItems_eq_map]

end Documents

/-! ## The scan of an archive -/

/-- A metadata file that `source_predecessors` passes over or can read what it needs of:
only a text that is not in UTF-8 and JSON of another shape stop it. -/
def MetadataFile.Legible : MetadataFile → Prop
  | .unreadable | .unparsable => True
  | .undecodable => False
  | .document (.object fields) =>
      (∀ value, Fields.get? fields "provenance" = some value → ∃ entries, value = .object entries) ∧
        (∀ value, Fields.get? fields "artifact" = some value → ∃ entries, value = .object entries) ∧
        ∀ value, Fields.get? fields "id" = some value → ∃ text, value = .text text
  | .document _ => False

section Scan

variable {E : Environment} {disk : Disk} {sourceUrl metadata : Value} {digest stem url sha256 : Text}
  {values : List Value}

/-- A field that is an object, or the object that stands for a missing one. -/
theorem get_object {fields : Fields} {key : String}
    (h : ∀ value, fields.get? key = some value → ∃ entries, value = .object entries) :
    ∃ entries, (Value.object fields).get key (.object []) = .ok (.object entries) := by
  cases hfield : fields.get? key with
  | none =>
      refine ⟨[], ?_⟩
      simp only [Value.get, hfield, Option.getD_none]
  | some value =>
      obtain ⟨entries, rfl⟩ := h value hfield
      refine ⟨entries, ?_⟩
      simp only [Value.get, hfield, Option.getD_some]

theorem predecessor_ok {file : MetadataFile} (h : file.Legible) (sourceUrl : Value)
    (digest stem : Text) :
    ∃ texts : List Text, predecessor sourceUrl digest stem file = .ok (texts.map .text) := by
  match file, h with
  | .unreadable, _ => exact ⟨[], rfl⟩
  | .unparsable, _ => exact ⟨[], rfl⟩
  | .document (.object fields), h =>
      obtain ⟨hprovenance, hartifact, hid⟩ := h
      obtain ⟨provenance, hprovenance⟩ := get_object hprovenance
      obtain ⟨artifact, hartifact⟩ := get_object hartifact
      obtain ⟨id, hid⟩ : ∃ id, (Value.object fields).get "id" (.text stem) = .ok (.text id) := by
        cases hfield : Fields.get? fields "id" with
        | none =>
            refine ⟨stem, ?_⟩
            simp only [Value.get, hfield, Option.getD_none]
        | some value =>
            obtain ⟨id, rfl⟩ := hid value hfield
            refine ⟨id, ?_⟩
            simp only [Value.get, hfield, Option.getD_some]
      unfold predecessor
      simp only [hprovenance, hartifact, hid, bind, Except.bind]
      simp only [Value.get]
      split
      · exact ⟨[], rfl⟩
      · split
        · exact ⟨[], rfl⟩
        · exact ⟨[id], rfl⟩

theorem predecessorsIn_ok {sourceUrl : Value} {digest : Text} {files : List (Text × MetadataFile)}
    (h : ∀ entry ∈ files, entry.2.Legible) :
    ∃ texts : List Text, predecessorsIn sourceUrl digest files = .ok (texts.map .text) := by
  induction files with
  | nil => exact ⟨[], rfl⟩
  | cons file rest ih =>
      obtain ⟨stem, file⟩ := file
      obtain ⟨first, hfirst⟩ := predecessor_ok (h (stem, file) List.mem_cons_self) sourceUrl digest stem
      obtain ⟨others, hothers⟩ := ih fun entry hentry => h entry (List.mem_cons_of_mem _ hentry)
      refine ⟨first ++ others, ?_⟩
      unfold predecessorsIn
      rw [hfirst, hothers, List.map_append]
      rfl

theorem mapM_text? (texts : List Text) :
    (texts.map Value.text).mapM Value.text? = some texts := by
  induction texts with
  | nil => rfl
  | cons text rest ih =>
      rw [List.map_cons, List.mapM_cons, ih]
      rfl

theorem object_of_item {value field : Value} {key : String} (h : value.item key = .ok field) :
    ∃ fields, value = .object fields := by
  cases value with
  | object fields => exact ⟨fields, rfl⟩
  | _ => cases h

theorem get_of_item {value field : Value} {key : String} (default : Value)
    (h : value.item key = .ok field) : value.get key default = .ok field := by
  obtain ⟨fields, rfl⟩ := object_of_item h
  have hfield : Fields.get? fields key = some field := Value.field?_of_item h
  simp only [Value.get, hfield, Option.getD_some]

/-- The scan reads all that it needs of valid metadata. -/
theorem legible_of_checkMetadata {document : Value} (h : checkMetadata document = .ok ())
    (hid : document.item "id" = .ok (.text stem)) : (MetadataFile.document document).Legible := by
  obtain ⟨artifact, provenance, -, -, ⟨hartifact, hcheckArtifact⟩, ⟨hprovenance, hcheckProvenance⟩, -⟩ :=
    parts_of_checkMetadata h
  obtain ⟨fields, rfl⟩ := object_of_item hid
  refine ⟨fun value hvalue => ?_, fun value hvalue => ?_, fun value hvalue => ?_⟩
  · obtain rfl : provenance = value :=
      Option.some.inj ((Value.field?_of_item hprovenance).symm.trans hvalue)
    obtain ⟨acquiredAt, hacquiredAt, -⟩ := Except.bind_eq_ok.mp hcheckProvenance
    exact object_of_item hacquiredAt
  · obtain rfl : artifact = value := Option.some.inj ((Value.field?_of_item hartifact).symm.trans hvalue)
    obtain ⟨value, hvalue, -⟩ := Except.bind_eq_ok.mp hcheckArtifact
    exact object_of_item hvalue
  · exact ⟨stem, Option.some.inj (hvalue.symm.trans (Value.field?_of_item hid))⟩

theorem legible_of_intact (h : Intact E disk) : ∀ entry ∈ disk.metadata.entries, entry.2.Legible := by
  rintro ⟨stem, file⟩ hentry
  obtain ⟨document, rfl, hload, hid, -⟩ := h.published stem file (Dict.get?_of_mem_entries hentry)
  obtain ⟨-, -, hvalid⟩ := loadMetadata_ok_iff.mp hload
  exact legible_of_checkMetadata hvalid hid

theorem mem_predecessorsIn_iff {files : List (Text × MetadataFile)}
    (h : predecessorsIn sourceUrl digest files = .ok values) {value : Value} :
    value ∈ values ↔ ∃ entry ∈ files, ∃ found,
      predecessor sourceUrl digest entry.1 entry.2 = .ok found ∧ value ∈ found := by
  induction files generalizing values with
  | nil =>
      obtain rfl := Except.pure_eq_ok.mp h
      simp
  | cons file rest ih =>
      unfold predecessorsIn at h
      obtain ⟨first, hfirst, h⟩ := Except.bind_eq_ok.mp h
      obtain ⟨others, hothers, h⟩ := Except.bind_eq_ok.mp h
      obtain rfl := Except.pure_eq_ok.mp h
      rw [List.mem_append, ih hothers]
      constructor
      · rintro (hmem | ⟨entry, hentry, hfound⟩)
        · exact ⟨file, List.mem_cons_self, first, hfirst, hmem⟩
        · exact ⟨entry, List.mem_cons_of_mem _ hentry, hfound⟩
      · rintro ⟨entry, hentry, found, hfound, hmem⟩
        rcases List.mem_cons.mp hentry with rfl | hentry
        · obtain rfl := Except.ok.inj (hfirst.symm.trans hfound)
          exact .inl hmem
        · exact .inr ⟨entry, hentry, found, hfound, hmem⟩

/-- What the scan finds is what it reads in the metadata. -/
theorem mem_priorOf_iff (hintact : Intact E disk) {provenance : Fields} {prior : List Value}
    (h : priorOf E provenance digest disk = .ok prior)
    (htruthy : ((provenance.get? "source_url").getD (.text [])).truthy = true) {value : Value} :
    value ∈ prior ↔ ∃ entry ∈ disk.metadata.entries, ∃ found,
      predecessor ((provenance.get? "source_url").getD (.text [])) digest entry.1 entry.2 = .ok found ∧
        value ∈ found := by
  unfold priorOf at h
  simp only [htruthy, if_true] at h
  unfold sourcePredecessors at h
  obtain ⟨values, hvalues, h⟩ := Except.bind_eq_ok.mp h
  rw [← mem_predecessorsIn_iff hvalues]
  obtain ⟨texts, htexts⟩ := @predecessorsIn_ok
    ((provenance.get? "source_url").getD (.text [])) digest _ (legible_of_intact hintact)
  obtain rfl : texts.map Value.text = values := Except.ok.inj (htexts.symm.trans hvalues)
  unfold sortedSet at h
  rw [mapM_text?] at h
  obtain rfl := Except.ok.inj h
  simp only [List.mem_map, List.mem_insertionSort, List.mem_dedup]

/-- What a document adds to the predecessors. -/
theorem predecessor_document {document provenance artifact : Value}
    (hid : document.item "id" = .ok (.text stem))
    (hprovenance : document.item "provenance" = .ok provenance)
    (hartifact : document.item "artifact" = .ok artifact)
    (hsha256 : artifact.item "sha256" = .ok (.text sha256))
    {url : Value} (hurl : provenance.get "source_url" .null = .ok url) :
    predecessor sourceUrl digest stem (.document document) =
      .ok (if url.equal sourceUrl = true ∧ sha256 ≠ digest then [.text stem] else []) := by
  unfold predecessor
  simp only [get_of_item _ hprovenance, get_of_item _ hartifact, get_of_item _ hsha256, get_of_item _ hid,
    hurl, bind, Except.bind, pure, Except.pure, Value.isText]
  by_cases hequal : url.equal sourceUrl = true
  · by_cases hdigest : sha256 = digest
    · simp [hequal, hdigest]
    · simp [hequal, hdigest]
  · simp [hequal]

end Scan

/-! ## The evidence of runs -/

section Running

variable {E : Environment} {U : Unicode} {disk disk' : Disk} {request : Request} {data : Bytes}
  {prior : List Value} {document : Value} {other : Text}

/-- The digest of metadata that are there. -/
theorem Intact.exists_sha256 (h : Intact E disk) {stem : Text}
    (hfile : disk.metadata.get? stem = some (.document document)) :
    ∃ sha256, HasSha256 document sha256 := by
  obtain ⟨document', hdocument, -, -, hverified⟩ := h.published stem _ hfile
  obtain rfl : document = document' := MetadataFile.document.inj hdocument
  obtain ⟨-, sha256, bytes, hstocked⟩ := verifyOne_ok_iff.mp hverified
  exact ⟨sha256, hstocked.recorded⟩

/-- The artifacts that a new document lists. -/
theorem Publishes.lists_iff (h : Publishes E request disk disk' data prior document)
    (hintact : Intact E disk) :
    Lists document.sortKeys other ↔ ∃ document' sha256 url,
      disk.metadata.get? other = some (.document document') ∧ HasSha256 document' sha256 ∧
      sha256 ≠ E.hashes.digest .sha256 data ∧
      (document'.item "provenance" >>= fun provenance => provenance.get "source_url" .null) = .ok url ∧
      url.equal ((request.provenance.get? "source_url").getD (.text [])) = true ∧
      ((request.provenance.get? "source_url").getD (.text [])).truthy = true := by
  obtain ⟨filename, hdocument⟩ := h.written
  rw [lists_iff_of_documentOf hdocument]
  have hfound := h.found
  by_cases htruthy : ((request.provenance.get? "source_url").getD (.text [])).truthy = true
  · rw [mem_priorOf_iff hintact hfound htruthy]
    have hpredecessor : ∀ stem document' (hfile : disk.metadata.get? stem = some (.document document')),
        ∃ provenance artifact sha256 url, document'.item "provenance" = .ok provenance ∧
          document'.item "artifact" = .ok artifact ∧ artifact.item "sha256" = .ok (.text sha256) ∧
          provenance.get "source_url" .null = .ok url ∧
          predecessor ((request.provenance.get? "source_url").getD (.text []))
            (E.hashes.digest .sha256 data) stem (.document document') =
            .ok (if url.equal ((request.provenance.get? "source_url").getD (.text [])) = true ∧
              sha256 ≠ E.hashes.digest .sha256 data then [.text stem] else []) := by
      intro stem document' hfile
      obtain ⟨document'', hdocument'', hload, hid, -⟩ := hintact.published stem _ hfile
      obtain rfl : document' = document'' := MetadataFile.document.inj hdocument''
      obtain ⟨sha256, hsha256⟩ := hintact.exists_sha256 hfile
      obtain ⟨artifact, hartifact, hsha256⟩ := Except.bind_eq_ok.mp hsha256
      obtain ⟨-, provenance, -, -, -, ⟨hprovenance, hcheck⟩, -⟩ :=
        parts_of_checkMetadata (loadMetadata_ok_iff.mp hload).2.2
      obtain ⟨acquiredAt, hacquiredAt, -⟩ := Except.bind_eq_ok.mp hcheck
      obtain ⟨fields, rfl⟩ := object_of_item hacquiredAt
      exact ⟨_, artifact, sha256, _, hprovenance, hartifact, hsha256, rfl,
        predecessor_document hid hprovenance hartifact hsha256 rfl⟩
    constructor
    · rintro ⟨⟨stem, file⟩, hentry, found, hfound, hmem⟩
      have hfile := Dict.get?_of_mem_entries hentry
      obtain ⟨document', rfl, -⟩ := hintact.published stem file hfile
      obtain ⟨provenance, artifact, sha256, url, hprovenance, hartifact, hsha256, hurl, hvalue⟩ :=
        hpredecessor stem document' hfile
      obtain rfl := Except.ok.inj (hvalue.symm.trans hfound)
      split at hmem
      · rename_i hboth
        obtain rfl : other = stem := Value.text.inj (List.mem_singleton.mp hmem)
        refine ⟨document', sha256, url, hfile, ?_, hboth.2, ?_, hboth.1, htruthy⟩
        · unfold HasSha256
          rw [hartifact]
          exact hsha256
        · rw [hprovenance]
          exact hurl
      · cases hmem
    · rintro ⟨document', sha256, url, hfile, hsha256, hne, hurl, hequal, -⟩
      obtain ⟨provenance, artifact, sha256', url', hprovenance, hartifact, hsha256', hurl', hvalue⟩ :=
        hpredecessor other document' hfile
      unfold HasSha256 at hsha256
      rw [hartifact] at hsha256
      rw [hprovenance] at hurl
      obtain rfl : sha256' = sha256 := Value.text.inj (Except.ok.inj (hsha256'.symm.trans hsha256))
      obtain rfl : url' = url := Except.ok.inj (hurl'.symm.trans hurl)
      refine ⟨(other, .document document'), Dict.mem_entries_of_get? hfile, _, hvalue, ?_⟩
      rw [if_pos ⟨hequal, hne⟩]
      exact List.mem_singleton_self _
  · constructor
    · intro hmem
      unfold priorOf at hfound
      simp only [htruthy] at hfound
      obtain rfl := Except.ok.inj hfound
      cases hmem
    · rintro ⟨-, -, -, -, -, -, -, -, htruthy'⟩
      exact absurd htruthy' htruthy

theorem equal_text_iff {value : Value} {text : Text} : value.equal (.text text) = true ↔ value = .text text := by
  cases value with
  | number number => cases number <;> simp [Value.equal, Value.isInt]
  | _ => simp [Value.equal, Value.isInt]

theorem get_source_of_hasSource {url : Text} (h : HasSource document url) :
    (document.item "provenance" >>= fun provenance => provenance.get "source_url" .null) =
      .ok (.text url) := by
  obtain ⟨provenance, hprovenance, hurl⟩ := Except.bind_eq_ok.mp h
  rw [hprovenance]
  exact get_of_item _ hurl

theorem HasSha256.unique {sha256 sha256' : Text} (h : HasSha256 document sha256)
    (h' : HasSha256 document sha256') : sha256 = sha256' :=
  Value.text.inj (Except.ok.inj (h.symm.trans h'))

/-- A new document lists those that have its source and other contents. -/
theorem Publishes.lists_of_source (h : Publishes E request disk disk' data prior document)
    (hintact : Intact E disk) {document' : Value} {url sha256 sha256' : Text}
    (hfile : disk.metadata.get? other = some (.document document'))
    (hsource : HasSource document.sortKeys url) (hsource' : HasSource document' url) (hurl : url ≠ [])
    (hsha256 : HasSha256 document.sortKeys sha256) (hsha256' : HasSha256 document' sha256')
    (hne : sha256 ≠ sha256') : Lists document.sortKeys other := by
  obtain ⟨filename, hdocument⟩ := h.written
  have hgiven : (request.provenance.get? "source_url").getD (.text []) = .text url := by
    rw [(hasSource_iff_of_documentOf hdocument).mp hsource, Option.getD_some]
  have hdigest : sha256 = E.hashes.digest .sha256 data := hsha256.unique h.sha256
  refine (h.lists_iff hintact).mpr ⟨document', sha256', .text url, hfile, hsha256', ?_,
    get_source_of_hasSource hsource', ?_, ?_⟩
  · rw [← hdigest]
    exact hne.symm
  · rw [hgiven]
    exact equal_text_iff.mpr rfl
  · rw [hgiven]
    simpa [Value.truthy] using hurl

theorem Moves.evident (hmoves : Moves E disk disk') (hintact : Intact E disk) (h : Evident disk) :
    Evident disk' := by
  have hkept := hmoves.kept
  have hold : ∀ artifactId document other, disk.metadata.get? artifactId = some (.document document) →
      Lists document other → ∃ document' sha256 sha256',
        disk'.metadata.get? other = some (.document document') ∧ HasSha256 document sha256 ∧
        HasSha256 document' sha256' ∧ sha256 ≠ sha256' ∧
        ∀ url, HasSource document url → HasSource document' url := by
    intro artifactId document other hfile hlists
    obtain ⟨document', sha256, sha256', hfile', hrest⟩ := h.sound artifactId document other hfile hlists
    exact ⟨document', sha256, sha256', hkept.metadata _ _ hfile', hrest⟩
  rcases hmoves with ⟨hmetadata, -⟩ | ⟨request, data, prior, document, -, hpublishes⟩
  · refine ⟨?_, fun artifactId document other hfile => ?_⟩
    · rw [hmetadata]
      exact h.complete
    · rw [hmetadata] at hfile
      exact hold artifactId document other hfile
  · refine ⟨?_, ?_⟩
    · intro first second document₁ document₂ url sha256 sha256' hfirst hsecond hsource hsource' hurl
        hsha256 hsha256' hne
      rcases hpublishes.cases hfirst with ⟨rfl, hnew⟩ | hbefore
      · obtain rfl : document₁ = document.sortKeys := MetadataFile.document.inj hnew
        rcases hpublishes.cases hsecond with ⟨rfl, hnew'⟩ | hbefore'
        · obtain rfl : document₂ = document.sortKeys := MetadataFile.document.inj hnew'
          exact absurd (hsha256.unique hsha256') hne
        · exact .inl (hpublishes.lists_of_source hintact hbefore' hsource hsource' hurl hsha256 hsha256' hne)
      · rcases hpublishes.cases hsecond with ⟨rfl, hnew'⟩ | hbefore'
        · obtain rfl : document₂ = document.sortKeys := MetadataFile.document.inj hnew'
          exact .inr (hpublishes.lists_of_source hintact hbefore hsource' hsource hurl hsha256' hsha256
            hne.symm)
        · exact h.complete first second document₁ document₂ url sha256 sha256' hbefore hbefore' hsource
            hsource' hurl hsha256 hsha256' hne
    · intro artifactId document₁ other hfile hlists
      rcases hpublishes.cases hfile with ⟨rfl, hnew⟩ | hbefore
      · obtain rfl : document₁ = document.sortKeys := MetadataFile.document.inj hnew
        obtain ⟨document', sha256, url, hfile', hsha256, hne, hurl, hequal, htruthy⟩ :=
          (hpublishes.lists_iff hintact).mp hlists
        refine ⟨document', _, sha256, hkept.metadata _ _ hfile', hpublishes.sha256, hsha256, hne.symm, ?_⟩
        intro source hsource
        obtain ⟨filename, hdocument⟩ := hpublishes.written
        rw [(hasSource_iff_of_documentOf hdocument).mp hsource, Option.getD_some] at hequal htruthy
        obtain rfl := equal_text_iff.mp hequal
        obtain ⟨provenance, hprovenance, hget⟩ := Except.bind_eq_ok.mp hurl
        unfold HasSource
        rw [hprovenance]
        exact Value.item_of_get_truthy hget htruthy
      · exact hold artifactId document₁ other hbefore hlists

theorem evident_fresh : Evident .fresh := by
  refine ⟨?_, ?_⟩
  · intro first second document document' url sha256 sha256' h
    cases h
  · intro artifactId document other h
    cases h

/-- **The evidence that a source has changed is complete and right.**  After any calls on an archive
that was initialized, one after the other and each with any operation failing but the reads of the
scan: of two documents that have the same text as their source URL and different digests, one says
that its source has changed and lists the other; and what a document lists is published with another
digest and, where its source URL is a text, with the same one. -/
theorem changed_sources_evident (E : Environment) (U : Unicode) (turns : List Turn) :
    Evident (leaves E U turns .fresh) := by
  have hall : Intact E (leaves E U turns .fresh) ∧ Evident (leaves E U turns .fresh) := by
    refine leaves_induction (P := fun disk => Intact E disk ∧ Evident disk) ?_ turns
      ⟨intact_fresh E, evident_fresh⟩
    rintro disk disk' ⟨hintact, hevident⟩ hmoves
    exact ⟨hmoves.intact hintact, hmoves.evident hintact hevident⟩
  exact hall.2

end Running

end UltimateBBSBox.Archive

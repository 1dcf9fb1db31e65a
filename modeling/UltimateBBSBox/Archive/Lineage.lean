import UltimateBBSBox.Archive.Integrity

/-!
# Lineage

What a published document records of its parents: they are published, with the digests that
were recorded, and a document is never, over any number of parents, its own.  The order of the
publications decides that, which is the order of the entries of `metadata`.
-/

namespace UltimateBBSBox.Archive

open Act Faulty
open Url

/-! ## What is recorded of parents -/

/-- A parent in a lineage. -/
def parentEntry (parent : Text × Text) : Value :=
  .object [(.of "artifact_id", .text parent.1), (.of "sha256", .text parent.2)]

/-- The lineage of a document. -/
def HasLineage (document lineage : Value) : Prop :=
  (document.item "preservation" >>= fun preservation => preservation.item "lineage") = .ok lineage

/-- The digest of a document. -/
def HasSha256 (document : Value) (sha256 : Text) : Prop :=
  (document.item "artifact" >>= fun artifact => artifact.item "sha256") = .ok (.text sha256)

/-- The lineage of a document: it is that of some parents which are published with these digests,
and `derived_from` has their ids. -/
structure Traced (disk : Disk) (document lineage : Value) (parents : List (Text × Text)) : Prop where
  recorded : lineage.item "parents" = .ok (.array (parents.map parentEntry))
  derivedFrom : (document.item "artifact" >>= fun artifact => artifact.item "derived_from") =
    .ok (.array (parents.map fun parent => .text parent.1))
  published : ∀ parent ∈ parents, ∃ metadata,
    disk.metadata.get? parent.1 = some (.document metadata) ∧ HasSha256 metadata parent.2

/-- An artifact is recorded as a parent of another one. -/
def IsParent (disk : Disk) (parent child : Text) : Prop :=
  ∃ document lineage, ∃ parents : List (Text × Text),
    disk.metadata.get? child = some (.document document) ∧ HasLineage document lineage ∧
    lineage.item "parents" = .ok (.array (parents.map parentEntry)) ∧
    parent ∈ parents.map Prod.fst

/-- The parents of all lineages are there, and have been published before. -/
structure Closed (disk : Disk) : Prop where
  traced : ∀ child document lineage, disk.metadata.get? child = some (.document document) →
    HasLineage document lineage → ∃ parents, Traced disk document lineage parents
  before : ∀ parent child, IsParent disk parent child →
    (disk.metadata.entries.map Prod.fst).idxOf parent < (disk.metadata.entries.map Prod.fst).idxOf child

section Documents

variable {E : Environment} {request : Request} {filename : Text} {data : Bytes} {prior : List Value}
  {document lineage : Value} {parents : List (Text × Text)} {action derivedAt : Text}
  {tool notes : Option Text}

theorem sortKeys_parentEntry (parent : Text × Text) : (parentEntry parent).sortKeys = parentEntry parent := by
  have hle : Text.of "artifact_id" ≤ Text.of "sha256" := by
    simp only [Text.of]
    decide
  simp [parentEntry, Value.sortKeys, Value.sortFields, hle]

theorem parentEntry_injective : Function.Injective parentEntry := by
  intro parent parent' h
  simp only [parentEntry, Value.object.injEq, List.cons.injEq, Prod.mk.injEq, Value.text.injEq,
    true_and, and_true] at h
  exact Prod.ext h.1 h.2

theorem truthy_derivedLineage : (derivedLineage parents action derivedAt tool notes).truthy = true := rfl

theorem item_parents_derivedLineage :
    (derivedLineage parents action derivedAt tool notes).item "parents" =
      .ok (.array (parents.map parentEntry)) := by
  simp [derivedLineage, Value.item, Fields.item, parentEntry]

theorem parentIds_derivedLineage :
    parentIds (derivedLineage parents action derivedAt tool notes) =
      .ok (parents.map fun parent => .text parent.1) := by
  have hmap : ∀ parents : List (Text × Text),
      ((parents.map parentEntry).mapM fun parent => parent.item "artifact_id") =
        (.ok (parents.map fun parent => .text parent.1) : Except Exn (List Value)) := by
    intro parents
    induction parents with
    | nil => rfl
    | cons parent rest ih =>
        rw [List.map_cons, List.mapM_cons, ih]
        simp [parentEntry, Value.item, Fields.item, bind, Except.bind, pure, Except.pure]
  unfold parentIds
  rw [item_parents_derivedLineage]
  exact hmap parents

/-- The lineage of a document that is read back. -/
theorem hasLineage_iff_of_documentOf (h : documentOf E request filename data prior = .ok document) :
    HasLineage document.sortKeys lineage ↔
      request.lineage.truthy = true ∧ lineage = request.lineage.sortKeys := by
  obtain ⟨-, -, -, hpreservation⟩ := items_of_documentOf h
  have hitem : (document.sortKeys.item "preservation" >>= fun preservation => preservation.item "lineage") =
      ((preservationOf request.preservationClass request.lineage).item "lineage").map Value.sortKeys := by
    rw [bind_item_sortKeys, hpreservation, ← Value.item_sortKeys]
    rfl
  unfold HasLineage
  rw [hitem]
  by_cases htruthy : request.lineage.truthy = true
  · simp [preservationOf, htruthy, Value.item, Fields.item, Except.map, eq_comm]
  · simp [preservationOf, htruthy, Value.item, Fields.item, Except.map]

/-- `derived_from` of a document that is read back. -/
theorem derivedFrom_of_documentOf (h : documentOf E request filename data prior = .ok document)
    (hlineage : request.lineage = derivedLineage parents action derivedAt tool notes) :
    (document.sortKeys.item "artifact" >>= fun artifact => artifact.item "derived_from") =
      .ok (.array (parents.map fun parent => .text parent.1)) := by
  unfold documentOf at h
  obtain ⟨derivedFrom, hderived, h⟩ := Except.bind_eq_ok.mp h
  obtain rfl := Except.pure_eq_ok.mp h
  have hids : derivedFrom = [(.of "derived_from", .array (parents.map fun parent => .text parent.1))] := by
    unfold derivedFromOf at hderived
    rw [hlineage, if_pos truthy_derivedLineage, parentIds_derivedLineage] at hderived
    exact (Except.ok.inj hderived).symm
  have hoptional : ∀ (key : String) (value : Option Text), key ≠ "derived_from" →
      Fields.get? (optionalField key value) "derived_from" = none := by
    intro key value hne
    unfold optionalField
    split <;> simp [hne]
  have hitem : (artifactOf E request filename data derivedFrom).item "derived_from" =
      .ok (.array (parents.map fun parent => .text parent.1)) := by
    rw [hids]
    simp [artifactOf, Value.item, Fields.item, Fields.get?_append, hoptional]
  have hartifact : (Value.object [(.of "kind", .text (.of "artifact")),
      (.of "schema_version", .number (.int 1)), (.of "id", .text request.artifactId),
      (.of "artifact", artifactOf E request filename data derivedFrom),
      (.of "provenance", provenanceOf request.provenance prior),
      (.of "rights", rightsDocument request.args),
      (.of "preservation", preservationOf request.preservationClass request.lineage)]).item "artifact" =
      .ok (artifactOf E request filename data derivedFrom) := by
    simp [Value.item, Fields.item]
  rw [nested_item_sortKeys hartifact hitem, Value.sortKeys, Value.sortItems_eq_map, List.map_map]
  rfl

end Documents

/-! ## The parents are loaded -/

section Closing

variable {E : Environment} {U : Unicode} {disk disk' : Disk} {request : Request} {data : Bytes}
  {prior : List Value} {document : Value} {items : List Text} {parents : List (Text × Text)}

/-- The parents that `derive` has loaded are published. -/
theorem published_of_derivedParents (hintact : Intact E disk) (h : derivedParents disk items = .ok parents) :
    ∀ parent ∈ parents, ∃ metadata, disk.metadata.get? parent.1 = some (.document metadata) ∧
      HasSha256 metadata parent.2 := by
  unfold derivedParents at h
  obtain ⟨loaded, hloaded, hparents⟩ := Except.bind_eq_ok.mp h
  intro parent hparent
  obtain ⟨metadata, hmetadata, hof⟩ := Except.exists_of_mem_mapM hparents hparent
  obtain ⟨item, -, hload⟩ := Except.exists_of_mem_mapM hloaded hmetadata
  obtain ⟨-, hfile, -⟩ := loadMetadata_ok_iff.mp hload
  obtain ⟨document, hdocument, -, hid, -⟩ := hintact.published item _ hfile
  obtain rfl : metadata = document := MetadataFile.document.inj hdocument
  unfold parentOf at hof
  obtain ⟨idValue, hidValue, hof⟩ := Except.bind_eq_ok.mp hof
  obtain ⟨id, htext, hof⟩ := Except.bind_eq_ok.mp hof
  obtain ⟨artifact, hartifact, hof⟩ := Except.bind_eq_ok.mp hof
  obtain ⟨value, hvalue, hof⟩ := Except.bind_eq_ok.mp hof
  obtain ⟨sha256, hsha256, hof⟩ := Except.bind_eq_ok.mp hof
  rw [← Except.pure_eq_ok.mp hof]
  have hitem : id = item := by
    rw [hid] at hidValue
    rw [← Except.ok.inj hidValue] at htext
    exact (Except.ok.inj htext).symm
  rw [eq_text_of_toText hsha256] at hvalue
  refine ⟨metadata, ?_, ?_⟩
  · rw [hitem]
    exact hfile
  · unfold HasSha256
    rw [hartifact]
    exact hvalue

theorem keys_set_of_unused {metadata : Dict Text MetadataFile} {stem : Text} {file : MetadataFile}
    (h : metadata.get? stem = none) :
    (metadata.set stem file).entries.map Prod.fst = metadata.entries.map Prod.fst ++ [stem] := by
  have hfresh : ∀ entry ∈ metadata.entries, entry.1 ≠ stem := by
    rintro ⟨stem', file'⟩ hentry rfl
    rw [Dict.get?_of_mem_entries hentry] at h
    cases h
  unfold Dict.set
  simp only [Dict.setEntries_of_fresh hfresh, List.map_append, List.map_cons, List.map_nil]

theorem mem_keys_of_get? {metadata : Dict Text MetadataFile} {stem : Text} {file : MetadataFile}
    (h : metadata.get? stem = some file) : stem ∈ metadata.entries.map Prod.fst :=
  List.mem_map_of_mem (Dict.mem_entries_of_get? h)

theorem Traced.kept {lineage : Value} (h : Traced disk document lineage parents)
    (hkept : Kept disk disk') : Traced disk' document lineage parents := by
  refine ⟨h.recorded, h.derivedFrom, fun parent hparent => ?_⟩
  obtain ⟨metadata, hmetadata, hsha256⟩ := h.published parent hparent
  exact ⟨metadata, hkept.metadata _ _ hmetadata, hsha256⟩

/-- The lineage of a document that has just been published. -/
theorem Publishes.traced {lineage : Value} (h : Publishes E request disk disk' data prior document)
    (hgrounded : Grounded disk request) (hintact : Intact E disk)
    (hlineage : HasLineage document.sortKeys lineage) :
    ∃ parents, Traced disk document.sortKeys lineage parents := by
  obtain ⟨filename, hdocument⟩ := h.written
  obtain ⟨htruthy, rfl⟩ := (hasLineage_iff_of_documentOf hdocument).mp hlineage
  rcases hgrounded with hnull | ⟨items, parents, action, derivedAt, tool, notes, hparents, hderived⟩
  · rw [hnull] at htruthy
    cases htruthy
  · refine ⟨parents, ?_, derivedFrom_of_documentOf hdocument hderived,
      published_of_derivedParents hintact hparents⟩
    rw [hderived, Value.item_sortKeys, item_parents_derivedLineage]
    have hentries : (parents.map parentEntry).map Value.sortKeys = parents.map parentEntry := by
      rw [List.map_map]
      exact List.map_congr_left fun parent _ => sortKeys_parentEntry parent
    simp only [Except.map, Value.sortKeys, Value.sortItems_eq_map, hentries]

theorem Moves.closed (hmoves : Moves E disk disk') (hintact : Intact E disk) (h : Closed disk) :
    Closed disk' := by
  have hkept := hmoves.kept
  rcases hmoves with ⟨hmetadata, -⟩ | ⟨request, data, prior, document, hgrounded, hpublishes⟩
  · refine ⟨fun child document lineage hchild hlineage => ?_, ?_⟩
    · rw [hmetadata] at hchild
      obtain ⟨parents, htraced⟩ := h.traced child document lineage hchild hlineage
      exact ⟨parents, htraced.kept hkept⟩
    · unfold IsParent
      rw [hmetadata]
      exact h.before
  · have hkeys := @keys_set_of_unused _ _ (.document document.sortKeys) hpublishes.unused
    rw [← hpublishes.metadata] at hkeys
    have hnew : request.artifactId ∉ disk.metadata.entries.map Prod.fst := by
      intro hmem
      obtain ⟨⟨stem, file⟩, hentry, rfl⟩ := List.mem_map.mp hmem
      have hunused := hpublishes.unused
      rw [Dict.get?_of_mem_entries hentry] at hunused
      cases hunused
    refine ⟨fun child document' lineage hchild hlineage => ?_, ?_⟩
    · rcases hpublishes.cases hchild with ⟨rfl, hdocument⟩ | hold
      · obtain rfl : document' = document.sortKeys := MetadataFile.document.inj hdocument
        obtain ⟨parents, htraced⟩ := hpublishes.traced hgrounded hintact hlineage
        exact ⟨parents, htraced.kept hkept⟩
      · obtain ⟨parents, htraced⟩ := h.traced child document' lineage hold hlineage
        exact ⟨parents, htraced.kept hkept⟩
    · rintro parent child ⟨document', lineage, parents, hchild, hlineage, hparents, hparent⟩
      rw [hkeys]
      rcases hpublishes.cases hchild with ⟨rfl, hdocument⟩ | hold
      · -- the parents of the new document were there before it
        obtain rfl : document' = document.sortKeys := MetadataFile.document.inj hdocument
        obtain ⟨parents', htraced⟩ := hpublishes.traced hgrounded hintact hlineage
        have hentries := Value.array.inj (Except.ok.inj (hparents.symm.trans htraced.recorded))
        obtain rfl := List.map_injective_iff.mpr parentEntry_injective hentries
        obtain ⟨entry, hentry, rfl⟩ := List.mem_map.mp hparent
        obtain ⟨metadata, hmetadata, -⟩ := htraced.published entry hentry
        have hmem := mem_keys_of_get? hmetadata
        rw [List.idxOf_append_of_mem hmem, List.idxOf_append_of_notMem hnew]
        have hlt := List.idxOf_lt_length_iff.mpr hmem
        omega
      · have hbefore := h.before parent child ⟨document', lineage, parents, hold, hlineage, hparents, hparent⟩
        have hmem := mem_keys_of_get? hold
        have hlt := List.idxOf_lt_length_iff.mpr hmem
        have hmem' : parent ∈ disk.metadata.entries.map Prod.fst :=
          List.idxOf_lt_length_iff.mp (hbefore.trans hlt)
        rw [List.idxOf_append_of_mem hmem, List.idxOf_append_of_mem hmem']
        exact hbefore

theorem closed_fresh : Closed .fresh := by
  refine ⟨?_, ?_⟩
  · intro child document lineage h
    cases h
  · rintro parent child ⟨document, lineage, parents, h, -⟩
    cases h

/-- What is over any number of parents comes before. -/
theorem Closed.before_of_transGen (h : Closed disk) {ancestor child : Text}
    (hpath : Relation.TransGen (IsParent disk) ancestor child) :
    (disk.metadata.entries.map Prod.fst).idxOf ancestor <
      (disk.metadata.entries.map Prod.fst).idxOf child := by
  induction hpath with
  | single hparent => exact h.before _ _ hparent
  | tail _ hparent ih => exact ih.trans (h.before _ _ hparent)

/-- **Lineage is closed and has no cycle.**  After any calls on an archive that was initialized,
each with any of its operations failing, the parents that a document records are published with the
digests that it records, its `derived_from` has their ids in their order, and no artifact is among
its own ancestors. -/
theorem lineage_closed_and_acyclic (E : Environment) (U : Unicode) (turns : List Turn) :
    (∀ child document lineage,
      (leaves E U turns .fresh).metadata.get? child = some (.document document) →
        HasLineage document lineage → ∃ parents, Traced (leaves E U turns .fresh) document lineage parents) ∧
      ∀ artifactId, ¬Relation.TransGen (IsParent (leaves E U turns .fresh)) artifactId artifactId := by
  have hclosed : Intact E (leaves E U turns .fresh) ∧ Closed (leaves E U turns .fresh) := by
    refine leaves_induction (P := fun disk => Intact E disk ∧ Closed disk) ?_ turns ⟨intact_fresh E, closed_fresh⟩
    rintro disk disk' ⟨hintact, hclosed⟩ hmoves
    exact ⟨hmoves.intact hintact, hmoves.closed hintact hclosed⟩
  refine ⟨hclosed.2.traced, fun artifactId hcycle => ?_⟩
  exact lt_irrefl _ (hclosed.2.before_of_transGen hcycle)

end Closing

end UltimateBBSBox.Archive

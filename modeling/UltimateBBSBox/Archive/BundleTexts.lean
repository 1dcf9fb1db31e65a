import UltimateBBSBox.Archive.Published

/-!
# The texts of a bundle

Which texts of a bundle can be written in UTF-8: ids, names, digests and the rights
always, and with them everything that an export puts around the texts of its user.
These are the notes, the time of the acquisition, its source and the action of a
derivation, all as they are read back; the notes may besides be no text at all.
-/

namespace UltimateBBSBox.Archive

open Act Faulty
open JsonText (joined joined_eq_self unpaired_of_encodable)

/-! ## Parts that are checked -/

section Checked

variable {request : Request} {provenance : Fields} {prior : List Value} {cls : Text} {lineage : Value}
  {args : Args}

/-- A text that is checked not to be empty is one. -/
theorem text_of_checkGiven {value : Value} (h : checkGiven value = .ok ()) : ∃ text, value = .text text := by
  cases value with
  | text text => exact ⟨text, rfl⟩
  | _ => cases h

/-- The texts that every provenance has. -/
theorem texts_of_checkProvenance (h : checkProvenance (provenanceOf provenance prior) = .ok ()) :
    (∃ text, provenance.get? "acquired_at" = some (.text text)) ∧
      ∃ text, provenance.get? "source" = some (.text text) := by
  unfold checkProvenance at h
  obtain ⟨acquiredAt, hacquiredAt, h⟩ := Except.bind_eq_ok.mp h
  obtain ⟨hgiven, h⟩ := Except.check_bind_eq_ok.mp h
  obtain ⟨source, hsource, hgiven'⟩ := Except.bind_eq_ok.mp h
  obtain ⟨acquiredAt, rfl⟩ := text_of_checkGiven hgiven
  obtain ⟨source, rfl⟩ := text_of_checkGiven hgiven'
  obtain ⟨fields, hfields, hkey⟩ :=
    @get?_provenanceOf provenance prior "acquired_at" (by decide) (by decide)
  obtain ⟨fields', hfields', hkey'⟩ :=
    @get?_provenanceOf provenance prior "source" (by decide) (by decide)
  rw [hfields] at hacquiredAt
  rw [hfields'] at hsource
  exact ⟨⟨acquiredAt, hkey.symm.trans (Value.field?_of_item hacquiredAt)⟩,
    ⟨source, hkey'.symm.trans (Value.field?_of_item hsource)⟩⟩

/-- A lineage that is written is checked. -/
theorem checkLineage_of_checkPreservation (h : checkPreservation (preservationOf cls lineage) = .ok ())
    (htruthy : lineage.truthy = true) : checkLineage lineage = .ok () := by
  unfold checkPreservation at h
  obtain ⟨_, -, h⟩ := Except.bind_eq_ok.mp h
  obtain ⟨-, h⟩ := guard_valueError h
  obtain ⟨immutable, himmutable, h⟩ := Except.bind_eq_ok.mp h
  obtain rfl : immutable = .bool true := by
    simp [preservationOf, Value.item, Fields.item] at himmutable
    exact himmutable.symm
  obtain ⟨found, hfound, h⟩ := Except.bind_eq_ok.mp h
  obtain rfl : lineage = found := by
    simp [preservationOf, Value.get, htruthy] at hfound
    exact hfound
  rw [if_pos htruthy] at h
  exact h

theorem rightsStatus_of_checkRights (h : checkRights (rightsDocument args) = .ok ()) :
    args.rightsStatus ∈ rightsStatuses := by
  unfold checkRights at h
  obtain ⟨status, hstatus, h⟩ := Except.bind_eq_ok.mp h
  obtain ⟨hone, -⟩ := guard_valueError h
  obtain rfl : .text args.rightsStatus = status := by
    simp [rightsDocument, Value.item, Fields.item] at hstatus
    exact hstatus
  exact isOneOf_text.mp (by simpa using hone)

end Checked

/-! ## Texts that can always be written -/

section Plain

variable {name text : Text}

theorem isAscii_of_isKept {c : CodePoint} (h : isKept c = true) : c.isAscii = true := by
  simp only [isKept, CodePoint.ofChar, Char.reduceToNat, Fin.le_def, List.map_cons, List.map_nil,
    List.mem_cons, List.not_mem_nil, or_false, Fin.ext_iff, decide_eq_true_eq] at h
  unfold CodePoint.isAscii
  simp only [decide_eq_true_eq]
  omega

theorem Sound.encodable (h : Sound name) : name.Encodable :=
  Text.encodable_of_ascii fun c hc => isAscii_of_isKept (h.clean c hc)

theorem encodable_of_isDigest {algorithm : Algorithm} (h : isDigest algorithm text = true) :
    text.Encodable := by
  unfold isDigest at h
  rw [decide_eq_true_eq] at h
  exact Text.encodable_of_ascii fun c hc => CodePoint.isAscii_of_isHex (h.2 c hc)

theorem encodable_of_isId (h : isId text = true) : text.Encodable := by
  unfold isId at h
  rw [decide_eq_true_eq] at h
  apply Text.encodable_of_ascii
  intro c hc
  have hc' := h.2 c hc
  simp only [isIdStart, CodePoint.isDigit, CodePoint.ofChar, Char.reduceToNat, Fin.le_def,
    List.map_cons, List.map_nil, List.mem_cons, List.not_mem_nil, or_false, Fin.ext_iff,
    decide_eq_true_eq] at hc'
  unfold CodePoint.isAscii
  simp only [decide_eq_true_eq]
  omega

/-- Nothing is joined in a text that can be written. -/
theorem formatted_of_encodable {X : Exporter} (h : text.Encodable) : formatted X (.text text) = text :=
  joined_eq_self (unpaired_of_encodable h)

end Plain

/-! ## The texts of its user -/

/-- A text can be written as it is read back, if there is one. -/
def Writable (field : Option Value) : Prop :=
  ∀ text, field = some (.text text) → Text.Encodable (joined text)

/-- Notes can be written, if they are not empty: they are a text then. -/
def NotesWritable (notes : Option Value) : Prop :=
  ∀ value, notes = some value → value.truthy = true →
    ∃ text, value = .text text ∧ Text.Encodable (joined text)

section Texts

variable {X : Exporter} {E : Environment} {request : Request} {filename artifactId name : Text}
  {metadata : Value} {provenance : Fields} {prior : List Value}

/-- The generated description is written exactly if the notes can be. -/
theorem description_writable_iff
    (hprovenance : metadata.item "provenance" = .ok (provenanceOf provenance prior).sortKeys)
    (hid : artifactId.Encodable) (hname : name.Encodable) :
    (∃ text, description metadata artifactId name = .ok text ∧ text.Encodable) ↔
      NotesWritable (provenance.get? "notes") := by
  obtain ⟨fields, hfields, hnotes⟩ :=
    @get?_provenanceOf provenance prior "notes" (by decide) (by decide)
  have hget : (provenanceOf provenance prior).sortKeys.get "notes" .null =
      .ok (((provenance.get? "notes").getD .null).sortKeys) := by
    rw [Value.get_sortKeys, hfields, Value.get, hnotes]
    rfl
  have hdefault : Text.Encodable ((artifactId ++ .of ": preserved " ++ name).strip ++ .of "\n") := by
    rw [Text.encodable_append, Text.encodable_strip, Text.encodable_append, Text.encodable_append]
    exact ⟨⟨⟨hid, Text.encodable_of _⟩, hname⟩, Text.encodable_of _⟩
  unfold description
  simp only [hprovenance, bind, Except.bind, hget, Value.truthy_sortKeys]
  cases hvalue : provenance.get? "notes" with
  | none =>
      refine iff_of_true ⟨_, rfl, hdefault⟩ ?_
      intro value h
      cases h
  | some value =>
      rw [Option.getD_some]
      by_cases htruthy : value.truthy = true
      · rw [if_pos htruthy]
        constructor
        · rintro ⟨text, htext, hencodable⟩ value' hvalue' _
          obtain rfl := Option.some.inj hvalue'
          -- notes that are no text have no `strip`
          cases value with
          | text notes =>
              refine ⟨notes, rfl, ?_⟩
              obtain rfl := Except.ok.inj htext
              rw [Text.encodable_append, Text.encodable_strip] at hencodable
              exact hencodable.1
          | null => cases htext
          | bool _ => cases htext
          | number _ => cases htext
          | array _ => cases htext
          | object _ => cases htext
        · intro hwritable
          obtain ⟨notes, rfl, hencodable⟩ := hwritable value rfl htruthy
          refine ⟨_, rfl, ?_⟩
          rw [Text.encodable_append, Text.encodable_strip]
          exact ⟨hencodable, Text.encodable_of _⟩
      · rw [if_neg htruthy]
        refine iff_of_true ⟨_, rfl, hdefault⟩ ?_
        intro value' hvalue' htruthy'
        obtain rfl := Option.some.inj hvalue'
        exact absurd htruthy' htruthy

/-- The checksums are always written. -/
theorem checksumsText_writable {sha256 : Text}
    (hsha256 : (metadata.item "artifact" >>= fun artifact => artifact.item "sha256") =
      .ok (.text sha256)) (hdigest : isDigest .sha256 sha256 = true) (hname : name.Encodable) :
    ∃ text, checksumsText X metadata name = .ok text ∧ text.Encodable := by
  obtain ⟨artifact, hartifact, hsha256⟩ := Except.bind_eq_ok.mp hsha256
  have hsha256' := encodable_of_isDigest hdigest
  refine ⟨sha256 ++ .of "  artifacts/" ++ name ++ .of "\n", ?_, ?_⟩
  · unfold checksumsText
    simp only [hartifact, hsha256, bind, Except.bind, formatted_of_encodable hsha256']
    rfl
  · rw [Text.encodable_append, Text.encodable_append, Text.encodable_append]
    exact ⟨⟨⟨hsha256', Text.encodable_of _⟩, hname⟩, Text.encodable_of _⟩

/-- So are the rights. -/
theorem rightsText_writable {args : Args} (h : args.rightsStatus ∈ rightsStatuses) :
    ∃ text, rightsText (rightsDocument args).sortKeys = .ok text ∧ text.Encodable := by
  have hstatus : args.rightsStatus.Encodable := by
    obtain ⟨s, -, hs⟩ := List.mem_map.mp h
    rw [← hs]
    exact Text.encodable_of s
  have hitem : (rightsDocument args).sortKeys.item "status" = .ok (.text args.rightsStatus) := by
    rw [Value.item_sortKeys]
    simp [rightsDocument, Value.item, Fields.item, Except.map, Value.sortKeys]
  obtain ⟨fields, hfields, hkeys⟩ : ∃ fields, (rightsDocument args).sortKeys = .object fields ∧
      ∀ field ∈ fields, field.1.Encodable := by
    refine ⟨_, rfl, ?_⟩
    intro field hfield
    obtain ⟨field', hfield', hkey⟩ := Value.exists_key_of_mem_sortFields ((List.mem_insertionSort _).mp hfield)
    rw [hkey]
    simp only [List.mem_cons, List.not_mem_nil, or_false] at hfield'
    rcases hfield' with rfl | rfl | rfl | rfl | rfl | rfl | rfl <;> exact Text.encodable_of _
  refine ⟨.of "Rights status: " ++ args.rightsStatus ++ .of "\n" ++
    (Text.of "\n").intercalate (fields.filterMap rightsLine) ++ .of "\n", ?_, ?_⟩
  · unfold rightsText
    simp only [hitem, bind, Except.bind, Value.toText]
    rw [hfields]
    rfl
  · simp only [Text.encodable_append]
    refine ⟨⟨⟨⟨Text.encodable_of _, hstatus⟩, Text.encodable_of _⟩, ?_⟩, Text.encodable_of _⟩
    apply Text.encodable_intercalate (Text.encodable_of _)
    intro line hline
    obtain ⟨⟨key, value⟩, hfield, hsome⟩ := List.mem_filterMap.mp hline
    cases value with
    | bool value =>
        obtain rfl := Option.some.inj hsome
        rw [Text.encodable_append, Text.encodable_append]
        refine ⟨⟨hkeys _ hfield, Text.encodable_of _⟩, ?_⟩
        cases value <;> exact Text.encodable_of _
    | _ => cases hsome

/-! ## Lineage -/

/-- The line of a parent that is checked is written. -/
theorem parentLines_writable {parents : List Value} (h : checkParents parents = .ok ()) :
    ∃ lines, parents.mapM (parentLine X) = .ok lines ∧ ∀ line ∈ lines, Text.Encodable line := by
  induction parents with
  | nil => exact ⟨[], rfl, by simp⟩
  | cons parent rest ih =>
      unfold checkParents at h
      obtain ⟨id, hid, h⟩ := Except.bind_eq_ok.mp h
      obtain ⟨idText, hidText, h⟩ := Except.bind_eq_ok.mp h
      obtain ⟨hvalid, h⟩ := Except.check_bind_eq_ok.mp h
      obtain ⟨sha256, hsha256, h⟩ := Except.bind_eq_ok.mp h
      obtain ⟨hdigest, h⟩ := Except.check_bind_eq_ok.mp h
      obtain ⟨lines, hlines, hencodable⟩ := ih h
      obtain rfl := eq_text_of_toText hidText
      obtain ⟨digest, rfl, hisDigest⟩ := isDigest_of_checkDigest hdigest
      have hid' := encodable_of_isId (isId_of_validateId hvalid)
      have hdigest' := encodable_of_isDigest hisDigest
      have hline : Text.Encodable (.of "- " ++ idText ++ .of " (" ++ digest ++ .of ")") := by
        simp only [Text.encodable_append]
        exact ⟨⟨⟨⟨Text.encodable_of _, hid'⟩, Text.encodable_of _⟩, hdigest'⟩, Text.encodable_of _⟩
      refine ⟨(.of "- " ++ idText ++ .of " (" ++ digest ++ .of ")") :: lines, ?_, ?_⟩
      · rw [List.mapM_cons]
        unfold parentLine
        simp only [hid, hsha256, bind, Except.bind, formatted_of_encodable hid',
          formatted_of_encodable hdigest']
        unfold parentLine at hlines
        simp only [bind, Except.bind] at hlines
        rw [hlines]
        rfl
      · intro line hline'
        rcases List.mem_cons.mp hline' with rfl | hmem
        · exact hline
        · exact hencodable line hmem

/-- What `README.txt` says of a lineage is written exactly if its action can be. -/
theorem lineageText_writable_iff {lineage : Value} {action : Text} (h : checkLineage lineage = .ok ())
    (haction : lineage.item "action" = .ok (.text action)) :
    ∃ text, lineageText X lineage = .ok text ∧ (text.Encodable ↔ (joined action).Encodable) := by
  unfold checkLineage at h
  obtain ⟨parents, hparents, h⟩ := Except.bind_eq_ok.mp h
  obtain ⟨htruthy, h⟩ := guard_valueError h
  obtain ⟨_, -, h⟩ := Except.bind_eq_ok.mp h
  obtain ⟨-, h⟩ := guard_valueError h
  obtain ⟨_, -, h⟩ := Except.bind_eq_ok.mp h
  obtain ⟨-, h⟩ := guard_valueError h
  obtain ⟨elements, helements, h⟩ := Except.bind_eq_ok.mp h
  obtain ⟨lines, hlines, hencodable⟩ := @parentLines_writable X elements h
  have hitem := Value.item_of_get_truthy hparents (by simpa using htruthy)
  refine ⟨.of "\nDerived artifact lineage:\n" ++ (Text.of "\n").intercalate lines ++
    .of "\nAction: " ++ joined action ++ .of "\n", ?_, ?_⟩
  · unfold lineageText
    simp only [hitem, haction, bind, Except.bind, helements]
    rw [hlines]
    rfl
  · have hall : Text.Encodable ((Text.of "\n").intercalate lines) :=
      Text.encodable_intercalate (Text.encodable_of _) hencodable
    simp only [Text.encodable_append, Text.encodable_of, hall, true_and, and_true]

/-- A text of a provenance is read back. -/
theorem item_sortKeys_provenanceOf {key : String} {text : Text} (hchanged : key ≠ "source_changed")
    (hprevious : key ≠ "previous_artifacts_from_source")
    (htext : provenance.get? key = some (.text text)) :
    (provenanceOf provenance prior).sortKeys.item key = .ok (.text text) := by
  obtain ⟨fields, hfields, hkey⟩ := @get?_provenanceOf provenance prior key hchanged hprevious
  rw [Value.item_sortKeys, hfields]
  simp only [Value.item, Fields.item, hkey, htext]
  rfl

/-- The lineage that is read back, if there is one. -/
theorem get_sortKeys_preservationOf (cls : Text) (lineage : Value) :
    (preservationOf cls lineage).sortKeys.get "lineage" .null =
      .ok (if lineage.truthy then lineage.sortKeys else .null) := by
  rw [Value.get_sortKeys]
  by_cases htruthy : lineage.truthy = true
  · simp [preservationOf, Value.get, htruthy, Except.map]
  · simp [preservationOf, Value.get, htruthy, Except.map, Value.sortKeys]

/-- `README.txt` is written exactly if the time of the acquisition, its source and the action of a
derivation can be. -/
theorem readmeText_writable_iff {sha256 acquiredAt source : Text} {cls : Text} {lineage : Value}
    (hartifact : (metadata.item "artifact" >>= fun artifact => artifact.item "sha256") =
      .ok (.text sha256)) (hdigest : isDigest .sha256 sha256 = true)
    (hprovenance : metadata.item "provenance" = .ok (provenanceOf provenance prior).sortKeys)
    (hacquiredAt : provenance.get? "acquired_at" = some (.text acquiredAt))
    (hsource : provenance.get? "source" = some (.text source))
    (hpreservation : metadata.item "preservation" = .ok (preservationOf cls lineage).sortKeys)
    (hlineage : lineage.truthy = true → checkLineage lineage.sortKeys = .ok ())
    (haction : lineage = .null ∨ ∃ action, lineage.item "action" = .ok (.text action))
    (hid : artifactId.Encodable) (hname : name.Encodable) :
    (∃ text, readmeText X metadata artifactId name = .ok text ∧ text.Encodable) ↔
      (joined acquiredAt).Encodable ∧ (joined source).Encodable ∧ Writable (lineage.field? "action") := by
  obtain ⟨artifact, hartifact, hsha256⟩ := Except.bind_eq_ok.mp hartifact
  unfold readmeText
  simp only [hpreservation, hprovenance, hartifact, hsha256, bind, Except.bind,
    get_sortKeys_preservationOf, item_sortKeys_provenanceOf (by decide) (by decide) hacquiredAt,
    item_sortKeys_provenanceOf (by decide) (by decide) hsource,
    formatted_of_encodable (encodable_of_isDigest hdigest)]
  have hhead : Text.Encodable (.of "Ultimate BBS Box preservation export\n\nArtifact: " ++ artifactId ++
      .of "\nOriginal filename: " ++ name ++ .of "\nAcquired: " ++ joined acquiredAt ++
      .of "\nSource: " ++ joined source ++ .of "\nSHA-256: " ++ sha256 ++ .of "\n") ↔
      (joined acquiredAt).Encodable ∧ (joined source).Encodable := by
    simp only [Text.encodable_append, Text.encodable_of, hid, hname, encodable_of_isDigest hdigest,
      true_and, and_true]
  -- with a lineage more lines follow
  rcases haction with rfl | ⟨action, haction⟩
  · have hnone : Writable (Value.null.field? "action") := by
      intro text h
      cases h
    rw [and_iff_left hnone, ← hhead]
    constructor
    · rintro ⟨text, htext, hencodable⟩
      obtain rfl := Except.ok.inj htext
      exact hencodable
    · intro hencodable
      exact ⟨_, rfl, hencodable⟩
  · have htruthy := Value.truthy_of_item haction
    have hfield? : lineage.field? "action" = some (.text action) := Value.field?_of_item haction
    have hsorted : lineage.sortKeys.item "action" = .ok (.text action) := by
      rw [Value.item_sortKeys, haction]
      rfl
    obtain ⟨more, hmore, hencodable⟩ := @lineageText_writable_iff X _ action (hlineage htruthy) hsorted
    have hwritable : Writable (lineage.field? "action") ↔ (joined action).Encodable := by
      unfold Writable
      rw [hfield?]
      simp
    rw [hwritable, ← and_assoc, ← hhead, ← hencodable, ← Text.encodable_append]
    simp only [htruthy, if_true, Value.truthy_sortKeys, hmore]
    constructor
    · rintro ⟨text, htext, hencodable⟩
      obtain rfl := Except.ok.inj htext
      exact hencodable
    · intro hencodable
      exact ⟨_, rfl, hencodable⟩

end Texts

end UltimateBBSBox.Archive

import UltimateBBSBox.Archive.Bundling
import UltimateBBSBox.Archive.BundleTexts

/-!
# Exports are gated and all or nothing, and when they succeed

Whatever fails, an export is all or nothing, but for what happens within the look into a
ZIP file: that is passed over.  Where nothing fails, an export of a published artifact
succeeds unless a generated name is too long or taken, a text of its user cannot be written,
or the ZIP file raises what is not passed over or breaks off while its description is copied.
-/

namespace UltimateBBSBox.Archive

open Act Faulty

/-! ## When a bundle is put together -/

/-- No operation fails. -/
def noFailures : Failures := fun _ => none

/-- When a published artifact can be exported. -/
def Exportable (X : Exporter) (request : Request) (name : Text) (data : Bytes) : Mode → Prop
  | .publication => name.length ≤ 240 ∧ name ≠ generatedDiz ∧
      NotesWritable (request.provenance.get? "notes") ∧ ZipReadable X name data
  | .museum => Writable (request.provenance.get? "acquired_at") ∧
      Writable (request.provenance.get? "source") ∧ Writable (request.lineage.field? "action")

section Bundles

variable {X : Exporter} {disk : Disk} {request : Request} {document metadata : Value} {mode : Mode}
  {redistribution : Bool} {output : Output} {sha256 key original name : Text} {data : Bytes}

/-- What is granted passes the gate. -/
theorem exists_rights_of_permitted (h : Permitted metadata mode redistribution) :
    ∃ rights, metadata.item "rights" = .ok rights ∧ permit mode redistribution rights = .ok () := by
  obtain ⟨hmode, hredistribution⟩ := h
  obtain ⟨rights, hrights, hpermission⟩ := Except.bind_eq_ok.mp hmode
  refine ⟨rights, hrights, ?_⟩
  unfold permit
  rw [hpermission]
  cases hflag : redistribution with
  | false => rfl
  | true =>
      obtain ⟨rights', hrights', hpermission'⟩ := Except.bind_eq_ok.mp (hredistribution hflag)
      obtain rfl : rights = rights' := Except.ok.inj (hrights.symm.trans hrights')
      simp only [bind, Except.bind, hpermission']
      rfl

/-- The bundle of a published artifact is put together exactly if it is exportable. -/
theorem returns_bundle_iff (horigin : Origin request)
    (hpublished : Published X.toEnvironment disk request document)
    (hverified : verifyOne X.toEnvironment disk request.artifactId = .ok metadata) {rights : Value}
    (hrights : metadata.item "rights" = .ok rights)
    (hpayload : Payload disk metadata sha256 key data original name) {temporary : Text}
    (hempty : treeOf temporary output = ∅) :
    Returns (bundle X noFailures temporary metadata rights request.artifactId name
        (payload X key data) data mode)
      (fun _ output' => mode = .publication →
        DescriptionFaithful X name (payload X key data) data (treeOf temporary output')) output ↔
      Exportable X request name data mode := by
  obtain ⟨s, s', hrun, hfile⟩ := hpublished
  obtain ⟨filename, hfilename, ⟨data', prior, -, hdocument⟩, hvalid, hrecorded⟩ := recorded_of_run hrun
  obtain ⟨hid, hstored, hchecked⟩ := loaded_of_verifyOne hverified
  obtain rfl : document.sortKeys = metadata := by
    rw [hfile, hrecorded, Option.some.injEq, MetadataFile.document.injEq] at hstored
    exact hstored
  obtain ⟨⟨derivedFrom, hartifact⟩, hprovenance, hrightsOf, hpreservation⟩ :=
    items_of_documentOf hdocument
  have hsorted : ∀ {key : String} {part : Value}, document.item key = .ok part →
      document.sortKeys.item key = .ok part.sortKeys := by
    intro key part hpart
    rw [Value.item_sortKeys, hpart]
    rfl
  have hsound := sound_of_safeFilename hpayload.name_eq
  have hunfailing : ∀ steps, Writing noFailures steps := fun _ _ _ => rfl
  -- each mode writes texts of its own, and all else succeeds
  cases mode with
  | publication =>
      have hwritten := description_writable_iff (hsorted hprovenance) (encodable_of_isId hid)
        hsound.encodable
      simp only [true_imp_iff, bundle, returns_publicationBundle_faithful (hunfailing _) (hunfailing _)
        hempty hsound.bounded, hwritten, Exportable]
  | museum =>
      obtain ⟨_, provenance, rights', preservation, -, ⟨hprovenance', hcheckProvenance⟩,
        ⟨hrights', hcheckRights⟩, hpreservation', hcheckPreservation⟩ :=
        parts_of_checkMetadata (validateMetadata_ok_iff.mp hvalid)
      obtain rfl := Except.ok.inj (hprovenance.symm.trans hprovenance')
      obtain rfl := Except.ok.inj (hrightsOf.symm.trans hrights')
      obtain rfl := Except.ok.inj (hpreservation.symm.trans hpreservation')
      obtain rfl := Except.ok.inj ((hsorted hrightsOf).symm.trans hrights)
      obtain ⟨⟨acquiredAt, hacquiredAt⟩, source, hsource⟩ := texts_of_checkProvenance hcheckProvenance
      have hdigest := isDigest_of_objectPath hpayload.key_eq
      have hchecksums := @checksumsText_writable X _ _ _ hpayload.sha256_eq hdigest hsound.encodable
      have hrightsText := rightsText_writable (rightsStatus_of_checkRights hcheckRights)
      have hreadme := @readmeText_writable_iff X _ _ _ _ _ _ _ _ _ _ hpayload.sha256_eq hdigest
        (hsorted hprovenance) hacquiredAt hsource (hsorted hpreservation)
        (fun htruthy => checkLineage_sortKeys
          (checkLineage_of_checkPreservation hcheckPreservation htruthy))
        (action_of_origin horigin) (encodable_of_isId hid) hsound.encodable
      have hwritable : ∀ {text : Text},
          Writable (some (.text text)) ↔ (JsonText.joined text).Encodable := by
        intro text
        simp [Writable]
      simp only [reduceCtorEq, false_imp_iff, bundle,
        returns_museumBundle (hunfailing _) hempty hsound.bounded, hchecksums, hrightsText, hreadme,
        true_and, Exportable, hacquiredAt, hsource, hwritable]

/-- The blank artifact is exportable. -/
theorem exportable_blank (mode : Mode) :
    Exportable emptyExporter (emptyRequest "BLANK") (.of "BLANK") [] mode := by
  have hwritable : ∀ text, Writable (some (.text (.of text))) := by
    intro text value hvalue
    obtain rfl : Text.of text = value := Value.text.inj (Option.some.inj hvalue)
    rw [JsonText.joined_eq_self (JsonText.unpaired_of_encodable (Text.encodable_of text))]
    exact Text.encodable_of text
  cases mode with
  | museum => exact ⟨hwritable _, hwritable _, fun _ h => nomatch h⟩
  | publication =>
      have hnotes : NotesWritable ((emptyRequest "BLANK").provenance.get? "notes") := by
        intro value h
        cases h
      refine ⟨by decide, ?_, hnotes, rfl⟩
      unfold generatedDiz
      rw [ne_eq, Text.of_inj]
      decide

end Bundles

/-! ## Exports are all or nothing -/

/-- **Exports pass the gate of the rights and are all or nothing.**  A call comes back.  What is
at `<output>/<id>` is never changed.  If something is made there, the artifact verified, the
permissions of the mode are granted, and the bundle has the object as its payload.  If an operation
fails up to the rename that does not look into a ZIP file, the call raises.  A call that raises
leaves `<output>/<id>` as it was and, if the removal succeeds, no temporary directory; or else it
raises after the rename, what the synchronization of the output directory raised. -/
theorem buildExport_gated_and_atomic (X : Exporter) (disk : Disk) (failures : Failures)
    (artifactId : Text) (mode : Mode) (redistribution : Bool) (output : Output) :
    ∃ result output',
      (buildExport X failures disk artifactId mode redistribution).run output =
        some (result, output') ∧
      (∀ entry, output.get? artifactId = some entry → output'.get? artifactId = some entry) ∧
      (output'.get? artifactId ≠ output.get? artifactId → ∃ metadata tree,
        verifyOne X.toEnvironment disk artifactId = .ok metadata ∧
          Permitted metadata mode redistribution ∧
          output'.get? artifactId = some (.directory tree) ∧
          HasPayload X disk metadata mode tree) ∧
      ((∃ step ∈ mode.steps, failures step ≠ none) → ∃ e, result = .error e) ∧
      ∀ e, result = .error e →
        (output'.get? artifactId = output.get? artifactId ∧
          (failures .removal = none → ∀ key, output'.get? key = output.get? key)) ∨
        ((∃ reached, failures .syncOutput = some (e, reached)) ∧
          ∀ step ∈ mode.steps, failures step = none) := by
  have hspec := @wlp_buildExport X failures disk artifactId mode redistribution output
  have hmade : ∀ {metadata output'}, verifyOne X.toEnvironment disk artifactId = .ok metadata →
      Permitted metadata mode redistribution →
      Bundled X disk artifactId metadata mode output output' →
      (∀ entry, output.get? artifactId = some entry → output'.get? artifactId = some entry) ∧
      (output'.get? artifactId ≠ output.get? artifactId → ∃ metadata tree,
        verifyOne X.toEnvironment disk artifactId = .ok metadata ∧
          Permitted metadata mode redistribution ∧
          output'.get? artifactId = some (.directory tree) ∧
          HasPayload X disk metadata mode tree) := by
    intro metadata output' hverified hpermitted hbundled
    refine ⟨?_, ?_⟩
    · intro entry hentry
      rw [hbundled.unused] at hentry
      cases hentry
    · intro _
      obtain ⟨tree, htree, hpayload⟩ := hbundled.bundle
      exact ⟨metadata, tree, hverified, hpermitted, htree, hpayload⟩
  -- a bundle can be there after a return and after a failed synchronization
  cases hrun : (buildExport X failures disk artifactId mode redistribution).run output with
  | none => exact absurd hrun (total_buildExport output)
  | some outcome =>
      obtain ⟨result, output'⟩ := outcome
      cases result with
      | ok name =>
          obtain ⟨hunfailing, metadata, hverified, hpermitted, hbundled⟩ := wlp_ok hspec hrun
          obtain ⟨hkept, hnew⟩ := hmade hverified hpermitted hbundled
          refine ⟨.ok name, output', rfl, hkept, hnew, ?_, ?_⟩
          · intro ⟨step, hstep, hfailure⟩
            exact absurd (hunfailing step hstep) hfailure
          · intro e he
            cases he
      | error e =>
          rcases wlp_error hspec hrun with ⟨hbeside, hremoved⟩ |
            ⟨hsync, hunfailing, metadata, hverified, hpermitted, hbundled⟩
          · have hsame := hbeside artifactId (temporaryName_ne X artifactId).symm
            refine ⟨.error e, output', rfl, ?_, ?_, fun _ => ⟨e, rfl⟩, ?_⟩
            · intro entry hentry
              rw [hsame, hentry]
            · intro hchanged
              exact absurd hsame hchanged
            · intro _ _
              exact .inl ⟨hsame, hremoved⟩
          · obtain ⟨hkept, hnew⟩ := hmade hverified hpermitted hbundled
            refine ⟨.error e, output', rfl, hkept, hnew, fun _ => ⟨e, rfl⟩, ?_⟩
            intro e' he'
            cases he'
            exact .inr ⟨hsync, hunfailing⟩

/-- A ZIP file cannot be opened, and no other operation fails. -/
def zipFailure : Failures
  | .openZip => some (.foreign .osError, 0)
  | _ => none

/-- A run in which the ZIP file cannot be opened does not raise. -/
theorem buildExport_passes_over_zipFailure : ∃ disk result output',
    zipFailure .openZip ≠ none ∧
    (buildExport emptyExporter zipFailure disk (emptyRequest "BLANK").artifactId .publication
      false).run ∅ = some (.ok result, output') := by
  obtain ⟨disk, document, hstaged⟩ := exists_staged safeFilename_blank
  obtain ⟨rights, hrights, hpermit⟩ := exists_rights_of_permitted hstaged.permitted
  have hempty : treeOf (temporaryName emptyExporter (emptyRequest "BLANK").artifactId)
      ((∅ : Output).set (temporaryName emptyExporter (emptyRequest "BLANK").artifactId)
        (.directory ∅)) = ∅ := treeOf_eq (Dict.get?_set_self ..)
  -- without the failure the bundle is put together, and what precedes the ZIP file is the same
  have hbundle := (returns_bundle_iff (origin_emptyRequest _) hstaged.published hstaged.verified hrights
    hstaged.payload hempty).mpr (exportable_blank .publication)
  obtain ⟨hlong, hother, text, htext, hencodable, -⟩ :=
    (returns_publicationBundle (fun _ _ => rfl) hempty (by decide)).mp hbundle
  have hpassed : Returns (publicationBundle emptyExporter zipFailure
      (temporaryName emptyExporter (emptyRequest "BLANK").artifactId) document.sortKeys
      (emptyRequest "BLANK").artifactId (.of "BLANK")
      (payload emptyExporter (emptyDigest .sha256) []) []) (fun _ _ => True) _ :=
    (returns_publicationBundle (by decide) hempty (by decide)).mpr
      ⟨hlong, hother, text, htext, hencodable, (returns_inspectZip_of_openZip rfl).mpr ⟨rfl, trivial⟩⟩
  obtain ⟨result, output', hrun, -⟩ := (returns_iff_exists total_buildExport).mp <|
    (returns_buildExport (by decide : Unfailing zipFailure .publication) rfl hstaged.verified hrights
      hpermit rfl rfl (by decide) hstaged.payload fun _ => True).mpr hpassed
  exact ⟨disk, result, output', by decide, hrun⟩

/-! ## When an export succeeds -/

section Succeeding

variable {X : Exporter} {disk : Disk} {request : Request} {document metadata : Value} {mode : Mode}
  {redistribution : Bool} {output : Output} {sha256 key original name : Text} {data : Bytes}

/-- **When an export succeeds.**  With the limit on names no longer id than 240 characters can have
been published: its metadata file is written under a name that is 15 characters longer. -/
theorem buildExport_succeeds_iff (horigin : Origin request)
    (hpublished : Published X.toEnvironment disk request document)
    (hshort : request.artifactId.length ≤ 240)
    (hverified : verifyOne X.toEnvironment disk request.artifactId = .ok metadata)
    (hpermitted : Permitted metadata mode redistribution)
    (hpayload : Payload disk metadata sha256 key data original name)
    (hunused : output.get? request.artifactId = none)
    (hfree : output.get? (temporaryName X request.artifactId) = none) :
    (∃ result output' tree,
      (buildExport X noFailures disk request.artifactId mode redistribution).run output =
        some (.ok result, output') ∧
      output'.get? request.artifactId = some (.directory tree) ∧
      HasPayload X disk metadata mode tree ∧
      (mode = .publication →
        DescriptionFaithful X name (payload X key data) data tree)) ↔
      Exportable X request name data mode := by
  obtain ⟨rights, hrights, hpermit⟩ := exists_rights_of_permitted hpermitted
  have hempty : treeOf (temporaryName X request.artifactId)
      (output.set (temporaryName X request.artifactId) (.directory ∅)) = ∅ :=
    treeOf_eq (Dict.get?_set_self ..)
  have hunfailing : Unfailing noFailures mode := fun _ _ => rfl
  have hsync : noFailures .syncOutput = none := rfl
  rw [← returns_bundle_iff horigin hpublished hverified hrights hpayload hempty,
    ← returns_buildExport hunfailing hsync hverified hrights hpermit hunused hfree (by omega) hpayload
      (fun tree => mode = .publication → DescriptionFaithful X name (payload X key data) data tree),
    returns_iff_exists total_buildExport]
  constructor
  · intro ⟨result, output', tree, hrun, htree, _, hfaithful⟩
    exact ⟨result, output', hrun, tree, htree, hfaithful⟩
  · intro ⟨result, output', hrun, tree, htree, hfaithful⟩
    obtain ⟨-, metadata', hverified', -, hbundled⟩ := wlp_ok (wlp_buildExport output) hrun
    obtain rfl : metadata = metadata' := Except.ok.inj (hverified.symm.trans hverified')
    obtain ⟨tree', htree', hhas⟩ := hbundled.bundle
    obtain rfl : tree = tree' := by
      rw [htree, Option.some.injEq, Entry.directory.injEq] at htree'
      exact htree'
    exact ⟨result, output', tree, hrun, htree, hhas, hfaithful⟩

end Succeeding

/-- The blank artifact is published in a bundle with its object. -/
theorem buildExport_publishes_blank : ∃ disk metadata result output' tree,
    (buildExport emptyExporter noFailures disk (emptyRequest "BLANK").artifactId .publication
      false).run ∅ = some (.ok result, output') ∧
    output'.get? (emptyRequest "BLANK").artifactId = some (.directory tree) ∧
    HasPayload emptyExporter disk metadata .publication tree := by
  obtain ⟨disk, document, hstaged⟩ := exists_staged safeFilename_blank
  have hunused : ∀ key, (∅ : Output).get? key = none := fun _ => rfl
  obtain ⟨result, output', tree, hrun, htree, hpayload, -⟩ :=
    (buildExport_succeeds_iff (origin_emptyRequest _) hstaged.published (by decide) hstaged.verified
      hstaged.permitted hstaged.payload (hunused _) (hunused _)).mpr (exportable_blank .publication)
  exact ⟨disk, _, result, output', tree, hrun, htree, hpayload⟩

theorem safeFilename_generatedDiz :
    safeFilename (.of "FILE_ID.DIZ.generated") = .ok (.of "FILE_ID.DIZ.generated") := by
  simp only [Text.of]
  decide

/-- A payload with the name of the generated description is preserved, and cannot be published. -/
theorem buildExport_refuses_generated_name : ∃ disk document,
    Published emptyExporter.toEnvironment disk (emptyRequest "FILE_ID.DIZ.generated") document ∧
    verifyOne emptyExporter.toEnvironment disk (emptyRequest "FILE_ID.DIZ.generated").artifactId =
      .ok document.sortKeys ∧
    Permitted document.sortKeys .publication false ∧
    ∃ e output', (buildExport emptyExporter noFailures disk
      (emptyRequest "FILE_ID.DIZ.generated").artifactId .publication false).run ∅ =
        some (.error e, output') := by
  obtain ⟨disk, document, hstaged⟩ := exists_staged safeFilename_generatedDiz
  refine ⟨disk, document, hstaged.published, hstaged.verified, hstaged.permitted, ?_⟩
  obtain ⟨rights, hrights, hpermit⟩ := exists_rights_of_permitted hstaged.permitted
  have hspec := @wlp_buildExport emptyExporter noFailures disk
    (emptyRequest "FILE_ID.DIZ.generated").artifactId .publication false ∅
  cases hrun : (buildExport emptyExporter noFailures disk
      (emptyRequest "FILE_ID.DIZ.generated").artifactId .publication false).run ∅ with
  | none => exact absurd hrun (total_buildExport _)
  | some outcome =>
      obtain ⟨result, output'⟩ := outcome
      cases result with
      | error e => exact ⟨e, output', rfl⟩
      | ok result =>
          obtain ⟨-, metadata, -, -, hbundled⟩ := wlp_ok hspec hrun
          obtain ⟨tree, htree, -⟩ := hbundled.bundle
          have hbundle := (returns_buildExport (fun _ _ => rfl) rfl hstaged.verified hrights hpermit
            rfl rfl (by decide) hstaged.payload fun _ => True).mp <|
              (returns_iff_exists total_buildExport).mpr ⟨result, output', hrun, tree, htree, trivial⟩
          obtain ⟨-, hother, -⟩ := (returns_publicationBundle (fun _ _ => rfl)
            (treeOf_eq (Dict.get?_set_self ..)) (by decide)).mp hbundle
          exact absurd rfl hother

end UltimateBBSBox.Archive

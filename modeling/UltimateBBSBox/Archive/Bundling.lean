import UltimateBBSBox.Archive.Exporting

/-!
# When an export returns

What each program of an export comes to where its operations take effect: which texts
can be written, which names are short enough, what is in the directory in the end.  A
whole run returns exactly if its bundle does.
-/

namespace UltimateBBSBox.Archive

open Act Faulty

section Writing

variable {X : Exporter} {failures : Failures} {temporary : Text} {output : Output}
  {Q : Unit → Output → Prop}

@[simp] theorem put_put (temporary : Text) (path : List Text) (item item' : Item) (output : Output) :
    put temporary path item' (put temporary path item output) = put temporary path item' output := by
  calc put temporary path item' (put temporary path item output)
    _ = (put temporary path item output).set temporary (.directory
          ((treeOf temporary (put temporary path item output)).set path item')) := rfl
    _ = (put temporary path item output).set temporary (.directory
          ((treeOf temporary output).set path item')) := by rw [treeOf_put, Dict.set_set]
    _ = put temporary path item' output := Dict.set_set ..

theorem checkName_eq_ok_iff {name : Text} : checkName name = .ok () ↔ name.length ≤ 255 := by
  unfold checkName
  by_cases hlong : 255 < name.length
  · simp [hlong]
  · simp [hlong]
    omega

/-- The operations of a mode's bundle take effect. -/
abbrev Writing (failures : Failures) (steps : List Step) : Prop := ∀ step ∈ steps, failures step = none

theorem Writing.of_subset {steps steps' : List Step} (h : Writing failures steps)
    (hsubset : ∀ step ∈ steps', step ∈ steps) : Writing failures steps' :=
  fun step hstep => h step (hsubset step hstep)

theorem returns_copyFile (h : Writing failures [.copy .create, .copy .fill]) {path : List Text}
    (hname : (path.getLastD []).length ≤ 255) (source : Item) :
    Returns (copyFile failures temporary path source) Q output ↔
      Q () (put temporary path source output) := by
  have hcreate : failures (.copy .create) = none := h _ (by decide)
  have hfill : failures (.copy .fill) = none := h _ (by decide)
  unfold copyFile
  rw [returns_bind, returns_check, checkName_eq_ok_iff, and_iff_right hname]
  split
  · rw [returns_bind, returns_attempt hcreate, returns_attempt hfill, put_put]
  · rw [returns_bind, returns_attempt hcreate, returns_attempt hfill]
    exact Iff.rfl

theorem returns_atomicJson (h : Writing failures [.json .create, .json .fill, .json .place, .json .sync])
    (name : Text) (value : Value) :
    Returns (atomicJson X failures temporary name value) Q output ↔
      name.length ≤ 245 ∧ Q () (put temporary [name] (.document value) output) := by
  have hlength : (Text.of "." ++ name ++ .of "." ++ X.suffix).length = name.length + 10 := by
    simp [X.length_suffix, Text.of]
  unfold atomicJson
  rw [returns_bind, returns_check, checkName_eq_ok_iff, hlength,
    returns_bind, returns_attempt (h _ (by decide)), returns_bind, returns_attempt (h _ (by decide)),
    returns_bind, returns_attempt (h _ (by decide)), returns_attempt (h _ (by decide))]
  exact and_congr_left fun _ => by omega

theorem returns_writeText {file : TextFile}
    (h : Writing failures [.text file .create, .text file .fill, .text file .sync])
    (name value : Text) :
    Returns (writeText failures temporary file name value) Q output ↔
      (treeOf temporary output).get? [name] = none ∧ Text.Encodable value ∧
        Q () (put temporary [name] (.text value) output) := by
  have hcreate : failures (.text file .create) = none := h _ (by simp)
  have hfill : failures (.text file .fill) = none := h _ (by simp)
  have hsync : failures (.text file .sync) = none := h _ (by simp)
  have hencodable : (¬∃ c ∈ value, c.isSurrogate = true) ↔ Text.Encodable value := by
    simp [Text.Encodable]
  unfold writeText
  rw [returns_bind, returns_get, returns_guard, Option.not_isSome_iff_eq_none, returns_bind,
    returns_attempt hcreate, returns_guard, hencodable, returns_bind, returns_attempt hfill,
    returns_attempt hsync, put_put]
  rfl

end Writing

/-! ## ZIP files -/

/-- The operations that look into a ZIP file. -/
def zipSteps : List Step := [.openZip, .openMember, .member .create, .member .fill, .member .sync]

section Zip

variable {X : Exporter} {failures : Failures} {temporary name : Text} {output : Output} {data : Bytes}
  {source : Item}

/-- What reading a ZIP file must not come to: an exception that is passed on, or one from a member
that is already being copied. -/
def ZipReadable (X : Exporter) (name : Text) (data : Bytes) : Prop :=
  match X.zip data with
  | .error e => isSuppressed e = true
  | .ok members =>
      match members.find? (Member.describes X) with
      | none => True
      | some member =>
          match member.opened with
          | .error e => isSuppressed e = true
          | .ok content => name = fileIdDiz ∨ ∃ bytes, content = .ok bytes

/-- The description in a bundle is the payload itself, or the content of the member. -/
def DescriptionFaithful (X : Exporter) (name : Text) (source : Item) (data : Bytes) (tree : Tree) : Prop :=
  ∀ item, tree.get? [fileIdDiz] = some item →
    (name = fileIdDiz ∧ item = source) ∨
      ∃ members member content, X.zip data = .ok members ∧
        members.find? (Member.describes X) = some member ∧ member.opened = .ok (.ok content) ∧
        item = .bytes content

/-- What is suppressed ends the look into a ZIP file, and nothing else does. -/
theorem returns_suppressing {act : Act Output Exn Unit} {Q : Unit → Output → Prop} :
    Returns (tryCatch act fun e => if isSuppressed e = true then return else throw e) Q output ↔
      wlp act Q (fun e output' => isSuppressed e = true ∧ Q () output') output := by
  unfold Returns
  rw [wlp_tryCatch]
  have hhandler : ∀ e output', wlp (if isSuppressed e = true then return else throw e :
      Act Output Exn Unit) Q (fun _ _ => False) output' ↔ isSuppressed e = true ∧ Q () output' := by
    intro e output'
    by_cases hsuppressed : isSuppressed e = true
    · simp [hsuppressed]
    · simp [hsuppressed]
  simp only [hhandler]

/-- A ZIP file that cannot be opened is passed over if the exception is suppressed. -/
theorem returns_inspectZip_of_openZip {e : Exn} {reached : ℕ}
    (h : failures .openZip = some (e, reached)) {Q : Unit → Output → Prop} :
    Returns (inspectZip X failures temporary data) Q output ↔ isSuppressed e = true ∧ Q () output := by
  unfold inspectZip
  rw [returns_suppressing, wlp_bind, h, wlp_attempt]
  simp

/-- Of a member that is small enough nothing is cut off. -/
theorem take_content {members : List Member} {member : Member} {content : Bytes}
    (hfind : members.find? (Member.describes X) = some member) (hopened : member.opened = .ok (.ok content)) :
    content.take 65537 = content := by
  have hdescribes := List.find?_some hfind
  have hsize : member.fileSize ≤ 65536 := by
    unfold Member.describes at hdescribes
    simp only [decide_eq_true_eq] at hdescribes
    exact hdescribes.2.2
  exact List.take_of_length_le (by have := member.length_le content hopened; omega)

section Copying

variable {members : List Member} {member : Member}

/-- The copy of a member ends with a faithful description exactly if its content can be read, or the
payload has the name already. -/
theorem copyMember_faithful_iff (h : Writing failures zipSteps) (hzip : X.zip data = .ok members)
    (hfind : members.find? (Member.describes X) = some member)
    (hdescription : (treeOf temporary output).get? [fileIdDiz] =
      if name = fileIdDiz then some source else none)
    (hfaithful : DescriptionFaithful X name source data (treeOf temporary output)) :
    wlp (copyMember failures temporary member)
        (fun _ output' => DescriptionFaithful X name source data (treeOf temporary output'))
        (fun e output' => isSuppressed e = true ∧
          DescriptionFaithful X name source data (treeOf temporary output')) output ↔
      match member.opened with
      | .error e => isSuppressed e = true
      | .ok content => name = fileIdDiz ∨ ∃ bytes, content = .ok bytes := by
  unfold copyMember
  rw [wlp_bind, wlp_attempt_none (h _ (by decide)), id, wlp_bind, wlp_ofExcept]
  cases hopened : member.opened with
  | error e => simp [hfaithful]
  | ok content =>
      simp only [Except.ok.injEq, forall_eq', reduceCtorEq, false_imp_iff, implies_true, and_true]
      rw [wlp_bind, wlp_get, wlp_ite]
      by_cases hname : name = fileIdDiz
      · have hseen : ((treeOf temporary output).get? [fileIdDiz]).isSome = true := by
          rw [hdescription, if_pos hname, Option.isSome_some]
        simp only [hseen, true_imp_iff, not_true_eq_false, false_imp_iff, and_true, hname, true_or,
          iff_true]
        exact ⟨rfl, hname ▸ hfaithful⟩
      · have hfree : ((treeOf temporary output).get? [fileIdDiz]).isSome = false := by
          rw [hdescription, if_neg hname, Option.isSome_none]
        simp only [hfree, Bool.false_eq_true, false_imp_iff, not_false_eq_true, true_imp_iff, true_and,
          hname, false_or]
        rw [wlp_bind, wlp_attempt_none (h _ (by decide)), wlp_bind, wlp_ofExcept]
        cases content with
        | error e =>
            -- the destination is open by then, and stays as an empty file
            refine iff_of_false ?_ (by simp)
            rintro ⟨_, herror⟩
            obtain ⟨_, hbad⟩ := herror e rfl
            rw [treeOf_put] at hbad
            obtain ⟨hsame, -⟩ | ⟨members', member', bytes, hzip', hfind', hopened', -⟩ :=
              hbad (.bytes []) (Dict.get?_set_self ..)
            · exact hname hsame
            · rw [hzip, Except.ok.injEq] at hzip'
              subst hzip'
              rw [hfind, Option.some.injEq] at hfind'
              subst hfind'
              rw [hopened] at hopened'
              cases hopened'
        | ok bytes =>
            refine iff_of_true ⟨?_, by simp⟩ ⟨bytes, rfl⟩
            intro bytes' hbytes'
            obtain rfl : bytes = bytes' := Except.ok.inj hbytes'
            rw [wlp_bind, wlp_attempt_none (h _ (by decide)), wlp_attempt_none (h _ (by decide)), id,
              treeOf_put, take_content hfind hopened]
            intro item hitem
            rw [Dict.get?_set_self, Option.some.injEq] at hitem
            exact .inr ⟨members, member, bytes, hzip, hfind, hopened, hitem.symm⟩

end Copying

/-- The look into a ZIP file returns with a faithful description exactly if the file is readable. -/
theorem returns_inspectZip (h : Writing failures zipSteps)
    (hdescription : (treeOf temporary output).get? [fileIdDiz] =
      if name = fileIdDiz then some source else none) :
    Returns (inspectZip X failures temporary data)
        (fun _ output' => DescriptionFaithful X name source data (treeOf temporary output')) output ↔
      ZipReadable X name data := by
  have hfaithful : DescriptionFaithful X name source data (treeOf temporary output) := by
    intro item hitem
    rw [hdescription] at hitem
    split at hitem
    · rename_i hname
      exact .inl ⟨hname, (Option.some.inj hitem).symm⟩
    · cases hitem
  unfold inspectZip ZipReadable
  rw [returns_suppressing, wlp_bind, wlp_attempt_none (h _ (by decide)), id, wlp_bind, wlp_ofExcept]
  cases hzip : X.zip data with
  | error e => simp [hfaithful]
  | ok members =>
      simp only [Except.ok.injEq, forall_eq', reduceCtorEq, false_imp_iff, implies_true, and_true]
      cases hfind : members.find? (Member.describes X) with
      | none => exact iff_of_true hfaithful trivial
      | some member => exact copyMember_faithful_iff h hzip hfind hdescription hfaithful

end Zip

/-! ## Bundles -/

section Bundles

variable {X : Exporter} {failures : Failures} {temporary artifactId name : Text} {output : Output}
  {metadata rights : Value} {source : Item} {data : Bytes} {Q : Unit → Output → Prop}

theorem json_ne_generatedDiz (name : Text) : name ++ .of ".json" ≠ generatedDiz := by
  intro h
  have hlast := congrArg List.getLast? h
  simp [generatedDiz, Text.of] at hlast

theorem json_ne_fileIdDiz (name : Text) : name ++ .of ".json" ≠ fileIdDiz := by
  intro h
  have hlast := congrArg List.getLast? h
  simp [fileIdDiz, Text.of] at hlast

theorem fileIdDiz_ne_generatedDiz : fileIdDiz ≠ generatedDiz := by
  unfold fileIdDiz generatedDiz
  rw [ne_eq, Text.of_inj]
  decide

/-- The publication bundle is put together if its JSON file can be named, the name of the generated
description is free and its text can be written, and the look into a ZIP file returns. -/
theorem returns_publicationBundle (h : Writing failures Mode.publication.writes)
    (hempty : treeOf temporary output = ∅) (hname : name.length ≤ 255) :
    Returns (publicationBundle X failures temporary metadata artifactId name source data) Q output ↔
      name.length ≤ 240 ∧ name ≠ generatedDiz ∧ ∃ text,
        description metadata artifactId name = .ok text ∧ Text.Encodable text ∧
          Returns (inspectZip X failures temporary data) Q
            (put temporary [generatedDiz] (.text text)
              (put temporary [name ++ .of ".json"] (.document metadata)
                (put temporary [name] source output))) := by
  have hlength : (name ++ Text.of ".json").length = name.length + 5 := by
    simp [Text.of]
  have hshort : ([name].getLastD []).length ≤ 255 := hname
  unfold publicationBundle
  rw [returns_bind, returns_copyFile (h.of_subset (by decide)) hshort, returns_bind,
    returns_atomicJson (h.of_subset (by decide)), hlength, returns_bind, returns_ofExcept]
  have hfree : (treeOf temporary (put temporary [name ++ .of ".json"] (.document metadata)
      (put temporary [name] source output))).get? [generatedDiz] = none ↔ name ≠ generatedDiz := by
    rw [treeOf_put, treeOf_put, hempty, Dict.get?_set_ne _ _ (by
      simpa using (json_ne_generatedDiz name).symm), Dict.get?_set]
    by_cases hsame : name = generatedDiz
    · simp [hsame]
    · simp [hsame, Ne.symm hsame]
  simp only [returns_bind, returns_writeText (h.of_subset
    (by decide : ∀ step ∈ [Step.text .description .create, .text .description .fill,
      .text .description .sync], step ∈ Mode.publication.writes)), hfree]
  constructor
  · rintro ⟨hlong, text, htext, hother, hencodable, hzip⟩
    exact ⟨by omega, hother, text, htext, hencodable, hzip⟩
  · rintro ⟨hlong, hother, text, htext, hencodable, hzip⟩
    exact ⟨by omega, text, htext, hother, hencodable, hzip⟩

/-- It ends with a faithful description if the ZIP file is readable besides. -/
theorem returns_publicationBundle_faithful (h : Writing failures Mode.publication.writes)
    (hzip : Writing failures zipSteps) (hempty : treeOf temporary output = ∅)
    (hname : name.length ≤ 255) :
    Returns (publicationBundle X failures temporary metadata artifactId name source data)
        (fun _ output' => DescriptionFaithful X name source data (treeOf temporary output')) output ↔
      name.length ≤ 240 ∧ name ≠ generatedDiz ∧
        (∃ text, description metadata artifactId name = .ok text ∧ Text.Encodable text) ∧
        ZipReadable X name data := by
  rw [returns_publicationBundle h hempty hname]
  have hdescription : ∀ text, (treeOf temporary (put temporary [generatedDiz] (.text text)
      (put temporary [name ++ .of ".json"] (.document metadata)
        (put temporary [name] source output)))).get? [fileIdDiz] =
      if name = fileIdDiz then some source else none := by
    intro text
    rw [treeOf_put, treeOf_put, treeOf_put, hempty, Dict.get?_set_ne _ _ (by
      simpa using fileIdDiz_ne_generatedDiz), Dict.get?_set_ne _ _ (by
      simpa using (json_ne_fileIdDiz name).symm), Dict.get?_set]
    by_cases hsame : name = fileIdDiz
    · simp [hsame]
    · simp [hsame, Ne.symm hsame]
  simp only [returns_inspectZip hzip (hdescription _)]
  constructor
  · rintro ⟨hlong, hother, text, htext, hencodable, hreadable⟩
    exact ⟨hlong, hother, ⟨text, htext, hencodable⟩, hreadable⟩
  · rintro ⟨hlong, hother, ⟨text, htext, hencodable⟩, hreadable⟩
    exact ⟨hlong, hother, text, htext, hencodable, hreadable⟩

/-- The museum bundle is put together if its three texts can be written. -/
theorem returns_museumBundle (h : Writing failures Mode.museum.writes)
    (hempty : treeOf temporary output = ∅) (hname : name.length ≤ 255) :
    Returns (museumBundle X failures temporary metadata rights artifactId name source)
        (fun _ _ => True) output ↔
      (∃ text, checksumsText X metadata name = .ok text ∧ Text.Encodable text) ∧
        (∃ text, rightsText rights = .ok text ∧ Text.Encodable text) ∧
        ∃ text, readmeText X metadata artifactId name = .ok text ∧ Text.Encodable text := by
  have hshort : ([Text.of "artifacts", name].getLastD []).length ≤ 255 := hname
  have hmetadata : (Text.of "metadata.json").length ≤ 245 := by
    simp [Text.of]
  have hne : ∀ other, [other] ≠ [Text.of "artifacts", name] := by
    intro other heq
    cases heq
  have hchecksums : Writing failures [.text .checksums .create, .text .checksums .fill,
      .text .checksums .sync] := h.of_subset (by decide)
  have hrights : Writing failures [.text .rights .create, .text .rights .fill, .text .rights .sync] :=
    h.of_subset (by decide)
  have hreadme : Writing failures [.text .readme .create, .text .readme .fill, .text .readme .sync] :=
    h.of_subset (by decide)
  unfold museumBundle
  rw [returns_bind, returns_attempt (h _ (by decide)), returns_bind,
    returns_copyFile (h.of_subset (by decide)) hshort, returns_bind,
    returns_atomicJson (h.of_subset (by decide)), and_iff_right hmetadata]
  simp only [returns_bind, returns_ofExcept, returns_writeText hchecksums, returns_writeText hrights,
    returns_writeText hreadme, treeOf_put, id, hempty, Dict.get?_set, hne, List.cons.injEq,
    Text.of_inj, String.reduceEq, if_false, Dict.get?_empty, true_and, and_true]
  constructor
  · rintro ⟨checksums, hchecksums, hcheckable, rights', hrights', hwritable, readme, hreadme,
      hreadable⟩
    exact ⟨⟨checksums, hchecksums, hcheckable⟩, ⟨rights', hrights', hwritable⟩, readme, hreadme,
      hreadable⟩
  · rintro ⟨⟨checksums, hchecksums, hcheckable⟩, ⟨rights', hrights', hwritable⟩, readme, hreadme,
      hreadable⟩
    exact ⟨checksums, hchecksums, hcheckable, rights', hrights', hwritable, readme, hreadme, hreadable⟩

end Bundles

/-! ## Whole runs -/

section Runs

variable {X : Exporter} {failures : Failures} {disk : Disk} {artifactId : Text} {mode : Mode}
  {redistribution : Bool} {metadata rights : Value} {output : Output}

theorem returns_rename {temporary : Text} {Q : Unit → Output → Prop}
    (hunused : output.get? artifactId = none) (h : failures .rename = none) :
    Returns (rename failures temporary artifactId) Q output ↔
      Q () ((output.pop temporary).set artifactId (.directory (treeOf temporary output))) := by
  unfold rename
  rw [returns_bind, returns_get, hunused, returns_guard]
  simp only [Option.isSome_none, Bool.false_eq_true, not_false_eq_true, true_and]
  exact returns_attempt h

/-- A run whose operations take effect returns exactly if its bundle does, and then with what the
bundle ends with in the place of the artifact. -/
theorem returns_buildExport (h : Unfailing failures mode) (hsync : failures .syncOutput = none)
    (hverified : verifyOne X.toEnvironment disk artifactId = .ok metadata)
    (hrights : metadata.item "rights" = .ok rights) (hpermit : permit mode redistribution rights = .ok ())
    (hunused : output.get? artifactId = none) (hfree : output.get? (temporaryName X artifactId) = none)
    (hshort : artifactId.length ≤ 245) {sha256 key original name : Text} {data : Bytes}
    (hpayload : Payload disk metadata sha256 key data original name) (P : Tree → Prop) :
    Returns (buildExport X failures disk artifactId mode redistribution)
        (fun _ output' => ∃ tree, output'.get? artifactId = some (.directory tree) ∧ P tree) output ↔
      Returns (bundle X failures (temporaryName X artifactId) metadata rights artifactId name
          (payload X key data) data mode)
        (fun _ output' => P (treeOf (temporaryName X artifactId) output'))
        (output.set (temporaryName X artifactId) (.directory ∅)) := by
  have hne := temporaryName_ne X artifactId
  have hlength : (temporaryName X artifactId).length ≤ 255 := by
    simp [temporaryName, X.length_suffix, Text.of]
    omega
  obtain ⟨artifact, hartifact, hsha256⟩ := Except.bind_eq_ok.mp hpayload.sha256_eq
  have horiginal : artifact.item "original_filename" = .ok (.text original) := by
    have hfield := hpayload.original_eq
    rw [hartifact] at hfield
    exact hfield
  have htext : ∀ {field : Except Exn Value} {text : Text}, field = .ok (.text text) →
      (field >>= Value.toText) = .ok text := by
    intro field text hfield
    rw [hfield]
    rfl
  unfold buildExport
  rw [returns_bind, returns_ofExcept_ok hverified, returns_bind, returns_ofExcept_ok hrights,
    returns_bind, returns_ofExcept_ok hpermit, returns_bind, returns_attempt (h _ (by simp [Mode.steps])),
    returns_bind, returns_attempt (h _ (by simp [Mode.steps])), returns_bind,
    returns_attempt (h _ (by simp [Mode.steps])), returns_bind, returns_get]
  simp only [id, hunused, Option.any_none, Bool.false_eq_true, if_false]
  rw [returns_bind, returns_ofExcept_ok (checkName_eq_ok_iff.mpr hlength)]
  simp only [hfree, Option.isSome_none, Bool.false_eq_true, if_false]
  rw [returns_bind, returns_attempt (h _ (by simp [Mode.steps])),
    returns_andFinally total_removeTemporary]
  unfold assemble
  rw [returns_bind, returns_ofExcept_ok hartifact, returns_bind, returns_ofExcept_ok (htext hsha256),
    returns_bind, returns_ofExcept_ok hpayload.key_eq, returns_bind,
    returns_ofExcept_ok (htext horiginal), returns_bind, returns_ofExcept_ok hpayload.name_eq,
    returns_bind, hpayload.data_eq, Option.getD_some]
  -- after the bundle there is a free name, and then nothing left to remove
  refine returns_congr (bundle_holds _) ?_
  rintro _ output₁ ⟨hbeside, _⟩
  have hunused₁ : output₁.get? artifactId = none := by
    rw [hbeside artifactId hne.symm, Dict.get?_set_ne _ _ hne.symm, hunused]
  rw [returns_bind, returns_rename hunused₁ (h _ (by simp [Mode.steps])), returns_bind,
    returns_attempt hsync, returns_pure, id]
  have hgone : ((output₁.pop (temporaryName X artifactId)).set artifactId
      (.directory (treeOf (temporaryName X artifactId) output₁))).get? (temporaryName X artifactId) =
      none := by
    rw [Dict.get?_set_ne _ _ hne, Dict.get?_pop_self]
  unfold Returns
  rw [wlp_removeTemporary_absent hgone, Dict.get?_set_self]
  constructor
  · rintro ⟨tree, htree, hP⟩
    cases htree
    exact hP
  · exact fun hP => ⟨_, rfl, hP⟩

end Runs

end UltimateBBSBox.Archive

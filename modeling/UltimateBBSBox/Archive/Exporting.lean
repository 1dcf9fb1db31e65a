import UltimateBBSBox.Archive.Export

/-!
# What an export makes, and what it leaves

An export makes its bundle in the temporary directory only: everything that runs before
the rename stays `Beside` it and, once the payload is there, keeps it (`Keeps`).  A run
that returns needs every operation of its mode (`Mode.steps`), but none of those that
look into a ZIP file: these are within a `suppress`.
-/

namespace UltimateBBSBox.Archive

open Act Faulty

/-! ## Beside the temporary directory -/

section Relations

variable {temporary : Text} {path path' : List Text} {item item' : Item} {output output' : Output}

/-- Beside the temporary directory all is as before. -/
def Beside (temporary : Text) (output output' : Output) : Prop :=
  ∀ key, key ≠ temporary → output'.get? key = output.get? key

instance (temporary : Text) : IsPreorder Output (Beside temporary) where
  refl _ _ _ := rfl
  trans _ _ _ h h' key hkey := (h' key hkey).trans (h key hkey)

/-- The temporary directory has a file. -/
def Holds (temporary : Text) (path : List Text) (item : Item) (output : Output) : Prop :=
  ∃ tree, output.get? temporary = some (.directory tree) ∧ tree.get? path = some item

/-- Beside the temporary directory all is as before, and the file at `path` is kept. -/
def Keeps (temporary : Text) (path : List Text) (output output' : Output) : Prop :=
  Beside temporary output output' ∧
    ∀ item, Holds temporary path item output → Holds temporary path item output'

instance (temporary : Text) (path : List Text) : IsPreorder Output (Keeps temporary path) where
  refl _ := ⟨fun _ _ => rfl, fun _ => id⟩
  trans _ _ _ h h' := ⟨trans_of (Beside temporary) h.1 h'.1, fun item hitem => h'.2 item (h.2 item hitem)⟩

theorem treeOf_eq {tree : Tree} (h : output.get? temporary = some (.directory tree)) :
    treeOf temporary output = tree := by
  unfold treeOf
  rw [h]

@[simp] theorem get?_put (temporary : Text) (path : List Text) (item : Item) (output : Output) :
    (put temporary path item output).get? temporary =
      some (.directory ((treeOf temporary output).set path item)) := Dict.get?_set_self ..

@[simp] theorem treeOf_put (temporary : Text) (path : List Text) (item : Item) (output : Output) :
    treeOf temporary (put temporary path item output) = (treeOf temporary output).set path item :=
  treeOf_eq (get?_put ..)

theorem beside_put (path : List Text) (item : Item) (output : Output) :
    Beside temporary output (put temporary path item output) := fun _ hkey => Dict.get?_set_ne _ _ hkey

theorem keeps_put (h : path ≠ path') (item : Item) (output : Output) :
    Keeps temporary path output (put temporary path' item output) := by
  refine ⟨beside_put path' item output, ?_⟩
  intro kept ⟨tree, htree, hkept⟩
  refine ⟨tree.set path' item, ?_, ?_⟩
  · rw [get?_put, treeOf_eq htree]
  · rw [Dict.get?_set_ne _ _ h, hkept]

theorem holds_put (path : List Text) (item : Item) (output : Output) :
    Holds temporary path item (put temporary path item output) :=
  ⟨_, get?_put .., Dict.get?_set_self ..⟩

/-- A file that is not there is kept by whatever stays beside the directory. -/
theorem keeps_of_absent (habsent : ((treeOf temporary output).get? path).isSome = false)
    (h : Beside temporary output output') : Keeps temporary path output output' := by
  refine ⟨h, ?_⟩
  intro item ⟨tree, htree, hitem⟩
  rw [treeOf_eq htree, hitem] at habsent
  cases habsent

/-- A program that first looks whether its file is there keeps every other file, and that
one as well. -/
theorem keeps_unless_seen {act : Output → Act Output Exn Unit} {e : Exn}
    (hbeside : ∀ output, Within (Beside temporary) (act output))
    (hkeeps : path ≠ path' → ∀ output, Within (Keeps temporary path) (act output)) :
    Within (Keeps temporary path) (do
      let output ← get
      if ((treeOf temporary output).get? path').isSome then throw e
      act output) := by
  by_cases hpath : path = path'
  · subst hpath
    intro output
    rw [wlp_bind, wlp_get]
    cases hseen : ((treeOf temporary output).get? path).isSome with
    | true => exact refl_of (Keeps temporary path) output
    | false =>
        refine wlp_mono (hbeside output output) ?_ ?_
        · exact fun _ _ => keeps_of_absent hseen
        · exact fun _ _ => keeps_of_absent hseen
  · exact within_bind within_get fun output => within_guard (hkeeps hpath output)

end Relations

/-! ## Writing -/

section Writing

variable {X : Exporter} {failures : Failures} {temporary : Text} {path : List Text}

theorem within_idle {R : Output → Output → Prop} [IsPreorder Output R] (answer : Option (Exn × ℕ)) :
    Within R (attempt answer (fun _ => id) id) :=
  within_attempt (fun _ => refl_of R) (refl_of R)

/-- Writing a file at a path, in full or in part. -/
theorem within_write {R : Output → Output → Prop} [IsPreorder Output R] {path : List Text}
    (hput : ∀ item output, R output (put temporary path item output))
    (answer : Option (Exn × ℕ)) (cut : ℕ → Item) (item : Item) :
    Within R (attempt answer (fun reached => put temporary path (cut reached))
      (put temporary path item)) :=
  within_attempt (fun reached => hput (cut reached)) (hput item)

theorem within_place {R : Output → Output → Prop} [IsPreorder Output R] {path : List Text}
    (hput : ∀ item output, R output (put temporary path item output))
    (answer : Option (Exn × ℕ)) (item : Item) :
    Within R (attempt answer (fun _ => id) (put temporary path item)) :=
  within_attempt (fun _ => refl_of R) (hput item)

theorem within_copyFile (path : List Text) (source : Item) :
    Within (Beside temporary) (copyFile failures temporary path source) := by
  unfold copyFile
  refine within_bind (within_ofExcept _) fun _ => ?_
  split
  · exact within_bind (within_place (beside_put path) _ _) fun _ =>
      within_write (beside_put path) _ _ _
  · exact within_bind (within_idle _) fun _ => within_place (beside_put path) _ _

/-- After `copyfile` the file is there. -/
theorem copyFile_holds (path : List Text) (source : Item) (output : Output) :
    wlp (copyFile failures temporary path source) (fun _ => Holds temporary path source)
      (fun _ _ => True) output := by
  unfold copyFile
  rw [wlp_bind, wlp_ofExcept]
  refine ⟨fun _ _ => ?_, fun _ _ => trivial⟩
  split
  · rw [wlp_bind, wlp_attempt]
    refine ⟨fun _ => ?_, fun _ _ _ => trivial⟩
    rw [wlp_attempt]
    exact ⟨fun _ => holds_put _ _ _, fun _ _ _ => trivial⟩
  · rw [wlp_bind, wlp_attempt]
    refine ⟨fun _ => ?_, fun _ _ _ => trivial⟩
    rw [wlp_attempt]
    exact ⟨fun _ => holds_put _ _ _, fun _ _ _ => trivial⟩

theorem within_atomicJson {R : Output → Output → Prop} [IsPreorder Output R] {name : Text}
    (hput : ∀ item output, R output (put temporary [name] item output)) (value : Value) :
    Within R (atomicJson X failures temporary name value) := by
  unfold atomicJson
  refine within_bind (within_ofExcept _) fun _ => within_bind (within_idle _) fun _ => ?_
  refine within_bind (within_idle _) fun _ => within_bind (within_place hput _ _) fun _ => ?_
  exact within_idle _

theorem keeps_writeText (file : TextFile) (name value : Text) :
    Within (Keeps temporary path) (writeText failures temporary file name value) := by
  unfold writeText
  refine keeps_unless_seen (fun output => ?_) fun hpath output => ?_
  · refine within_bind (within_place (beside_put _) _ _) fun _ => within_guard ?_
    exact within_bind (within_write (beside_put _) _ _ _) fun _ => within_idle _
  · refine within_bind (within_place (keeps_put hpath) _ _) fun _ => within_guard ?_
    exact within_bind (within_write (keeps_put hpath) _ _ _) fun _ => within_idle _

theorem keeps_copyMember (member : Member) :
    Within (Keeps temporary path) (copyMember failures temporary member) := by
  unfold copyMember
  refine within_bind (within_idle _) fun _ => within_bind (within_ofExcept _) fun item => ?_
  refine keeps_unless_seen (fun output => ?_) fun hpath output => ?_
  · refine within_bind (within_place (beside_put _) _ _) fun _ => within_bind (within_ofExcept _) fun _ => ?_
    exact within_bind (within_write (beside_put _) _ _ _) fun _ => within_idle _
  · refine within_bind (within_place (keeps_put hpath) _ _) fun _ =>
      within_bind (within_ofExcept _) fun _ => ?_
    exact within_bind (within_write (keeps_put hpath) _ _ _) fun _ => within_idle _

theorem keeps_inspectZip (data : Bytes) :
    Within (Keeps temporary path) (inspectZip X failures temporary data) := by
  unfold inspectZip
  refine within_tryCatch ?_ fun e => within_ite (fun _ => within_pure _) fun _ => within_throw _
  refine within_bind (within_idle _) fun _ => within_bind (within_ofExcept _) fun members => ?_
  split
  · exact keeps_copyMember _
  · exact within_pure _

end Writing

/-! ## The operations of a bundle -/

/-- Where a mode puts the payload. -/
def Mode.payloadPath (mode : Mode) (name : Text) : List Text :=
  match mode with
  | .museum => [.of "artifacts", name]
  | .publication => [name]

/-- The operations that put a bundle together, but for those that look into a ZIP file. -/
def Mode.writes : Mode → List Step
  | .museum => [.makeArtifacts, .copy .create, .copy .fill, .json .create, .json .fill, .json .place,
      .json .sync, .text .checksums .create, .text .checksums .fill, .text .checksums .sync,
      .text .rights .create, .text .rights .fill, .text .rights .sync, .text .readme .create,
      .text .readme .fill, .text .readme .sync]
  | .publication => [.copy .create, .copy .fill, .json .create, .json .fill, .json .place, .json .sync,
      .text .description .create, .text .description .fill, .text .description .sync]

/-- The operations of a run up to the rename, but for those that look into a ZIP file. -/
def Mode.steps (mode : Mode) : List Step :=
  [.resolve, .makeOutput, .lookUp, .makeTemporary] ++ mode.writes ++ [.rename]

section Bundles

variable {X : Exporter} {failures : Failures} {temporary artifactId name : Text}
  {metadata rights : Value} {source : Item} {data : Bytes} {mode : Mode}

/-- A step of a program that needs its operations. -/
abbrev NeedsSteps {α : Type} (failures : Failures) (steps : List Step) (act : Act Output Exn α) :
    Prop := Needs (fun step => failures step = none) steps act

theorem needs_copyFile (path : List Text) :
    NeedsSteps failures [.copy .create, .copy .fill] (copyFile failures temporary path source) := by
  unfold copyFile
  refine needs_after fun _ => ?_
  split
  · exact needs_bind needs_attempt fun _ => needs_attempt
  · exact needs_bind needs_attempt fun _ => needs_attempt

theorem needs_atomicJson (name : Text) (value : Value) :
    NeedsSteps failures [.json .create, .json .fill, .json .place, .json .sync]
      (atomicJson X failures temporary name value) := by
  unfold atomicJson
  exact needs_after fun _ => needs_bind needs_attempt fun _ => needs_bind needs_attempt fun _ =>
    needs_bind needs_attempt fun _ => needs_attempt

theorem needs_writeText (file : TextFile) (name value : Text) :
    NeedsSteps failures [.text file .create, .text file .fill, .text file .sync]
      (writeText failures temporary file name value) := by
  unfold writeText
  refine needs_after fun output => needs_guard ?_
  exact needs_bind needs_attempt fun _ => needs_guard <|
    needs_bind needs_attempt fun _ => needs_attempt

/-- A bundle that is put together has needed its operations. -/
theorem needs_bundle : NeedsSteps failures mode.writes
    (bundle X failures temporary metadata rights artifactId name source data mode) := by
  cases mode with
  | museum =>
      refine needs_bind needs_attempt fun _ => needs_bind (needs_copyFile _) fun _ => ?_
      refine needs_bind (needs_atomicJson _ _) fun _ => needs_after fun _ => ?_
      refine needs_bind (needs_writeText _ _ _) fun _ => needs_after fun _ => ?_
      refine needs_bind (needs_writeText _ _ _) fun _ => needs_after fun _ => ?_
      exact needs_writeText _ _ _
  | publication =>
      refine needs_bind (needs_copyFile _) fun _ => needs_bind (needs_atomicJson _ _) fun _ => ?_
      refine needs_after fun _ => ?_
      exact needs_bind (needs_writeText _ _ _) fun _ => needs_nil _

/-- A copy is there after what keeps it. -/
theorem copyFile_then {path : List Text} {rest : Act Output Exn Unit}
    (hrest : Within (Keeps temporary path) rest) (output : Output) :
    wlp (copyFile failures temporary path source >>= fun _ => rest)
      (fun _ output' => Beside temporary output output' ∧ Holds temporary path source output')
      (fun _ output' => Beside temporary output output') output := by
  rw [wlp_bind]
  refine wlp_mono (wlp_and (within_copyFile path source output) (copyFile_holds path source output))
    ?_ fun _ _ h => h.1
  intro _ output₁ ⟨hbeside, hholds⟩
  refine wlp_mono (hrest output₁) ?_ ?_
  · intro _ output₂ hkeeps
    exact ⟨trans_of (Beside temporary) hbeside hkeeps.1, hkeeps.2 source hholds⟩
  · intro _ output₂ hkeeps
    exact trans_of (Beside temporary) hbeside hkeeps.1

/-- A bundle is put together beside everything else, and holds its payload in the end. -/
theorem bundle_holds (output : Output) :
    wlp (bundle X failures temporary metadata rights artifactId name source data mode)
      (fun _ output' => Beside temporary output output' ∧
        Holds temporary (mode.payloadPath name) source output')
      (fun _ output' => Beside temporary output output') output := by
  cases mode with
  | museum =>
      have hne : ∀ other : Text, [Text.of "artifacts", name] ≠ [other] := by
        intro other h
        cases h
      unfold bundle museumBundle
      rw [wlp_bind, wlp_attempt]
      refine ⟨fun _ => copyFile_then ?_ _, fun _ _ _ => refl_of (Beside temporary) output⟩
      refine within_bind (within_atomicJson (keeps_put (hne _)) _) fun _ => ?_
      refine within_bind (within_ofExcept _) fun _ => within_bind (keeps_writeText _ _ _) fun _ => ?_
      refine within_bind (within_ofExcept _) fun _ => within_bind (keeps_writeText _ _ _) fun _ => ?_
      exact within_bind (within_ofExcept _) fun _ => keeps_writeText _ _ _
  | publication =>
      have hne : [name] ≠ [name ++ Text.of ".json"] := by
        simp [Text.of]
      unfold bundle publicationBundle
      refine copyFile_then ?_ _
      refine within_bind (within_atomicJson (keeps_put hne) _) fun _ => ?_
      refine within_bind (within_ofExcept _) fun _ => within_bind (keeps_writeText _ _ _) fun _ => ?_
      exact keeps_inspectZip _

end Bundles

/-! ## The permissions of metadata that verify -/

section Permissions

variable {E : Environment} {disk : Disk} {artifactId : Text} {metadata rights : Value} {mode : Mode}
  {redistribution : Bool}

theorem validateMetadata_ok_iff : validateMetadata metadata = .ok () ↔ checkMetadata metadata = .ok () := by
  unfold validateMetadata
  split
  all_goals simp_all

/-- Metadata that verify are those of the file, and valid; the id is one. -/
theorem loaded_of_verifyOne (h : verifyOne E disk artifactId = .ok metadata) :
    isId artifactId = true ∧ disk.metadata.get? artifactId = some (.document metadata) ∧
      checkMetadata metadata = .ok () := by
  unfold verifyOne at h
  obtain ⟨loaded, hload, h⟩ := Except.bind_eq_ok.mp h
  have hmetadata : loaded = metadata := by
    obtain ⟨artifact, -, h⟩ := Except.bind_eq_ok.mp h
    obtain ⟨sha256, -, h⟩ := Except.bind_eq_ok.mp h
    obtain ⟨text, -, h⟩ := Except.bind_eq_ok.mp h
    obtain ⟨key, -, h⟩ := Except.bind_eq_ok.mp h
    split at h
    · cases h
    · obtain ⟨size, -, h⟩ := Except.bind_eq_ok.mp h
      obtain ⟨-, h⟩ := Except.guard_eq_ok.mp h
      exact Except.pure_eq_ok.mp h
  subst hmetadata
  unfold loadMetadata at hload
  obtain ⟨hvalidId, hload⟩ := Except.check_bind_eq_ok.mp hload
  have hid := isId_of_validateId hvalidId
  split at hload
  · cases hload
  · cases hload
  · cases hload
  · cases hload
  · rename_i value hfile
    obtain ⟨hvalid, hload⟩ := Except.check_bind_eq_ok.mp hload
    obtain rfl := Except.pure_eq_ok.mp hload
    exact ⟨hid, hfile, validateMetadata_ok_iff.mp hvalid⟩

theorem isBool_of_checkPermissions {keys : List String} (h : checkPermissions rights keys = .ok ()) :
    ∀ key ∈ keys, ∃ value, rights.item key = .ok (.bool value) := by
  induction keys with
  | nil => simp
  | cons key rest ih =>
      unfold checkPermissions at h
      obtain ⟨permission, hpermission, h⟩ := Except.bind_eq_ok.mp h
      obtain ⟨hbool, h⟩ := guard_valueError h
      intro key' hkey'
      rcases List.mem_cons.mp hkey' with rfl | hmem
      · cases permission with
        | bool value => exact ⟨value, hpermission⟩
        | null => exact absurd rfl hbool
        | number _ => exact absurd rfl hbool
        | text _ => exact absurd rfl hbool
        | array _ => exact absurd rfl hbool
        | object _ => exact absurd rfl hbool
      · exact ih h key' hmem

/-- A permission of the metadata is granted. -/
def Granted (metadata : Value) (key : String) : Prop :=
  (metadata.item "rights" >>= fun rights => rights.item key) = .ok (.bool true)

/-- The permissions that an export needs. -/
def Permitted (metadata : Value) (mode : Mode) (redistribution : Bool) : Prop :=
  Granted metadata mode.permission ∧ (redistribution = true → Granted metadata "redistribute_original")

/-- Of valid metadata, a permission that is true is granted. -/
theorem granted_of_truthy (hvalid : checkMetadata metadata = .ok ())
    (hrights : metadata.item "rights" = .ok rights) {key : String} (hkey : key ∈ rightsKeys)
    {permission : Value} (hitem : rights.item key = .ok permission) (htruthy : permission.truthy = true) :
    Granted metadata key := by
  obtain ⟨-, -, rights', -, -, -, ⟨hrights', hcheck⟩, -⟩ := parts_of_checkMetadata hvalid
  obtain rfl : rights = rights' := Except.ok.inj (hrights.symm.trans hrights')
  unfold checkRights at hcheck
  obtain ⟨status, -, hcheck⟩ := Except.bind_eq_ok.mp hcheck
  obtain ⟨-, hcheck⟩ := guard_valueError hcheck
  obtain ⟨value, hvalue⟩ := isBool_of_checkPermissions hcheck key hkey
  obtain rfl : permission = .bool value := Except.ok.inj (hitem.symm.trans hvalue)
  unfold Granted
  rw [hrights]
  calc rights.item key = .ok (.bool value) := hvalue
    _ = .ok (.bool true) := by rw [show value = true from htruthy]

/-- The gate of the rights is passed by what they permit. -/
theorem permitted_of_permit (hvalid : checkMetadata metadata = .ok ())
    (hrights : metadata.item "rights" = .ok rights)
    (h : permit mode redistribution rights = .ok ()) : Permitted metadata mode redistribution := by
  unfold permit at h
  obtain ⟨permission, hpermission, h⟩ := Except.bind_eq_ok.mp h
  obtain ⟨htruthy, h⟩ := Except.guard_eq_ok.mp h
  refine ⟨?_, ?_⟩
  · refine granted_of_truthy hvalid hrights ?_ hpermission (by simpa using htruthy)
    cases mode <;> decide
  · intro hredistribution
    rw [if_pos hredistribution] at h
    obtain ⟨permission, hpermission, h⟩ := Except.bind_eq_ok.mp h
    obtain ⟨htruthy, -⟩ := Except.guard_eq_ok.mp h
    exact granted_of_truthy hvalid hrights (by decide) hpermission (by simpa using htruthy)

end Permissions

/-! ## A run -/

section Run

variable {X : Exporter} {failures : Failures} {disk : Disk} {artifactId temporary : Text}
  {metadata rights : Value} {mode : Mode} {redistribution : Bool} {output output' : Output}

theorem isDigest_of_objectPath {sha256 key : Text} (h : objectPath sha256 = .ok key) :
    isDigest .sha256 sha256 = true := by
  unfold objectPath at h
  by_contra hnot
  rw [if_neg hnot] at h
  cases h

/-- The payload of an artifact: its digest, what is stored under it, and its name. -/
structure Payload (disk : Disk) (metadata : Value) (sha256 key : Text) (data : Bytes)
    (original name : Text) : Prop where
  sha256_eq : (metadata.item "artifact" >>= fun artifact => artifact.item "sha256") =
    .ok (.text sha256)
  key_eq : objectPath sha256 = .ok key
  data_eq : disk.objects.get? key = some data
  original_eq : (metadata.item "artifact" >>= fun artifact => artifact.item "original_filename") =
    .ok (.text original)
  name_eq : safeFilename original = .ok name

/-- The payload in a bundle: what the archive has under the digest, below the name that is
made of the original one.  A symbolic link is copied as one. -/
def HasPayload (X : Exporter) (disk : Disk) (metadata : Value) (mode : Mode) (tree : Tree) : Prop :=
  ∃ sha256 key data original name, Payload disk metadata sha256 key data original name ∧
    tree.get? (mode.payloadPath name) = some (payload X key data)

/-- What a whole run comes to: a directory where there was nothing, with the payload, and nothing
else. -/
structure Bundled (X : Exporter) (disk : Disk) (artifactId : Text) (metadata : Value) (mode : Mode)
    (output output' : Output) : Prop where
  unused : output.get? artifactId = none
  others : ∀ key, key ≠ artifactId → output'.get? key = output.get? key
  bundle : ∃ tree, output'.get? artifactId = some (.directory tree) ∧
    HasPayload X disk metadata mode tree

theorem item_of_toText {value : Value} {key : String} {text : Text}
    (h : (value.item key >>= Value.toText) = .ok text) : value.item key = .ok (.text text) := by
  obtain ⟨field, hfield, htext⟩ := Except.bind_eq_ok.mp h
  rw [hfield, eq_text_of_toText htext]

/-- Metadata that verify have an object. -/
theorem exists_object_of_verifyOne {E : Environment} (h : verifyOne E disk artifactId = .ok metadata) :
    ∀ sha256 key, (metadata.item "artifact" >>= fun artifact => artifact.item "sha256") =
      .ok (.text sha256) → objectPath sha256 = .ok key →
      ∃ data, disk.objects.get? key = some data ∧ E.hashes.digest .sha256 data = sha256 := by
  intro sha256 key hsha256 hkey
  unfold verifyOne at h
  obtain ⟨loaded, hload, h⟩ := Except.bind_eq_ok.mp h
  obtain ⟨artifact, hartifact, h⟩ := Except.bind_eq_ok.mp h
  obtain ⟨value, hvalue, h⟩ := Except.bind_eq_ok.mp h
  obtain ⟨text, htext, h⟩ := Except.bind_eq_ok.mp h
  obtain ⟨key', hkey', h⟩ := Except.bind_eq_ok.mp h
  split at h
  · cases h
  · rename_i data hdata
    obtain ⟨size, -, h⟩ := Except.bind_eq_ok.mp h
    obtain ⟨hmatch, h⟩ := Except.guard_eq_ok.mp h
    obtain rfl := Except.pure_eq_ok.mp h
    rw [hartifact] at hsha256
    obtain rfl : value = .text sha256 := Except.ok.inj (hvalue.symm.trans hsha256)
    obtain rfl : sha256 = text := Except.ok.inj htext
    obtain rfl : key' = key := Except.ok.inj (hkey'.symm.trans hkey)
    exact ⟨data, hdata, not_not.mp fun hne => hmatch (.inl hne)⟩

/-- The rename moves the directory, where nothing is in its way. -/
theorem wlp_rename {Q : Unit → Output → Prop} {Y : Exn → Output → Prop}
    (hdone : output.get? artifactId = none → failures .rename = none →
      Q () ((output.pop temporary).set artifactId (.directory (treeOf temporary output))))
    (hfail : ∀ e, Y e output) : wlp (rename failures temporary artifactId) Q Y output := by
  unfold rename
  rw [wlp_bind, wlp_get]
  cases hentry : output.get? artifactId with
  | some entry =>
      rw [Option.isSome_some, if_pos rfl, wlp_bind]
      exact hfail _
  | none =>
      rw [Option.isSome_none, if_neg Bool.false_ne_true, wlp_attempt]
      exact ⟨fun h => hdone hentry h, fun e _ _ => hfail e⟩

/-- A temporary directory is removed, or its removal fails. -/
theorem wlp_removeTemporary {Q : Unit → Output → Prop} {Y : Exn → Output → Prop}
    (hdone : ∀ output', Beside temporary output output' → output'.get? temporary = none → Q () output')
    (hfail : ∀ e output', Beside temporary output output' → failures .removal ≠ none → Y e output') :
    wlp (removeTemporary failures temporary) Q Y output := by
  unfold removeTemporary
  rw [wlp_bind, wlp_get, wlp_whenever]
  refine ⟨fun _ => ?_, fun habsent => ?_⟩
  · rw [wlp_attempt]
    refine ⟨fun _ => hdone _ ?_ (Dict.get?_pop_self ..), ?_⟩
    · exact fun key hkey => Dict.get?_pop_ne _ hkey
    · intro e reached hremoval
      refine hfail e _ (fun key hkey => Dict.get?_set_ne _ _ hkey) ?_
      rw [hremoval]
      exact Option.some_ne_none _
  · exact hdone output (refl_of (Beside temporary) output) (Option.not_isSome_iff_eq_none.mp habsent)

theorem wlp_removeTemporary_absent {Q : Unit → Output → Prop} {Y : Exn → Output → Prop}
    (h : output.get? temporary = none) :
    wlp (removeTemporary failures temporary) Q Y output ↔ Q () output := by
  unfold removeTemporary
  rw [wlp_bind, wlp_get, wlp_whenever, h]
  simp

/-- All operations up to the rename have taken effect. -/
abbrev Unfailing (failures : Failures) (mode : Mode) : Prop :=
  ∀ step ∈ mode.steps, failures step = none

/-- The body of the `try`, started in an empty temporary directory: it returns a bundle, or
raises; it raises after the rename only if the synchronization of the output directory fails. -/
theorem wlp_assemble (hverified : verifyOne X.toEnvironment disk artifactId = .ok metadata)
    (hne : temporary ≠ artifactId) (hfresh : output.get? temporary = none)
    (hearly : ∀ step ∈ [Step.resolve, .makeOutput, .lookUp, .makeTemporary], failures step = none) :
    wlp (assemble X failures disk metadata rights artifactId temporary mode)
      (fun _ output' => Unfailing failures mode ∧ Bundled X disk artifactId metadata mode output output')
      (fun e output' => Beside temporary output output' ∨
        (∃ reached, failures .syncOutput = some (e, reached)) ∧
          Unfailing failures mode ∧ Bundled X disk artifactId metadata mode output output')
      (output.set temporary (.directory ∅)) := by
  have hstart : Beside temporary output (output.set temporary (.directory ∅)) :=
    fun key hkey => Dict.get?_set_ne _ _ hkey
  unfold assemble
  rw [wlp_bind, wlp_ofExcept]
  refine ⟨fun artifact hartifact => ?_, fun _ _ => .inl hstart⟩
  rw [wlp_bind, wlp_ofExcept]
  refine ⟨fun sha256 hsha256 => ?_, fun _ _ => .inl hstart⟩
  rw [wlp_bind, wlp_ofExcept]
  refine ⟨fun key hkey => ?_, fun _ _ => .inl hstart⟩
  rw [wlp_bind, wlp_ofExcept]
  refine ⟨fun original horiginal => ?_, fun _ _ => .inl hstart⟩
  rw [wlp_bind, wlp_ofExcept]
  refine ⟨fun name hname => ?_, fun _ _ => .inl hstart⟩
  rw [wlp_bind]
  refine wlp_mono (wlp_and (bundle_holds _) (needs_bundle _)) ?_ ?_
  · intro _ output₁ ⟨⟨hbeside, tree, htree, hpayload⟩, hwrites⟩
    have hbeside₁ := trans_of (Beside temporary) hstart hbeside
    -- the rename decides: before it nothing beside the temporary directory is touched
    rw [wlp_bind]
    refine wlp_rename ?_ fun _ => .inl hbeside₁
    intro hunused hrename
    have hunfailing : Unfailing failures mode := by
      intro step hstep
      rw [Mode.steps, List.mem_append, List.mem_append, List.mem_singleton] at hstep
      rcases hstep with (hstep | hstep) | rfl
      · exact hearly step hstep
      · exact hwrites step hstep
      · exact hrename
    have hsha256' : (metadata.item "artifact" >>= fun artifact => artifact.item "sha256") =
        .ok (.text sha256) := by
      rw [hartifact]
      exact item_of_toText hsha256
    have horiginal' : (metadata.item "artifact" >>= fun artifact => artifact.item "original_filename") =
        .ok (.text original) := by
      rw [hartifact]
      exact item_of_toText horiginal
    obtain ⟨data, hdata, -⟩ := exists_object_of_verifyOne hverified sha256 key hsha256' hkey
    have hbundled : Bundled X disk artifactId metadata mode output
        ((output₁.pop temporary).set artifactId (.directory (treeOf temporary output₁))) := by
      refine ⟨?_, ?_, ?_⟩
      · rw [← hbeside₁ artifactId hne.symm]
        exact hunused
      · intro key' hkey'
        rw [Dict.get?_set_ne _ _ hkey']
        by_cases htemporary : key' = temporary
        · rw [htemporary, Dict.get?_pop_self, hfresh]
        · rw [Dict.get?_pop_ne _ htemporary, hbeside₁ key' htemporary]
      · refine ⟨tree, ?_, sha256, key, data, original, name,
          ⟨hsha256', hkey, hdata, horiginal', hname⟩, ?_⟩
        · rw [Dict.get?_set_self, treeOf_eq htree]
        · rw [hpayload, hdata, Option.getD_some]
    rw [wlp_bind, wlp_attempt]
    refine ⟨fun _ => ⟨hunfailing, hbundled⟩, ?_⟩
    intro e reached hsync
    exact .inr ⟨⟨reached, hsync⟩, hunfailing, hbundled⟩
  · intro e output₁ ⟨hbeside, _⟩
    exact .inl (trans_of (Beside temporary) hstart hbeside)

theorem temporaryName_ne (X : Exporter) (artifactId : Text) : temporaryName X artifactId ≠ artifactId := by
  intro h
  have hlength := congrArg List.length h
  simp [temporaryName, Text.of] at hlength
  omega

/-- A run that returns has made its bundle.  One that raises has changed nothing beside the
temporary directory, and nothing at all if that could be removed, unless it raised after the
rename. -/
theorem wlp_buildExport (output : Output) :
    wlp (buildExport X failures disk artifactId mode redistribution)
      (fun _ output' => Unfailing failures mode ∧ ∃ metadata,
        verifyOne X.toEnvironment disk artifactId = .ok metadata ∧
          Permitted metadata mode redistribution ∧
          Bundled X disk artifactId metadata mode output output')
      (fun e output' =>
        (Beside (temporaryName X artifactId) output output' ∧
          (failures .removal = none → ∀ key, output'.get? key = output.get? key)) ∨
        (∃ reached, failures .syncOutput = some (e, reached)) ∧ Unfailing failures mode ∧ ∃ metadata,
          verifyOne X.toEnvironment disk artifactId = .ok metadata ∧
            Permitted metadata mode redistribution ∧
            Bundled X disk artifactId metadata mode output output')
      output := by
  have hnothing : (Beside (temporaryName X artifactId) output output ∧
      (failures .removal = none → ∀ key, output.get? key = output.get? key)) :=
    ⟨refl_of (Beside _) output, fun _ _ => rfl⟩
  unfold buildExport
  rw [wlp_bind, wlp_ofExcept]
  refine ⟨fun metadata hverified => ?_, fun _ _ => .inl hnothing⟩
  obtain ⟨-, -, hvalid⟩ := loaded_of_verifyOne hverified
  rw [wlp_bind, wlp_ofExcept]
  refine ⟨fun rights hrights => ?_, fun _ _ => .inl hnothing⟩
  rw [wlp_bind, wlp_ofExcept]
  refine ⟨fun _ hpermit => ?_, fun _ _ => .inl hnothing⟩
  have hpermitted := permitted_of_permit hvalid hrights hpermit
  rw [wlp_bind, wlp_attempt_id]
  refine ⟨fun hresolve => ?_, fun _ _ _ => .inl hnothing⟩
  rw [wlp_bind, wlp_attempt_id]
  refine ⟨fun hmake => ?_, fun _ _ _ => .inl hnothing⟩
  rw [wlp_bind, wlp_attempt_id]
  refine ⟨fun hlook => ?_, fun _ _ _ => .inl hnothing⟩
  rw [wlp_bind, wlp_get, wlp_ite]
  refine ⟨fun _ => .inl hnothing, fun _ => ?_⟩
  rw [wlp_bind, wlp_ofExcept]
  refine ⟨fun _ _ => ?_, fun _ _ => .inl hnothing⟩
  rw [wlp_ite]
  refine ⟨fun _ => .inl hnothing, fun hfree => ?_⟩
  have hfresh : output.get? (temporaryName X artifactId) = none := by
    simpa using hfree
  rw [wlp_bind, wlp_attempt]
  refine ⟨fun htemporary => ?_, fun _ _ _ => .inl hnothing⟩
  -- from here on there is a temporary directory to remove
  have hearly : ∀ step ∈ [Step.resolve, .makeOutput, .lookUp, .makeTemporary],
      failures step = none := by
    simp [hresolve, hmake, hlook, htemporary]
  rw [wlp_andFinally]
  refine wlp_mono (wlp_assemble hverified (temporaryName_ne X artifactId) hfresh hearly) ?_ ?_
  · rintro _ output₁ ⟨hunfailing, hbundled⟩
    have hgone : output₁.get? (temporaryName X artifactId) = none := by
      rw [hbundled.others _ (temporaryName_ne X artifactId), hfresh]
    rw [wlp_removeTemporary_absent hgone]
    exact ⟨hunfailing, metadata, hverified, hpermitted, hbundled⟩
  · intro e output₁ h
    rcases h with hbeside | ⟨hsync, hunfailing, hbundled⟩
    · refine wlp_removeTemporary ?_ ?_
      · intro output₂ hbeside₂ hgone
        have hbeside' := trans_of (Beside _) hbeside hbeside₂
        refine .inl ⟨hbeside', fun _ key => ?_⟩
        by_cases hkey : key = temporaryName X artifactId
        · rw [hkey, hgone, hfresh]
        · exact hbeside' key hkey
      · intro e' output₂ hbeside₂ hremoval
        exact .inl ⟨trans_of (Beside _) hbeside hbeside₂, fun h => absurd h hremoval⟩
    · have hgone : output₁.get? (temporaryName X artifactId) = none := by
        rw [hbundled.others _ (temporaryName_ne X artifactId), hfresh]
      rw [wlp_removeTemporary_absent hgone]
      exact .inr ⟨hsync, hunfailing, metadata, hverified, hpermitted, hbundled⟩

/-! ## Coming back -/

theorem total_copyFile (path : List Text) (source : Item) :
    Total (copyFile failures temporary path source) := by
  unfold copyFile
  refine total_bind (total_ofExcept _) fun _ => ?_
  split
  · exact total_bind (total_attempt _ _ _) fun _ => total_attempt _ _ _
  · exact total_bind (total_attempt _ _ _) fun _ => total_attempt _ _ _

theorem total_atomicJson (name : Text) (value : Value) :
    Total (atomicJson X failures temporary name value) := by
  unfold atomicJson
  refine total_bind (total_ofExcept _) fun _ => total_bind (total_attempt _ _ _) fun _ => ?_
  refine total_bind (total_attempt _ _ _) fun _ => total_bind (total_attempt _ _ _) fun _ => ?_
  exact total_attempt _ _ _

theorem total_writeText (file : TextFile) (name value : Text) :
    Total (writeText failures temporary file name value) := by
  unfold writeText
  refine total_bind total_get fun _ => total_guard ?_
  refine total_bind (total_attempt _ _ _) fun _ => total_guard ?_
  exact total_bind (total_attempt _ _ _) fun _ => total_attempt _ _ _

theorem total_inspectZip (data : Bytes) : Total (inspectZip X failures temporary data) := by
  unfold inspectZip
  refine total_tryCatch ?_ fun e => total_ite (fun _ => total_pure _) fun _ => total_throw _
  refine total_bind (total_attempt _ _ _) fun _ => total_bind (total_ofExcept _) fun members => ?_
  split
  · unfold copyMember
    refine total_bind (total_attempt _ _ _) fun _ => total_bind (total_ofExcept _) fun _ => ?_
    refine total_bind total_get fun _ => total_guard ?_
    refine total_bind (total_attempt _ _ _) fun _ => total_bind (total_ofExcept _) fun _ => ?_
    exact total_bind (total_attempt _ _ _) fun _ => total_attempt _ _ _
  · exact total_pure _

theorem total_bundle {artifactId name : Text} {source : Item} {data : Bytes} :
    Total (bundle X failures temporary metadata rights artifactId name source data mode) := by
  cases mode with
  | museum =>
      unfold bundle museumBundle
      refine total_bind (total_attempt _ _ _) fun _ => total_bind (total_copyFile _ _) fun _ => ?_
      refine total_bind (total_atomicJson _ _) fun _ => total_bind (total_ofExcept _) fun _ => ?_
      refine total_bind (total_writeText _ _ _) fun _ => total_bind (total_ofExcept _) fun _ => ?_
      refine total_bind (total_writeText _ _ _) fun _ => total_bind (total_ofExcept _) fun _ => ?_
      exact total_writeText _ _ _
  | publication =>
      unfold bundle publicationBundle
      refine total_bind (total_copyFile _ _) fun _ => total_bind (total_atomicJson _ _) fun _ => ?_
      refine total_bind (total_ofExcept _) fun _ => total_bind (total_writeText _ _ _) fun _ => ?_
      exact total_inspectZip _

theorem total_removeTemporary : Total (removeTemporary failures temporary) :=
  total_bind total_get fun _ => total_whenever fun _ => total_attempt _ _ _

theorem total_buildExport : Total (buildExport X failures disk artifactId mode redistribution) := by
  unfold buildExport
  refine total_bind (total_ofExcept _) fun metadata => total_bind (total_ofExcept _) fun rights => ?_
  refine total_bind (total_ofExcept _) fun _ => total_bind (total_attempt _ _ _) fun _ => ?_
  refine total_bind (total_attempt _ _ _) fun _ => total_bind (total_attempt _ _ _) fun _ => ?_
  refine total_bind total_get fun output => total_guard ?_
  refine total_bind (total_ofExcept _) fun _ => total_guard ?_
  refine total_bind (total_attempt _ _ _) fun _ => total_andFinally ?_ total_removeTemporary
  unfold assemble
  refine total_bind (total_ofExcept _) fun _ => total_bind (total_ofExcept _) fun _ => ?_
  refine total_bind (total_ofExcept _) fun _ => total_bind (total_ofExcept _) fun _ => ?_
  refine total_bind (total_ofExcept _) fun _ => total_bind total_bundle fun _ => ?_
  refine total_bind (total_bind total_get fun _ => total_guard (total_attempt _ _ _)) fun _ => ?_
  exact total_bind (total_attempt _ _ _) fun _ => total_pure _

end Run

end UltimateBBSBox.Archive

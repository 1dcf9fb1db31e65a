import UltimateBBSBox.Integrations.LiveState

/-!
# A restore that is refused

`restore_live_state` checks an entry and copies it before it looks at the next one.  A restore
that is refused at some entry has therefore copied those in front of it, and leaves the target
as it was only if these were in the target already.  It does not look where a directory of the
target leads: past a link it writes outside the target (`restoreIsSafe_iff`).
-/

namespace UltimateBBSBox.Integrations.Hardening

open Act FileSystem
open Archive (Value)

/-! ## Statement -/

/-- The restore is refused: for an unsafe path, a missing file or a digest. -/
def Refusal : Exn → Prop
  | .live .manifestMissing | .live (.unsafePath _) | .live (.checksumFailed _) => True
  | _ => False

/-- What is at a place, if it is no directory. -/
def fileAt (fs : Disk) (place : Path) : Option (Node Text File) :=
  match fs.node place with
  | some .directory => none
  | node => node

/-- The target has the same files, and the same links. -/
def Untouched (fs fs' : Disk) (targetRoot : Path) : Prop :=
  ∀ path, fileAt fs' (targetRoot ++ path) = fileAt fs (targetRoot ++ path)

section Statement

variable (E : Environment) (backupRoot targetRoot : Path) (src dest : Path → Path) (fs : Disk)

/-- What is written is in the target and has the digest of an entry, and at the path of each
entry is a file with its digest. -/
def Restored (fs' : Disk) (items : List Value) : Prop :=
  (∀ place, fileAt fs' place ≠ fileAt fs place → targetRoot <+: place ∧
    ∃ item ∈ items, ∃ move, Fits E item move ∧ fs'.node place = some (.file move.file)) ∧
    ∀ item ∈ items, ∃ move, Fits E item move ∧
      fs'.stat (named (targetRoot ++ move.relative)) = some (.file move.file)

/-- A restore that is refused touches nothing, and one that returns has restored. -/
def RestoreIsSafe (verifiedArtifact : Bool) : Prop :=
  ∀ result fs', (restoreLiveState E backupRoot targetRoot verifiedArtifact).run fs = some (result, fs') →
    match result with
    | .error e => Refusal e → Untouched fs fs' targetRoot
    | .ok _ => ∀ manifest items, manifestItems fs backupRoot = .ok (manifest, items) →
        Restored E targetRoot fs fs' items

/-- The entry has an unsafe path, no file, or the digest of another file. -/
def Refused (item : Value) : Prop := ∃ e, checkEntry E fs backupRoot item = .error e ∧ Refusal e

/-- The entry is in order, and where it leads nothing is in its way. -/
def Copies (item : Value) : Prop :=
  ∃ move, Fits E item move ∧ fs.node (src move.relative) = some (.file move.file) ∧
    fs.Open (dest move.relative)

/-- The entry leads into the target. -/
def Inside (item : Value) : Prop :=
  ∀ text relative, safePath item = .ok (text, relative) → targetRoot <+: dest relative

/-- The entry is in order, and the target has the file already. -/
def InPlace (item : Value) : Prop :=
  ∃ text relative file, checkEntry E fs backupRoot item = .ok (text, relative) ∧
    fs.stat (named (backupRoot ++ relative)) = some (.file file) ∧
    fs.isSymlink (named (backupRoot ++ relative)) = false ∧
    fs.stat (named (targetRoot ++ relative)) = some (.file file) ∧
    fs.sameFile (named (backupRoot ++ relative)) (named (targetRoot ++ relative)) = false

/-- Where all entries in front of one that is refused are copied, those that lead into the target
are in place. -/
def SettledBefore (items : List Value) : Prop :=
  ∀ front item rest, items = front ++ item :: rest → Refused E backupRoot fs item →
    (∀ x ∈ front, Copies E src dest fs x) →
      ∀ x ∈ front, Inside targetRoot dest x → InPlace E backupRoot targetRoot fs x

/-- Where all entries are copied, those that lead out of the target are in place. -/
def SettledOutside (items : List Value) : Prop :=
  (∀ x ∈ items, Copies E src dest fs x) →
    ∀ x ∈ items, Inside targetRoot dest x ∨ InPlace E backupRoot targetRoot fs x

/-- All entries are in place, up to one whose check raises. -/
def SettledUpTo (items : List Value) : Prop :=
  ∃ front rest, items = front ++ rest ∧ (∀ x ∈ front, InPlace E backupRoot targetRoot fs x) ∧
    ∀ item ∈ rest.head?, ∃ e, checkEntry E fs backupRoot item = .error e

/-- What holds of the entries of the manifest, where there are any to restore. -/
def ForItems (verifiedArtifact : Bool) (P : List Value → Prop) : Prop :=
  verifiedArtifact = true →
    ∀ manifest items, manifestItems fs backupRoot = .ok (manifest, items) → P items

/-- The paths of the entries, as far as they are safe. -/
def relatives (items : List Value) : List Path :=
  items.filterMap fun item => (safePath item).toOption.map Prod.snd

/-- The path of each entry leads somewhere from below both roots, and the entries do not get in
each other's way. -/
structure Ways (items : List Value) : Prop where
  leads : ∀ relative ∈ relatives items, Leads fs backupRoot targetRoot src dest relative
  apart : ∀ relative ∈ relatives items, ∀ other ∈ relatives items, ¬ src relative <+: dest other
  beside : ∀ relative ∈ relatives items, ∀ other ∈ relatives items, ∀ file file',
    fs.node (src relative) = some (.file file) → fs.node (src other) = some (.file file') →
      dest relative <+: dest other → relative = other

/-- No entry meets a link below the roots, and neither root is in the other. -/
structure Unlinked (items : List Value) : Prop where
  backup : ∀ relative ∈ relatives items, fs.Clear (backupRoot ++ relative)
  target : ∀ relative ∈ relatives items, fs.Clear (targetRoot ++ relative)
  outside : ¬ backupRoot <+: targetRoot
  outside' : ¬ targetRoot <+: backupRoot

end Statement

variable {E : Environment} {backupRoot targetRoot : Path} {src dest : Path → Path} {fs : Disk}
  {items : List Value}

/-! ## Up to the loop -/

theorem run_restoreLiveState_error {e : Exn} (h : manifestItems fs backupRoot = .error e) :
    (restoreLiveState E backupRoot targetRoot true).run fs = some (.error e, fs) := by
  unfold restoreLiveState
  rw [if_neg (by decide), run_bind, run_get]
  simp only [h, Act.ofExcept, run_bind (throw _), run_throw]

theorem total_restoreFiles (items : List Value) : Total (restoreFiles E backupRoot targetRoot items) := by
  induction items with
  | nil => exact total_pure _
  | cons item rest ih =>
      refine total_bind total_get fun fs => total_bind (total_ofExcept _) fun checked => ?_
      refine total_bind (total_mapError (total_makeDirectories _ _)) fun _ => ?_
      exact total_bind (total_mapError (total_copyFile _ _)) fun _ => total_bind ih fun _ => total_pure _

theorem total_restoreLiveState (verifiedArtifact : Bool) :
    Total (restoreLiveState E backupRoot targetRoot verifiedArtifact) := by
  refine total_ite (fun _ => total_throw _) fun _ => total_bind total_get fun fs => ?_
  refine total_bind (total_ofExcept _) fun read => total_bind (total_restoreFiles _) fun restored => ?_
  exact total_bind (total_ofExcept _) fun _ => total_bind (total_ofExcept _) fun _ => total_pure _

/-- A manifest with entries has fields. -/
theorem exists_get {manifest : Value} (h : manifestItems fs backupRoot = .ok (manifest, items))
    (key : String) (default : Value) : ∃ value, manifest.get key default = .ok value := by
  unfold manifestItems at h
  split at h
  · rename_i file hstat
    cases hload : loadJson file with
    | error e =>
        rw [hload] at h
        cases h
    | ok loaded =>
        cases hfiles : loaded.get "files" (.array []) with
        | error e =>
            simp only [hload, hfiles, Except.mapError, bind, Except.bind] at h
            cases h
        | ok files =>
            cases hitems : files.elements with
            | error e =>
                simp only [hload, hfiles, hitems, Except.mapError, bind, Except.bind] at h
                cases h
            | ok items' =>
                simp only [hload, hfiles, hitems, Except.mapError, bind, Except.bind] at h
                obtain ⟨rfl, -⟩ := Prod.mk.inj (Except.ok.inj h)
                cases loaded with
                | object fields => exact ⟨_, rfl⟩
                | _ => cases hfiles
  · cases h

/-- What follows the loop changes nothing and raises nothing. -/
theorem exists_run_restoreFiles {manifest : Value} (h : manifestItems fs backupRoot = .ok (manifest, items))
    {result : Except Exn Value} {fs' : Disk}
    (hrun : (restoreLiveState E backupRoot targetRoot true).run fs = some (result, fs')) :
    ∃ result', (restoreFiles E backupRoot targetRoot items).run fs = some (result', fs') ∧
      (∀ e, result' = .error e → result = .error e) ∧
      ∀ restored, result' = .ok restored → ∃ value, result = .ok value := by
  obtain ⟨integration, hintegration⟩ := exists_get h "integration" .null
  obtain ⟨release, hrelease⟩ := exists_get h "release" .null
  unfold restoreLiveState at hrun
  rw [if_neg (by decide), run_bind, run_get] at hrun
  simp only [h, Act.ofExcept, run_bind (pure _), run_pure] at hrun
  rw [run_bind] at hrun
  cases hloop : (restoreFiles E backupRoot targetRoot items).run fs with
  | none =>
      rw [hloop] at hrun
      cases hrun
  | some loop =>
      obtain ⟨result', fs''⟩ := loop
      rw [hloop] at hrun
      cases result' with
      | error e =>
          obtain ⟨rfl, rfl⟩ := Prod.mk.inj (Option.some.inj hrun)
          exact ⟨_, rfl, fun _ h => by cases h; rfl, fun _ h => by cases h⟩
      | ok restored =>
          simp only [hintegration, hrelease, onValue, Except.mapError, Act.ofExcept,
            run_bind (pure _), run_pure] at hrun
          obtain ⟨rfl, rfl⟩ := Prod.mk.inj (Option.some.inj hrun)
          exact ⟨_, rfl, fun _ h => (by cases h), fun _ _ => ⟨_, rfl⟩⟩

/-- An entry that passes its check names a file with its digest. -/
theorem exists_fits_of_checkEntry {item : Value} {text : Text} {relative : Path}
    (h : checkEntry E fs backupRoot item = .ok (text, relative)) :
    ∃ file, fs.stat (named (backupRoot ++ relative)) = some (.file file) ∧
      Fits E item ⟨text, relative, file⟩ := by
  unfold checkEntry at h
  cases hpath : safePath item with
  | error e =>
      rw [hpath] at h
      cases h
  | ok result =>
      obtain ⟨text', relative'⟩ := result
      simp only [hpath, bind, Except.bind] at h
      split at h
      · rename_i file hstat
        cases hitem : item.item "sha256" with
        | error e =>
            rw [hitem] at h
            cases h
        | ok sha256 =>
            simp only [hitem, Except.mapError] at h
            split at h
            · cases h
            · rename_i hdigest
              obtain ⟨rfl, rfl⟩ := Prod.mk.inj (Except.ok.inj h)
              exact ⟨file, hstat, hpath, sha256, hitem, Bool.not_eq_false _ ▸ hdigest⟩
      · cases h

/-! ## Entries that are in place -/

/-- An entry that is in place is copied without effect. -/
theorem run_restoreFiles_of_inPlace {front : List Value}
    (hfront : ∀ x ∈ front, InPlace E backupRoot targetRoot fs x) (rest : List Value) :
    ∃ texts : List Value, (restoreFiles E backupRoot targetRoot (front ++ rest)).run fs =
      (do
        let others ← restoreFiles E backupRoot targetRoot rest
        return texts ++ others : Prog (List Value)).run fs := by
  induction front with
  | nil =>
      refine ⟨[], ?_⟩
      rw [run_bind, List.nil_append]
      cases hrun : (restoreFiles E backupRoot targetRoot rest).run fs with
      | none => rfl
      | some result =>
          obtain ⟨result, fs'⟩ := result
          cases result <;> rfl
  | cons item front ih =>
      obtain ⟨⟨text, relative, file, hcheck, hsource, hlink, htarget, hother⟩, hothers⟩ :=
        List.forall_mem_cons.mp hfront
      obtain ⟨texts, hrest⟩ := ih hothers
      refine ⟨.text text :: texts, ?_⟩
      have hdir : fs.isDir (named (targetRoot ++ relative).dropLast) = true :=
        isDir_dropLast_of_stat htarget
      rw [List.cons_append, restoreFiles, run_bind, run_get]
      simp only [hcheck, Act.ofExcept, run_bind (pure _), run_pure]
      rw [run_onDisk_bind (run_makeDirectories_of_isDir hdir),
        run_onDisk_bind (run_copyFile_of_file hsource hlink htarget hother), run_bind, hrest, run_bind,
        run_bind]
      cases hrun : (restoreFiles E backupRoot targetRoot rest).run fs with
      | none => rfl
      | some result =>
          obtain ⟨result, fs'⟩ := result
          cases result <;> rfl

/-- Nothing happens where all entries are in place up to one that is refused. -/
theorem restoreIsSafe_of_settledUpTo {verifiedArtifact : Bool}
    (h : ForItems backupRoot fs verifiedArtifact (SettledUpTo E backupRoot targetRoot fs)) :
    RestoreIsSafe E backupRoot targetRoot fs verifiedArtifact := by
  intro result fs' hrun
  cases verifiedArtifact with
  | false =>
      obtain ⟨rfl, rfl⟩ := Prod.mk.inj (Option.some.inj hrun)
      exact fun h => h.elim
  | true =>
      cases hmanifest : manifestItems fs backupRoot with
      | error e =>
          rw [run_restoreLiveState_error hmanifest] at hrun
          obtain ⟨rfl, rfl⟩ := Prod.mk.inj (Option.some.inj hrun)
          exact fun _ _ => rfl
      | ok read =>
          obtain ⟨manifest, items⟩ := read
          obtain ⟨front, rest, rfl, hfront, hrest⟩ := h rfl manifest items hmanifest
          obtain ⟨result', hloop, herror, -⟩ := exists_run_restoreFiles hmanifest hrun
          obtain ⟨texts, hfirst⟩ := run_restoreFiles_of_inPlace hfront rest
          rw [hfirst, run_bind] at hloop
          cases rest with
          | cons item rest =>
              obtain ⟨e, hcheck⟩ := hrest item rfl
              rw [run_restoreFiles_cons_error hcheck] at hloop
              obtain ⟨rfl, rfl⟩ := Prod.mk.inj (Option.some.inj hloop)
              obtain rfl := herror e rfl
              exact fun _ _ => rfl
          | nil =>
              obtain ⟨rfl, rfl⟩ := Prod.mk.inj (Option.some.inj hloop)
              cases result with
              | error e => exact fun _ _ => rfl
              | ok value =>
                  intro manifest' items' hmanifest'
                  obtain ⟨rfl, rfl⟩ := Prod.mk.inj (Except.ok.inj hmanifest')
                  refine ⟨fun _ h => absurd rfl h, fun item hitem => ?_⟩
                  rw [List.append_nil] at hitem
                  obtain ⟨text, relative, file, hcheck, hsource, -, htarget, -⟩ := hfront item hitem
                  obtain ⟨file', hstat, hfits⟩ := exists_fits_of_checkEntry hcheck
                  obtain ⟨rfl⟩ := Node.file.inj (Option.some.inj (hstat.symm.trans hsource))
                  exact ⟨_, hfits, htarget⟩

/-! ## Entries that lead somewhere -/

theorem mem_relatives {item : Value} {text : Text} {relative : Path} (hitem : item ∈ items)
    (h : safePath item = .ok (text, relative)) : relative ∈ relatives items :=
  List.mem_filterMap.mpr ⟨item, hitem, by rw [h]; rfl⟩

/-- Entries that are in order come with what they move. -/
theorem exists_pairs {front : List Value} (h : ∀ x ∈ front, Copies E src dest fs x) :
    ∃ pairs : List (Value × Move), pairs.map Prod.fst = front ∧ ∀ pair ∈ pairs,
      Fits E pair.1 pair.2 ∧ fs.node (src pair.2.relative) = some (.file pair.2.file) ∧
        fs.Open (dest pair.2.relative) := by
  induction front with
  | nil => exact ⟨[], rfl, fun _ h => (by cases h)⟩
  | cons item front ih =>
      obtain ⟨⟨move, hmove⟩, hfront⟩ := List.forall_mem_cons.mp h
      obtain ⟨pairs, rfl, hpairs⟩ := ih hfront
      exact ⟨(item, move) :: pairs, rfl, List.forall_mem_cons.mpr ⟨hmove, hpairs⟩⟩

/-- What is at a place where nothing was written. -/
theorem fileAt_filled {entries : List (Path × File)} (hopen : ∀ entry ∈ entries, fs.Open entry.1)
    (hlayout : IsLayout entries) {place : Path} (h : ∀ entry ∈ entries, entry.1 ≠ place) :
    fileAt (fs.filled entries) place = fileAt fs place := by
  unfold fileAt
  by_cases hinit : ∃ entry ∈ entries, place <+: entry.1
  · obtain ⟨entry, hentry, hinit⟩ := hinit
    have hdirectory : (fs.filled entries).IsDirectory place :=
      isDirectory_filled hopen hlayout hentry hinit (Ne.symm (h entry hentry))
    rw [show (fs.filled entries).node place = some .directory from hdirectory]
    rcases (hopen entry hentry).1 place (prefix_dropLast hinit (Ne.symm (h entry hentry))) with
      hnode | hnode
    · rw [hnode]
    · rw [show fs.node place = some .directory from hnode]
  · rw [node_filled_elsewhere hopen hlayout fun entry hentry h => hinit ⟨entry, hentry, h⟩]

/-- What is a file is seen to be it. -/
theorem fileAt_eq_file_iff {place : Path} {file : File} :
    fileAt fs place = some (.file file) ↔ fs.node place = some (.file file) := by
  unfold fileAt
  cases hnode : fs.node place with
  | none => rfl
  | some node => cases node <;> simp

section Ways

variable {pairs : List (Value × Move)}

/-- Pairs of entries, taken from these. -/
structure Taken (E : Environment) (src dest : Path → Path) (fs : Disk) (items : List Value)
    (pairs : List (Value × Move)) : Prop where
  mem : ∀ pair ∈ pairs, pair.1 ∈ items
  fits : ∀ pair ∈ pairs, Fits E pair.1 pair.2
  source : ∀ pair ∈ pairs, fs.node (src pair.2.relative) = some (.file pair.2.file)
  target : ∀ pair ∈ pairs, fs.Open (dest pair.2.relative)

theorem Taken.mem_relatives (h : Taken E src dest fs items pairs) {pair : Value × Move}
    (hpair : pair ∈ pairs) : pair.2.relative ∈ relatives items :=
  Hardening.mem_relatives (h.mem pair hpair) (h.fits pair hpair).1

/-- They can be copied one after the other. -/
theorem Ways.ready (hways : Ways backupRoot targetRoot src dest fs items)
    (h : Taken E src dest fs items pairs) : Ready fs src dest (pairs.map Prod.snd) := by
  have hmem : ∀ move ∈ pairs.map Prod.snd, move.relative ∈ relatives items ∧
      fs.node (src move.relative) = some (.file move.file) ∧ fs.Open (dest move.relative) := by
    intro move hmove
    obtain ⟨pair, hpair, rfl⟩ := List.mem_map.mp hmove
    exact ⟨h.mem_relatives hpair, h.source pair hpair, h.target pair hpair⟩
  refine ⟨fun move hmove => ?_, fun move hmove => ?_, ?_, fun move hmove move' hmove' heq => ?_⟩
  · exact ⟨(hways.leads _ (hmem move hmove).1).source.clear, (hmem move hmove).2.1⟩
  · exact ⟨(hways.leads _ (hmem move hmove).1).target.clear, (hmem move hmove).2.2⟩
  · intro entry hentry entry' hentry' hinit
    obtain ⟨move, hmove, rfl⟩ := mem_placed.mp hentry
    obtain ⟨move', hmove', rfl⟩ := mem_placed.mp hentry'
    obtain ⟨hrelative, hnode, -⟩ := hmem move hmove
    obtain ⟨hrelative', hnode', -⟩ := hmem move' hmove'
    have heq := hways.beside _ hrelative _ hrelative' _ _ hnode hnode' hinit
    rw [heq] at hnode
    rw [heq, Node.file.inj (Option.some.inj (hnode.symm.trans hnode'))]
  · exact hways.apart _ (hmem move hmove).1 _ (hmem move' hmove').1 (heq ▸ List.prefix_rfl)

/-- What is copied does not change where a path leads. -/
theorem Ways.keeps (hways : Ways backupRoot targetRoot src dest fs items)
    (h : Taken E src dest fs items pairs) :
    fs.Keeps (fs.filled (placed dest (pairs.map Prod.snd))) :=
  keeps_filled (hways.ready h).clear_placed (hways.ready h).open_placed (hways.ready h).layout

/-- What is copied does not change a check. -/
theorem Ways.checkEntry_filled (hways : Ways backupRoot targetRoot src dest fs items)
    (h : Taken E src dest fs items pairs) {item : Value} (hitem : item ∈ items) :
    checkEntry E (fs.filled (placed dest (pairs.map Prod.snd))) backupRoot item =
      checkEntry E fs backupRoot item := by
  have hready := hways.ready h
  unfold checkEntry
  cases hpath : safePath item with
  | error e => rfl
  | ok checked =>
      obtain ⟨text, relative⟩ := checked
      have hrelative := mem_relatives hitem hpath
      have hleads := hways.leads _ hrelative
      have hstat : (fs.filled (placed dest (pairs.map Prod.snd))).stat (named (backupRoot ++ relative)) =
          fs.stat (named (backupRoot ++ relative)) := by
        rw [(hleads.keeps (hways.keeps h)).source.stat_eq, hleads.source.stat_eq]
        apply node_filled_elsewhere hready.open_placed hready.layout
        intro entry hentry
        obtain ⟨move, hmove, rfl⟩ := mem_placed.mp hentry
        obtain ⟨pair, hpair, rfl⟩ := List.mem_map.mp hmove
        exact hways.apart _ hrelative _ (h.mem_relatives hpair)
      simp only [bind, Except.bind, hstat]

/-- The check of an entry that is in order. -/
theorem Ways.checkEntry_pair (hways : Ways backupRoot targetRoot src dest fs items)
    (h : Taken E src dest fs items pairs) {pair : Value × Move} (hpair : pair ∈ pairs) :
    checkEntry E fs backupRoot pair.1 = .ok (pair.2.text, pair.2.relative) :=
  checkEntry_of_fits (h.fits pair hpair)
    ((hways.leads _ (h.mem_relatives hpair)).source.stat_eq.trans (h.source pair hpair))

/-- A copied entry is in place if and only if its file is where it leads. -/
theorem Ways.inPlace_iff (hways : Ways backupRoot targetRoot src dest fs items)
    (h : Taken E src dest fs items pairs) {pair : Value × Move} (hpair : pair ∈ pairs) :
    InPlace E backupRoot targetRoot fs pair.1 ↔
      fs.node (dest pair.2.relative) = some (.file pair.2.file) := by
  have hleads := hways.leads _ (h.mem_relatives hpair)
  have hstat := hleads.source.stat_eq.trans (h.source pair hpair)
  constructor
  · rintro ⟨text, relative, file, hcheck, hsource, -, htarget, -⟩
    obtain ⟨-, rfl⟩ := Prod.mk.inj (Except.ok.inj ((hways.checkEntry_pair h hpair).symm.trans hcheck))
    obtain rfl := Node.file.inj (Option.some.inj (hstat.symm.trans hsource))
    exact hleads.target.stat_eq.symm.trans htarget
  · intro hnode
    refine ⟨pair.2.text, pair.2.relative, pair.2.file, hways.checkEntry_pair h hpair, hstat,
      hleads.source.isSymlink_eq, hleads.target.stat_eq.trans hnode, ?_⟩
    have hne : src pair.2.relative ≠ dest pair.2.relative := fun heq =>
      hways.apart _ (h.mem_relatives hpair) _ (h.mem_relatives hpair) (heq ▸ List.prefix_rfl)
    have hfollow : fs.follow (named (backupRoot ++ pair.2.relative)) =
        fs.follow (named (src pair.2.relative)) := hleads.source.locate_eq true
    unfold sameFile
    rw [hfollow, hleads.target.follow_eq,
      follow_clear hleads.source.clear (by rw [h.source pair hpair]; exact Option.some_ne_none _),
      follow_clear hleads.target.clear (by rw [hnode]; exact Option.some_ne_none _)]
    simp [hne]

/-- A copied entry leads into the target if its place does. -/
theorem Taken.inside_iff (h : Taken E src dest fs items pairs) {pair : Value × Move}
    (hpair : pair ∈ pairs) : Inside targetRoot dest pair.1 ↔ targetRoot <+: dest pair.2.relative := by
  have hpath := (h.fits pair hpair).1
  refine ⟨fun hinside => hinside _ _ hpath, fun hinit text relative hpath' => ?_⟩
  obtain ⟨-, rfl⟩ := Prod.mk.inj (Except.ok.inj (hpath.symm.trans hpath'))
  exact hinit

/-- Each file is where its entry leads. -/
theorem Ways.node_filled (hways : Ways backupRoot targetRoot src dest fs items)
    (h : Taken E src dest fs items pairs) {pair : Value × Move} (hpair : pair ∈ pairs) :
    (fs.filled (placed dest (pairs.map Prod.snd))).node (dest pair.2.relative) =
      some (.file pair.2.file) :=
  node_filled_of_mem (hways.ready h).open_placed (hways.ready h).layout
    (mem_placed.mpr ⟨pair.2, List.mem_map_of_mem hpair, rfl⟩)

/-- What is at a place after the copies: the file of an entry that leads there, or what was. -/
theorem Ways.fileAt_filled (hways : Ways backupRoot targetRoot src dest fs items)
    (h : Taken E src dest fs items pairs) (place : Path) :
    (∃ pair ∈ pairs, dest pair.2.relative = place) ∨
      fileAt (fs.filled (placed dest (pairs.map Prod.snd))) place = fileAt fs place := by
  have hready := hways.ready h
  by_cases hplace : ∃ pair ∈ pairs, dest pair.2.relative = place
  · exact .inl hplace
  · refine .inr (Hardening.fileAt_filled hready.open_placed hready.layout fun entry hentry heq => ?_)
    obtain ⟨move, hmove, rfl⟩ := mem_placed.mp hentry
    obtain ⟨pair, hpair, rfl⟩ := List.mem_map.mp hmove
    exact hplace ⟨pair, hpair, heq⟩

/-- A copied entry changes nothing if and only if it is in place. -/
theorem Ways.unchanged_iff (hways : Ways backupRoot targetRoot src dest fs items)
    (h : Taken E src dest fs items pairs) {pair : Value × Move} (hpair : pair ∈ pairs) :
    fileAt (fs.filled (placed dest (pairs.map Prod.snd))) (dest pair.2.relative) =
        fileAt fs (dest pair.2.relative) ↔ InPlace E backupRoot targetRoot fs pair.1 := by
  rw [fileAt_eq_file_iff.mpr (hways.node_filled h hpair), hways.inPlace_iff h hpair,
    ← fileAt_eq_file_iff]
  exact eq_comm

/-- The copied entries change nothing in the target if and only if those that lead into it are in
place. -/
theorem Ways.untouched_filled_iff (hways : Ways backupRoot targetRoot src dest fs items)
    (h : Taken E src dest fs items pairs) :
    Untouched fs (fs.filled (placed dest (pairs.map Prod.snd))) targetRoot ↔
      ∀ x ∈ pairs.map Prod.fst, Inside targetRoot dest x → InPlace E backupRoot targetRoot fs x := by
  constructor
  · intro huntouched item hitem hinside
    obtain ⟨pair, hpair, rfl⟩ := List.mem_map.mp hitem
    obtain ⟨path, hpath⟩ := (h.inside_iff hpair).mp hinside
    refine (hways.unchanged_iff h hpair).mp ?_
    rw [← hpath]
    exact huntouched path
  · intro hplace path
    rcases hways.fileAt_filled h (targetRoot ++ path) with ⟨pair, hpair, hdest⟩ | hsame
    · rw [← hdest]
      refine (hways.unchanged_iff h hpair).mpr (hplace _ (List.mem_map_of_mem hpair) ?_)
      rw [h.inside_iff hpair, hdest]
      exact List.prefix_append _ _
    · exact hsame

/-- Copied entries are restored if and only if those that lead out of the target are in place. -/
theorem Ways.restored_filled_iff (hways : Ways backupRoot targetRoot src dest fs items)
    (h : Taken E src dest fs items pairs) :
    Restored E targetRoot fs (fs.filled (placed dest (pairs.map Prod.snd))) (pairs.map Prod.fst) ↔
      ∀ x ∈ pairs.map Prod.fst, Inside targetRoot dest x ∨ InPlace E backupRoot targetRoot fs x := by
  constructor
  · rintro ⟨hwritten, -⟩ item hitem
    obtain ⟨pair, hpair, rfl⟩ := List.mem_map.mp hitem
    by_cases hsame : fileAt (fs.filled (placed dest (pairs.map Prod.snd))) (dest pair.2.relative) =
        fileAt fs (dest pair.2.relative)
    · exact .inr ((hways.unchanged_iff h hpair).mp hsame)
    · exact .inl ((h.inside_iff hpair).mpr (hwritten _ hsame).1)
  · intro hplace
    refine ⟨fun place hchanged => ?_, fun item hitem => ?_⟩
    · rcases hways.fileAt_filled h place with ⟨pair, hpair, rfl⟩ | hsame
      · refine ⟨?_, pair.1, List.mem_map_of_mem hpair, pair.2, h.fits pair hpair,
          hways.node_filled h hpair⟩
        rcases hplace _ (List.mem_map_of_mem hpair) with hinside | hin
        · exact (h.inside_iff hpair).mp hinside
        · exact absurd ((hways.unchanged_iff h hpair).mpr hin) hchanged
      · exact absurd hsame hchanged
    · obtain ⟨pair, hpair, rfl⟩ := List.mem_map.mp hitem
      have hleads := (hways.leads _ (h.mem_relatives hpair)).keeps (hways.keeps h)
      exact ⟨pair.2, h.fits pair hpair, hleads.target.stat_eq.trans (hways.node_filled h hpair)⟩

/-- An entry that is in order, with something in the way. -/
theorem Ways.run_restoreFiles_blocked (hways : Ways backupRoot targetRoot src dest fs items)
    (h : Taken E src dest fs items pairs) {item : Value} {text : Text} {relative : Path}
    (hitem : item ∈ items) (hcheck : checkEntry E fs backupRoot item = .ok (text, relative))
    (hcopies : ¬ Copies E src dest fs item) (rest : List Value) :
    ∃ e fs', (restoreFiles E backupRoot targetRoot (item :: rest)).run
      (fs.filled (placed dest (pairs.map Prod.snd))) = some (.error (.os e), fs') := by
  have hready := hways.ready h
  obtain ⟨file, hstat, hfits⟩ := exists_fits_of_checkEntry hcheck
  have hrelative : relative ∈ relatives items := mem_relatives hitem hfits.1
  have hleads := hways.leads _ hrelative
  have hnode : fs.node (src relative) = some (.file file) := hleads.source.stat_eq.symm.trans hstat
  have hbeside : ∀ entry ∈ placed dest (pairs.map Prod.snd), Beside entry.1 (dest relative) := by
    intro entry hentry
    obtain ⟨move, hmove, rfl⟩ := mem_placed.mp hentry
    obtain ⟨pair, hpair, rfl⟩ := List.mem_map.mp hmove
    have hpath := h.mem_relatives hpair
    have hsource := h.source pair hpair
    exact ⟨fun hinit => congrArg dest (hways.beside _ hpath _ hrelative _ _ hsource hnode hinit),
      fun hinit => congrArg dest (hways.beside _ hrelative _ hpath _ _ hnode hsource hinit).symm⟩
  have hopen : ¬ (fs.filled (placed dest (pairs.map Prod.snd))).Open (dest relative) := by
    rw [open_filled_iff hready.open_placed hready.layout hbeside]
    exact fun hopen => hcopies ⟨_, hfits, hnode, hopen⟩
  have hleads' := hleads.keeps (hways.keeps h)
  have hcheck' := (hways.checkEntry_filled h hitem).trans hcheck
  obtain ⟨file', hstat', -⟩ := exists_fits_of_checkEntry hcheck'
  rw [hleads'.source.stat_eq] at hstat'
  rw [restoreFiles, run_bind, run_get]
  simp only [hcheck', Act.ofExcept, run_bind (pure _), run_pure]
  rw [hleads'.run_copy]
  have hclear := hleads'.target.clear
  have habove := hclear.above (List.dropLast_prefix _)
  rcases habove.free_or_file with hfree | ⟨front, content, hfront, hfile⟩
  · have hdirectory : (fs.filled (placed dest (pairs.map Prod.snd))).IsDirectory (dest relative) := by
      by_contra hplace
      exact hopen ⟨hfree, hplace⟩
    obtain ⟨e, hcopy⟩ := run_copyFile_error hleads'.source.clear hstat' hclear (.inl hdirectory)
    rw [run_onDisk_bind (run_makeDirectories hfree (.inl rfl)),
      withDirectories_of_isDirectory hdirectory.dropLast, run_onDisk_bind_error hcopy]
    exact ⟨e, _, rfl⟩
  · obtain ⟨e, hblocked⟩ : ∃ e, (makeDirectories true (dest relative).dropLast).run
        (fs.filled (placed dest (pairs.map Prod.snd))) = some (.error e, _) :=
      run_makeDirectories_blocked habove hfront hfile
    rw [run_onDisk_bind_error hblocked]
    exact ⟨e, _, rfl⟩

/-- An entry that is refused is not copied. -/
theorem Ways.not_copies_of_refused (hways : Ways backupRoot targetRoot src dest fs items) {item : Value}
    (hitem : item ∈ items) (h : Refused E backupRoot fs item) : ¬ Copies E src dest fs item := by
  rintro ⟨move, hfits, hnode, -⟩
  obtain ⟨e, hcheck, -⟩ := h
  have hleads := hways.leads _ (mem_relatives hitem hfits.1)
  cases hcheck.symm.trans (checkEntry_of_fits hfits (hleads.source.stat_eq.trans hnode))

end Ways

/-! ### Without links -/

/-- Two files of the backup are not below each other, and neither are their copies. -/
theorem eq_of_prefix {relative other : Path} {file file' : File}
    (hnode : fs.node (backupRoot ++ relative) = some (.file file))
    (hnode' : fs.node (backupRoot ++ other) = some (.file file'))
    (hinit : targetRoot ++ relative <+: targetRoot ++ other) : relative = other := by
  by_contra hne
  have hinit' : backupRoot ++ relative <+: backupRoot ++ other :=
    (List.prefix_append_right_inj _).mpr ((List.prefix_append_right_inj _).mp hinit)
  have hfile : ¬ fs.IsDirectory (backupRoot ++ relative) := fun h => by cases h.symm.trans hnode
  cases (eq_none_below hfile hinit' fun h => hne (List.append_cancel_left h)).symm.trans hnode'

/-- Where no link is met, the entries lead where their names say. -/
theorem Unlinked.ways (h : Unlinked backupRoot targetRoot fs items) :
    Ways backupRoot targetRoot (backupRoot ++ ·) (targetRoot ++ ·) fs items where
  leads relative hrelative := by
    refine Leads.of_clear (h.backup _ hrelative) (fun hnil => h.outside ?_) (h.target _ hrelative)
    rw [(List.append_eq_nil_iff.mp hnil).1]
    exact List.nil_prefix
  apart relative _ other _ := not_prefix_of_apart h.outside h.outside' relative other
  beside _ _ _ _ _ _ := eq_of_prefix

/-! ## When a restore is safe -/

section First

variable {α : Type} {p : α → Prop}

/-- A list is cut in one way at the first element without a property. -/
theorem eq_of_first {front front' rest rest' : List α} {x x' : α}
    (h : front ++ x :: rest = front' ++ x' :: rest') (hfront : ∀ y ∈ front, p y)
    (hfront' : ∀ y ∈ front', p y) (hx : ¬ p x) (hx' : ¬ p x') : front = front' ∧ x = x' := by
  induction front generalizing front' with
  | nil =>
      cases front' with
      | nil => exact ⟨rfl, (List.cons.inj h).1⟩
      | cons first front' =>
          obtain rfl := (List.cons.inj h).1
          exact absurd (hfront' x List.mem_cons_self) hx
  | cons first front ih =>
      cases front' with
      | nil =>
          obtain rfl := (List.cons.inj h).1
          exact absurd (hfront first List.mem_cons_self) hx'
      | cons first' front' =>
          obtain ⟨rfl, htail⟩ := List.cons.inj h
          obtain ⟨rfl, rfl⟩ := ih htail (fun y hy => hfront y (List.mem_cons_of_mem _ hy))
            fun y hy => hfront' y (List.mem_cons_of_mem _ hy)
          exact ⟨rfl, rfl⟩

/-- All elements have a property, or there is a first one without it. -/
theorem forall_or_exists_first (p : α → Prop) (xs : List α) :
    (∀ x ∈ xs, p x) ∨ ∃ front x rest, xs = front ++ x :: rest ∧ (∀ y ∈ front, p y) ∧ ¬ p x := by
  induction xs with
  | nil => exact .inl fun _ h => (by cases h)
  | cons first xs ih =>
      by_cases hfirst : p first
      · rcases ih with hall | ⟨front, x, rest, rfl, hfront, hx⟩
        · exact .inl (List.forall_mem_cons.mpr ⟨hfirst, hall⟩)
        · exact .inr ⟨first :: front, x, rest, rfl, List.forall_mem_cons.mpr ⟨hfirst, hfront⟩, hx⟩
      · exact .inr ⟨[], first, xs, rfl, fun _ h => (by cases h), hfirst⟩

end First

/-- The pairs of entries that are copied. -/
theorem exists_taken {front : List Value} (hmem : ∀ x ∈ front, x ∈ items)
    (h : ∀ x ∈ front, Copies E src dest fs x) :
    ∃ pairs : List (Value × Move), pairs.map Prod.fst = front ∧ Taken E src dest fs items pairs := by
  obtain ⟨pairs, rfl, hpairs⟩ := exists_pairs h
  refine ⟨pairs, rfl, ⟨fun pair hpair => hmem _ (List.mem_map_of_mem hpair), ?_, ?_, ?_⟩⟩
  · exact fun pair hpair => (hpairs pair hpair).1
  · exact fun pair hpair => (hpairs pair hpair).2.1
  · exact fun pair hpair => (hpairs pair hpair).2.2

/-- How a restore ends of which the entries lead somewhere: it returns, with all entries copied,
it is refused at an entry, with those in front of it copied, or it fails in another way. -/
inductive Ends (E : Environment) (backupRoot targetRoot : Path) (src dest : Path → Path) (fs : Disk)
    (items : List Value) : Except Exn Value → Disk → Prop
  | returned {value : Value} {fs' : Disk} (hall : ∀ x ∈ items, Copies E src dest fs x)
      (hrestored : Restored E targetRoot fs fs' items ↔
        ∀ x ∈ items, Inside targetRoot dest x ∨ InPlace E backupRoot targetRoot fs x) :
      Ends E backupRoot targetRoot src dest fs items (.ok value) fs'
  | refused {front rest : List Value} {item : Value} {e : Exn} {fs' : Disk}
      (hitems : items = front ++ item :: rest) (hfront : ∀ x ∈ front, Copies E src dest fs x)
      (hitem : ¬ Copies E src dest fs item) (hrefused : Refused E backupRoot fs item) (he : Refusal e)
      (huntouched : Untouched fs fs' targetRoot ↔
        ∀ x ∈ front, Inside targetRoot dest x → InPlace E backupRoot targetRoot fs x) :
      Ends E backupRoot targetRoot src dest fs items (.error e) fs'
  | failed {front rest : List Value} {item : Value} {e : Exn} {fs' : Disk}
      (hitems : items = front ++ item :: rest) (hfront : ∀ x ∈ front, Copies E src dest fs x)
      (hitem : ¬ Copies E src dest fs item) (hrefused : ¬ Refused E backupRoot fs item)
      (he : ¬ Refusal e) :
      Ends E backupRoot targetRoot src dest fs items (.error e) fs'

/-- **The run of a restore** of which the entries lead somewhere ends in one of three ways. -/
theorem Ways.ends (hways : Ways backupRoot targetRoot src dest fs items) {manifest : Value}
    (hmanifest : manifestItems fs backupRoot = .ok (manifest, items)) {result : Except Exn Value}
    {fs' : Disk} (hrun : (restoreLiveState E backupRoot targetRoot true).run fs = some (result, fs')) :
    Ends E backupRoot targetRoot src dest fs items result fs' := by
  obtain ⟨result', hloop, herror, hok⟩ := exists_run_restoreFiles hmanifest hrun
  rcases forall_or_exists_first (Copies E src dest fs) items with
    hall | ⟨front, item, rest, heq, hfront, hitem⟩
  · -- all entries are copied
    obtain ⟨pairs, hpairs, htaken⟩ := exists_taken (fun _ h => h) hall
    have hcopied := run_restoreFiles_append htaken.fits
      (fun pair hpair => hways.leads _ (htaken.mem_relatives hpair)) (hways.ready htaken) []
    rw [List.append_nil, hpairs] at hcopied
    obtain ⟨rfl, rfl⟩ := Prod.mk.inj (Option.some.inj (hcopied.symm.trans hloop))
    obtain ⟨value, rfl⟩ := hok _ rfl
    have hrestored := hways.restored_filled_iff htaken
    rw [hpairs] at hrestored
    exact .returned hall hrestored
  · have hmem : item ∈ items := heq ▸ List.mem_append_right _ List.mem_cons_self
    obtain ⟨pairs, rfl, htaken⟩ :=
      exists_taken (fun x hx => heq ▸ List.mem_append_left (item :: rest) hx) hfront
    rw [heq, run_restoreFiles_append htaken.fits
      (fun pair hpair => hways.leads _ (htaken.mem_relatives hpair)) (hways.ready htaken),
      run_bind] at hloop
    cases hcheck : checkEntry E fs backupRoot item with
    | ok checked =>
        obtain ⟨text, relative⟩ := checked
        obtain ⟨e, fs'', hblocked⟩ := hways.run_restoreFiles_blocked htaken hmem hcheck hitem rest
        rw [hblocked] at hloop
        obtain ⟨rfl, rfl⟩ := Prod.mk.inj (Option.some.inj hloop)
        obtain rfl := herror _ rfl
        refine .failed heq hfront hitem ?_ not_false
        rintro ⟨e, hrefused, -⟩
        cases hcheck.symm.trans hrefused
    | error e =>
        rw [run_restoreFiles_cons_error ((hways.checkEntry_filled htaken hmem).trans hcheck)] at hloop
        obtain ⟨rfl, rfl⟩ := Prod.mk.inj (Option.some.inj hloop)
        obtain rfl := herror _ rfl
        by_cases hrefusal : Refusal e
        · exact .refused heq hfront hitem ⟨e, hcheck, hrefusal⟩ hrefusal
            (hways.untouched_filled_iff htaken)
        · refine .failed heq hfront hitem ?_ hrefusal
          rintro ⟨e', hcheck', hrefusal'⟩
          cases hcheck.symm.trans hcheck'
          exact hrefusal hrefusal'

/-- The first entry that is not copied decides whether those in front of it are settled. -/
theorem Ways.settledBefore_iff (hways : Ways backupRoot targetRoot src dest fs items)
    {front rest : List Value} {item : Value} (hitems : items = front ++ item :: rest)
    (hfront : ∀ x ∈ front, Copies E src dest fs x) (hitem : ¬ Copies E src dest fs item) :
    SettledBefore E backupRoot targetRoot src dest fs items ↔
      (Refused E backupRoot fs item →
        ∀ x ∈ front, Inside targetRoot dest x → InPlace E backupRoot targetRoot fs x) := by
  refine ⟨fun h hrefused => h front item rest hitems hrefused hfront, ?_⟩
  intro h front' item' rest' hitems' hrefused' hfront'
  have hitem' : ¬ Copies E src dest fs item' :=
    hways.not_copies_of_refused (hitems' ▸ List.mem_append_right _ List.mem_cons_self) hrefused'
  obtain ⟨rfl, rfl⟩ := eq_of_first (hitems'.symm.trans hitems) hfront' hfront hitem' hitem
  exact h hrefused'

/-- How a restore ends is safe if and only if its entries are settled. -/
theorem Ways.safe_iff (hways : Ways backupRoot targetRoot src dest fs items)
    {result : Except Exn Value} {fs' : Disk}
    (hends : Ends E backupRoot targetRoot src dest fs items result fs') :
    ((∀ e, result = .error e → Refusal e → Untouched fs fs' targetRoot) ∧
        ∀ value, result = .ok value → Restored E targetRoot fs fs' items) ↔
      SettledBefore E backupRoot targetRoot src dest fs items ∧
        SettledOutside E backupRoot targetRoot src dest fs items := by
  cases hends with
  | @returned value fs' hall hrestored =>
      have hbefore : SettledBefore E backupRoot targetRoot src dest fs items := by
        intro front item rest hitems hrefused
        have hmem : item ∈ items := hitems ▸ List.mem_append_right _ List.mem_cons_self
        exact absurd (hall item hmem) (hways.not_copies_of_refused hmem hrefused)
      constructor
      · exact fun h => ⟨hbefore, fun _ => hrestored.mp (h.2 value rfl)⟩
      · exact fun h => ⟨fun e he => (by cases he), fun _ _ => hrestored.mpr (h.2 hall)⟩
  | @refused front rest item e fs' hitems hfront hitem hrefused he huntouched =>
      have hmem : item ∈ items := hitems ▸ List.mem_append_right _ List.mem_cons_self
      rw [hways.settledBefore_iff hitems hfront hitem, ← huntouched]
      constructor
      · intro h
        exact ⟨fun _ => h.1 e rfl he, fun hall => absurd (hall item hmem) hitem⟩
      · intro h
        exact ⟨fun _ _ _ => h.1 hrefused, fun value hvalue => (by cases hvalue)⟩
  | @failed front rest item e fs' hitems hfront hitem hrefused he =>
      have hmem : item ∈ items := hitems ▸ List.mem_append_right _ List.mem_cons_self
      rw [hways.settledBefore_iff hitems hfront hitem]
      refine iff_of_true ⟨?_, fun value hvalue => (by cases hvalue)⟩ ⟨?_, ?_⟩
      · rintro e' he' hrefusal
        cases he'
        exact absurd hrefusal he
      · exact fun h => absurd h hrefused
      · exact fun hall => absurd (hall item hmem) hitem

/-- **A restore is safe** between trees in which the entries lead somewhere, if and only if those
in front of a refused one, as far as they lead into the target, and those that lead out of it are
in place, where they are copied. -/
theorem restoreIsSafe_iff_of_ways {verifiedArtifact : Bool}
    (hways : ForItems backupRoot fs verifiedArtifact (Ways backupRoot targetRoot src dest fs)) :
    RestoreIsSafe E backupRoot targetRoot fs verifiedArtifact ↔
      ForItems backupRoot fs verifiedArtifact fun items =>
        SettledBefore E backupRoot targetRoot src dest fs items ∧
          SettledOutside E backupRoot targetRoot src dest fs items := by
  constructor
  · rintro hsafe rfl manifest items hmanifest
    obtain ⟨⟨result, fs'⟩, hrun⟩ := Option.ne_none_iff_exists'.mp (total_restoreLiveState true fs)
    have hitems := hways rfl manifest items hmanifest
    refine (hitems.safe_iff (hitems.ends hmanifest hrun)).mp ⟨?_, ?_⟩
    · rintro e rfl hrefusal
      exact hsafe _ _ hrun hrefusal
    · rintro value rfl
      exact hsafe _ _ hrun manifest items hmanifest
  · intro hsettled result fs' hrun
    cases verifiedArtifact with
    | false => exact restoreIsSafe_of_settledUpTo (fun h => by cases h) result fs' hrun
    | true =>
        cases hmanifest : manifestItems fs backupRoot with
        | error e =>
            rw [run_restoreLiveState_error hmanifest] at hrun
            obtain ⟨rfl, rfl⟩ := Prod.mk.inj (Option.some.inj hrun)
            exact fun _ _ => rfl
        | ok read =>
            obtain ⟨manifest, items⟩ := read
            have hitems := hways rfl manifest items hmanifest
            obtain ⟨herror, hok⟩ := (hitems.safe_iff (hitems.ends hmanifest hrun)).mpr
              (hsettled rfl manifest items hmanifest)
            cases result with
            | error e => exact herror e rfl
            | ok value =>
                intro manifest' items' hmanifest'
                obtain ⟨rfl, rfl⟩ := Prod.mk.inj (Except.ok.inj hmanifest')
                exact hok value rfl

section Sample

/-- The entry of a file in a manifest. -/
def entryFor (path : Text) (file : File) : Value :=
  .object [(.of "path", .text path),
    (.of "sha256", .text (sampleEnvironment.sha256.hexdigest file.data))]

def sampleFile : File := ⟨[1], .unparsable⟩

/-- A backup that lists these entries. -/
def listing (entries : List Value) : Disk :=
  bare.withFile [.of "backup", manifestName] ⟨[], .document (.object [(.of "files", .array entries)])⟩

/-- With a link in the target, to a directory elsewhere. -/
def linking (fs : Disk) (name : Text) : Disk :=
  ((fs.withDirectories [.of "elsewhere"]).withDirectories [.of "target"]).put [.of "target", name]
    (.link ⟨true, [.down (.of "elsewhere")]⟩)

theorem clear_linking_listing {entries : List Value} {name : Text} {path : Path}
    (h : ¬ [.of "target", name] <+: path) : (linking (listing entries) name).Clear path := by
  have hroot : ¬ (bare : Disk).IsDirectory [.of "backup", manifestName] := fun h => by cases h
  exact ((((clear_bare _).withFile hroot).withDirectories _).withDirectories _).put_beside h _

/-- A backup that lists the file `messages`, and does not have it. -/
def lost : Disk := linking (listing [entryFor (.of "messages") sampleFile]) (.of "README")

/-- A backup that has the file `data/users`, and a target where `data` is a link. -/
def diverted : Disk :=
  (linking (listing [entryFor (.of "data/users") sampleFile]) (.of "data")).withFile
    [.of "backup", .of "data", .of "users"] sampleFile

/-- Below the link the path goes on elsewhere. -/
def divert (path : Path) : Path := .of "elsewhere" :: path.tail

theorem items_eq {entries : List Value} {manifest : Value}
    (hmanifest : manifestItems fs backupRoot = .ok (manifest, items))
    (h : manifestItems fs backupRoot = .ok (.object [(.of "files", .array entries)], entries)) :
    items = entries :=
  (Prod.mk.inj (Except.ok.inj (hmanifest.symm.trans h))).2

theorem clear_diverted {path : Path} (h : ¬ [.of "target", .of "data"] <+: path) :
    diverted.Clear path := by
  refine (clear_linking_listing h).withFile fun hdirectory => ?_
  cases hdirectory

/-- The entry leads to a directory elsewhere. -/
theorem ways_diverted : ForItems [.of "backup"] diverted true
    (Ways [.of "backup"] [.of "target"] ([.of "backup"] ++ ·) divert diverted) := by
  rintro - manifest items hmanifest
  obtain rfl := items_eq hmanifest rfl
  have hrelatives : relatives [entryFor (.of "data/users") sampleFile] =
      [[.of "data", .of "users"]] := rfl
  refine ⟨?_, ?_, ?_⟩ <;> rw [hrelatives]
  · rintro relative hrelative
    obtain rfl := List.mem_singleton.mp hrelative
    refine ⟨(clear_diverted (by decide)).reaches (by decide), .inl ?_⟩
    exact ⟨[.of "target", .of "data"], [.of "elsewhere"], [.of "users"], rfl, rfl, by decide, rfl, rfl,
      clear_diverted (by decide)⟩
  · rintro relative hrelative other hother
    obtain rfl := List.mem_singleton.mp hrelative
    obtain rfl := List.mem_singleton.mp hother
    decide
  · rintro relative hrelative other hother - - - - -
    rw [List.mem_singleton.mp hrelative, List.mem_singleton.mp hother]

theorem not_settledOutside_diverted : ¬ SettledOutside sampleEnvironment [.of "backup"] [.of "target"]
    ([.of "backup"] ++ ·) divert diverted [entryFor (.of "data/users") sampleFile] := by
  have hpath : safePath (entryFor (.of "data/users") sampleFile) =
      .ok (.of "data/users", [.of "data", .of "users"]) := rfl
  have hdirectory : diverted.IsDirectory [.of "elsewhere"] := rfl
  intro hsettled
  have hcopies : Copies sampleEnvironment ([.of "backup"] ++ ·) divert diverted
      (entryFor (.of "data/users") sampleFile) := by
    refine ⟨⟨.of "data/users", [.of "data", .of "users"], sampleFile⟩, ⟨hpath, _, rfl, by decide⟩,
      rfl, fun front hfront => .inr ?_, fun h => by cases h⟩
    by_cases heq : front = [.of "elsewhere"]
    · exact heq ▸ hdirectory
    · exact isDirectory_above hdirectory.ne_none hfront heq
  rcases hsettled (List.forall_mem_singleton.mpr hcopies) _ List.mem_cons_self with hinside | hplace
  · exact absurd (hinside _ _ hpath) (by decide)
  · obtain ⟨text, relative, file, hcheck, -, -, htarget, -⟩ := hplace
    obtain ⟨_, -, hfits⟩ := exists_fits_of_checkEntry hcheck
    obtain ⟨-, rfl⟩ := Prod.mk.inj (Except.ok.inj (hpath.symm.trans hfits.1))
    cases htarget

/-- A backup that lists the files `users` and `messages`, and does not have the second. -/
def incomplete : Disk :=
  (listing [entryFor (.of "users") sampleFile, entryFor (.of "messages") sampleFile]).withFile
    [.of "backup", .of "users"] sampleFile

end Sample

end UltimateBBSBox.Integrations.Hardening

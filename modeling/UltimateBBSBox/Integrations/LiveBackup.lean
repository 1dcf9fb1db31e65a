import UltimateBBSBox.Archive.ReadBack
import UltimateBBSBox.Integrations.LiveState

/-!
# The round trip of living state

What `backup_live_state` saves, `restore_live_state` brings back, unless a file of the living
state has the name of the manifest or is below a directory with that name: the manifest lies
among the files (`roundTrips_iff`).
-/

namespace UltimateBBSBox.Integrations.Hardening

open Act FileSystem
open Archive (Value Fields)
open Archive.Value (sortKeys)
open CodePoint (ofChar)
open Deployment (IsName asPosix)

/-! ## Paths as texts -/

/-- What a name in a directory can be. -/
def IsEntryName (name : Text) : Prop := IsName name ∧ name ≠ .of "." ∧ name ≠ .of ".."

instance (name : Text) : Decidable (IsEntryName name) := instDecidableAnd

theorem ofText_asPosix {path : Path} (hne : path ≠ []) (hnames : ∀ name ∈ path, IsEntryName name) :
    (PosixPath.ofText (asPosix path)).root = .relative ∧
      (PosixPath.ofText (asPosix path)).parts = path := by
  constructor
  · obtain ⟨name, rest, rfl⟩ := List.exists_cons_of_ne_nil hne
    obtain ⟨⟨hname, hslash, -⟩, -⟩ := hnames name List.mem_cons_self
    obtain ⟨c, others, rfl⟩ := List.exists_cons_of_ne_nil hname
    have hhead : ∃ tail, asPosix ((c :: others) :: rest) = c :: tail := by
      cases rest with
      | nil => exact ⟨others, List.intercalate_singleton⟩
      | cons next rest => exact ⟨_, List.intercalate_cons_cons⟩
    obtain ⟨tail, htail⟩ := hhead
    have hc : c ≠ ofChar '/' := fun heq => hslash (heq ▸ List.mem_cons_self)
    change PosixPath.rootOf _ = _
    unfold PosixPath.rootOf
    rw [htail, List.takeWhile_cons_of_neg (by simpa using hc)]
    rfl
  · change PosixPath.partsOf _ = _
    unfold PosixPath.partsOf asPosix
    have hslash : ∀ name ∈ path, ofChar '/' ∉ name := fun name hname => (hnames name hname).1.2.1
    rw [show Text.of "/" = [ofChar '/'] from rfl, List.splitOn_intercalate (ofChar '/') hslash hne,
      List.filter_eq_self]
    intro name hname
    exact decide_eq_true ⟨(hnames name hname).1.1, (hnames name hname).2.1⟩

/-! ## Statement -/

/-- A live tree of directories and regular files, and what is found below its root. -/
structure LiveTree (fs : Disk) (liveRoot : Path) (found : List Path) : Prop where
  root : fs.IsDirectory liveRoot
  clear : ∀ path, fs.Clear (liveRoot ++ path)
  mem_found : ∀ path, path ∈ found ↔ path ≠ [] ∧ fs.node (liveRoot ++ path) ≠ none
  nodup : found.Nodup
  names : ∀ path ∈ found, ∀ name ∈ path, IsEntryName name

/-- A destination outside the live tree, with nothing there. -/
structure Fresh (fs : Disk) (liveRoot destination : Path) : Prop where
  free : fs.Free destination
  missing : fs.node destination = none
  outside : ¬ liveRoot <+: destination

section RoundTrip

variable (E : Environment) (found : List Path) (liveRoot destination targetRoot : Path)
  (integration release : Text) (excludeNames : List Text) (fs : Disk)

/-- A restore of the backup gives the files back, and lists each of them once. -/
def RoundTrips : Prop :=
  ∃ (manifest : Value) (fs' : Disk) (listed : List Path) (fs'' : Disk),
    (backupLiveState E found liveRoot destination integration release excludeNames).run fs =
        some (.ok manifest, fs') ∧
      (restoreLiveState E destination targetRoot true).run fs' =
        some (.ok (.object [(.of "integration", .text integration), (.of "release", .text release),
          (.of "restored", .array (listed.map fun path => .text (asPosix path)))]), fs'') ∧
      listed.Nodup ∧
      (∀ path, path ∈ listed ↔ ∃ file, keptFile fs liveRoot excludeNames path = some file) ∧
      (∀ path file, fs''.node (targetRoot ++ path) = some (.file file) ↔
        keptFile fs liveRoot excludeNames path = some file) ∧
      ∀ path, ¬ fs''.IsLink (targetRoot ++ path)

/-- The manifest of the live tree. -/
def liveManifest : Value :=
  manifestOf E integration release liveRoot
    ((kept fs liveRoot excludeNames found).map fun move => entryOf E move.relative move.file)

/-- No file that is backed up is below the name of the manifest, nor has it this name, unless
it is the manifest. -/
def Undisturbed : Prop :=
  ∀ path file, keptFile fs liveRoot excludeNames path = some file →
    path.head? = some manifestName →
      path = [manifestName] ∧
        file = E.written (liveManifest E found liveRoot integration release excludeNames fs)

end RoundTrip

/-! ## The backup -/

section Backup

variable {E : Environment} {fs : Disk} {found : List Path} {liveRoot destination : Path}
  {integration release : Text} {excludeNames : List Text} {manifest : File}

theorem mem_kept {move : Move} :
    move ∈ kept fs liveRoot excludeNames found ↔
      move.relative ∈ found ∧ move.text = asPosix move.relative ∧
        keptFile fs liveRoot excludeNames move.relative = some move.file := by
  obtain ⟨text, path, file⟩ := move
  unfold kept
  simp only [List.mem_filterMap, Option.map_eq_some_iff, Move.mk.injEq]
  constructor
  · rintro ⟨path', hmem, file', hfile, rfl, rfl, rfl⟩
    exact ⟨hmem, rfl, hfile⟩
  · rintro ⟨hmem, rfl, hfile⟩
    exact ⟨path, hmem, file, hfile, rfl, rfl, rfl⟩

/-- A path is kept with one file. -/
theorem eq_of_mem_kept {move : Move} (h : move ∈ kept fs liveRoot excludeNames found) {path : Path}
    {file : File} (hfile : keptFile fs liveRoot excludeNames path = some file)
    (hpath : move.relative = path) : move = ⟨asPosix path, path, file⟩ := by
  obtain ⟨-, htext, hfile'⟩ := mem_kept.mp h
  obtain ⟨text, relative, file'⟩ := move
  simp only at hpath htext hfile'
  subst hpath
  rw [htext, Option.some.inj (hfile'.symm.trans hfile)]

theorem LiveTree.mem_found_of_kept (htree : LiveTree fs liveRoot found) {path : Path} {file : File}
    (h : keptFile fs liveRoot excludeNames path = some file) : path ∈ found := by
  obtain ⟨-, hnode⟩ := keptFile_eq_some_iff.mp h
  refine (htree.mem_found path).mpr ⟨?_, by rw [hnode]; exact Option.some_ne_none _⟩
  rintro rfl
  rw [List.append_nil] at hnode
  cases htree.root.symm.trans hnode

theorem LiveTree.ne_nil (htree : LiveTree fs liveRoot found) {move : Move}
    (h : move ∈ kept fs liveRoot excludeNames found) : move.relative ≠ [] :=
  ((htree.mem_found _).mp (mem_kept.mp h).1).1

/-- The files are a layout below any root. -/
theorem isLayout_kept (root : Path) :
    IsLayout (placed (root ++ ·) (kept fs liveRoot excludeNames found)) := by
  intro entry hentry entry' hentry' hinit
  obtain ⟨move, hmove, rfl⟩ := mem_placed.mp hentry
  obtain ⟨move', hmove', rfl⟩ := mem_placed.mp hentry'
  obtain ⟨-, htext, hfile⟩ := mem_kept.mp hmove
  obtain ⟨-, htext', hfile'⟩ := mem_kept.mp hmove'
  have hnode := (keptFile_eq_some_iff.mp hfile).2
  have hnode' := (keptFile_eq_some_iff.mp hfile').2
  have heq : move.relative = move'.relative := by
    by_contra hne
    have hinit' : move.relative <+: move'.relative := (List.prefix_append_right_inj root).mp hinit
    have hdirectory : fs.IsDirectory (liveRoot ++ move.relative) :=
      isDirectory_above (by rw [hnode']; exact Option.some_ne_none _)
        ((List.prefix_append_right_inj liveRoot).mpr hinit') (by simpa using hne)
    cases hdirectory.symm.trans hnode
  rw [heq] at hfile
  rw [heq, Option.some.inj (hfile.symm.trans hfile')]

theorem Fresh.not_prefix (hfresh : Fresh fs liveRoot destination) (htree : LiveTree fs liveRoot found) :
    ¬ destination <+: liveRoot := fun hinit =>
  ne_none_above htree.root.ne_none hinit hfresh.missing

/-- Nothing is below the new directory. -/
theorem Fresh.empty (hfresh : Fresh fs liveRoot destination) :
    (fs.withDirectories destination).Empty destination := by
  refine ⟨hfresh.free.withDirectories _, fun path hpath => ?_⟩
  have hne : destination ≠ destination ++ path := fun heq =>
    hpath (List.append_right_eq_self.mp heq.symm)
  have hlonger : ¬ destination ++ path <+: destination := fun h =>
    hne (h.eq_of_length_le (by simp)).symm
  rw [node_withDirectories, if_neg hlonger]
  refine eq_none_below ?_ (List.prefix_append destination path) hne
  exact fun h => h.ne_none hfresh.missing

theorem Fresh.node_live (hfresh : Fresh fs liveRoot destination) (path : Path) :
    (fs.withDirectories destination).node (liveRoot ++ path) = fs.node (liveRoot ++ path) := by
  rw [node_withDirectories, if_neg]
  exact fun hinit => hfresh.outside ((List.prefix_append _ _).trans hinit)

theorem Fresh.kept_eq (hfresh : Fresh fs liveRoot destination) :
    kept (fs.withDirectories destination) liveRoot excludeNames found =
      kept fs liveRoot excludeNames found := by
  unfold kept keptFile
  simp only [hfresh.node_live]

/-- Once the destination is made, the files that are kept can be copied to it. -/
theorem Fresh.ready (hfresh : Fresh fs liveRoot destination) (htree : LiveTree fs liveRoot found)
    (excludeNames : List Text) :
    Ready (fs.withDirectories destination) (liveRoot ++ ·) (destination ++ ·)
      (kept fs liveRoot excludeNames found) := by
  refine ⟨fun move hmove => ?_, fun move hmove => ?_, isLayout_kept _, fun move _ move' _ heq => ?_⟩
  · obtain ⟨-, -, hfile⟩ := mem_kept.mp hmove
    refine ⟨(htree.clear _).withDirectories _, ?_⟩
    rw [hfresh.node_live]
    exact (keptFile_eq_some_iff.mp hfile).2
  · exact hfresh.empty.open_append (htree.ne_nil hmove)
  · have hnot := not_prefix_of_apart hfresh.outside (hfresh.not_prefix htree) move.relative move'.relative
    rw [heq] at hnot
    exact hnot List.prefix_rfl

variable (E fs found liveRoot destination excludeNames)

/-- The file system after the loop of the backup. -/
def copied : Disk :=
  (fs.withDirectories destination).filled (placed (destination ++ ·) (kept fs liveRoot excludeNames found))

variable {E fs found liveRoot destination excludeNames}

theorem run_backupLiveState (htree : LiveTree fs liveRoot found)
    (hfresh : Fresh fs liveRoot destination) :
    (backupLiveState E found liveRoot destination integration release excludeNames).run fs =
      (do
        onDisk (write (named (destination ++ [manifestName]))
          (E.written (liveManifest E found liveRoot integration release excludeNames fs)))
        return liveManifest E found liveRoot integration release excludeNames fs : Prog Value).run
        (copied fs found liveRoot destination excludeNames) := by
  have hroot : fs.IsDirectory (liveRoot ++ []) := by
    rw [List.append_nil]
    exact htree.root
  have hclear := htree.clear []
  rw [List.append_nil] at hroot hclear
  have hdir : fs.isDir (named liveRoot) = true := (isDir_named hclear hroot.dropLast).mpr hroot
  have hready := hfresh.ready htree excludeNames
  rw [← hfresh.kept_eq] at hready
  have hloop : (copyLive E liveRoot destination excludeNames found).run
      (fs.withDirectories destination) = _ :=
    run_copyLive hfresh.outside (hfresh.not_prefix htree)
      (fun path _ => (htree.clear path).withDirectories _) hready
  rw [hfresh.kept_eq] at hloop
  unfold backupLiveState
  rw [run_bind, run_get]
  simp only [hdir, Bool.true_eq_false, if_false]
  rw [run_onDisk_bind (run_makeDirectories hfresh.free (.inr hfresh.missing)), run_bind, hloop]
  rfl

/-- A file is below the name of the manifest if and only if a directory has this name. -/
theorem isDirectory_copied_iff (htree : LiveTree fs liveRoot found)
    (hfresh : Fresh fs liveRoot destination) :
    (copied fs found liveRoot destination excludeNames).IsDirectory (destination ++ [manifestName]) ↔
      ∃ path file, keptFile fs liveRoot excludeNames path = some file ∧
        path.head? = some manifestName ∧ path ≠ [manifestName] := by
  have hready := hfresh.ready htree excludeNames
  have hopen := hready.open_placed
  unfold copied
  constructor
  · intro hdirectory
    by_contra hnone
    by_cases hinit : ∃ entry ∈ placed (destination ++ ·) (kept fs liveRoot excludeNames found),
        destination ++ [manifestName] <+: entry.1
    · obtain ⟨entry, hentry, hinit⟩ := hinit
      obtain ⟨move, hmove, rfl⟩ := mem_placed.mp hentry
      obtain ⟨others, hothers⟩ := (List.prefix_append_right_inj destination).mp hinit
      have hfile := (mem_kept.mp hmove).2.2
      have heq : move.relative = [manifestName] := by
        by_contra hne
        exact hnone ⟨_, _, hfile, by rw [← hothers]; rfl, hne⟩
      have hnode := node_filled_of_mem hopen hready.layout hentry
      rw [heq] at hnode
      cases hnode.symm.trans hdirectory
    · have hnode := node_filled_elsewhere hopen hready.layout
        (fun entry hentry h => hinit ⟨entry, hentry, h⟩)
      rw [hfresh.empty.below _ (List.cons_ne_nil _ _)] at hnode
      cases hnode.symm.trans hdirectory
  · rintro ⟨path, file, hfile, hhead, hne⟩
    have hentry : (destination ++ path, file) ∈ placed (destination ++ ·)
        (kept fs liveRoot excludeNames found) :=
      mem_placed.mpr ⟨⟨asPosix path, path, file⟩,
        mem_kept.mpr ⟨htree.mem_found_of_kept hfile, rfl, hfile⟩, rfl⟩
    obtain ⟨others, rfl⟩ : ∃ others, path = manifestName :: others := by
      cases path with
      | nil => cases hhead
      | cons name others => exact ⟨others, by rw [Option.some.inj hhead]⟩
    refine isDirectory_filled hopen hready.layout hentry ?_ ?_
    · exact (List.prefix_append_right_inj destination).mpr ⟨others, rfl⟩
    · exact fun heq => hne (List.append_cancel_left heq).symm

/-! ## What was saved -/

theorem clear_copied (htree : LiveTree fs liveRoot found) (hfresh : Fresh fs liveRoot destination)
    (path : Path) : (copied fs found liveRoot destination excludeNames).Clear (destination ++ path) := by
  have hready := hfresh.ready htree excludeNames
  exact Clear.filled (hfresh.empty.free_append path).clear hready.open_placed hready.layout

theorem isDirectory_copied (htree : LiveTree fs liveRoot found) (hfresh : Fresh fs liveRoot destination) :
    (copied fs found liveRoot destination excludeNames).IsDirectory destination := by
  have hready := hfresh.ready htree excludeNames
  exact IsDirectory.filled (if_pos List.prefix_rfl) hready.open_placed hready.layout

theorem node_copied (htree : LiveTree fs liveRoot found) (hfresh : Fresh fs liveRoot destination)
    {move : Move} (hmove : move ∈ kept fs liveRoot excludeNames found) :
    (copied fs found liveRoot destination excludeNames).node (destination ++ move.relative) =
      some (.file move.file) := by
  have hready := hfresh.ready htree excludeNames
  exact node_filled_of_mem hready.open_placed hready.layout (mem_placed.mpr ⟨move, hmove, rfl⟩)

variable (fs found liveRoot destination excludeNames)

/-- The file system after the backup, which has written the manifest. -/
def saved (manifest : File) : Disk :=
  (copied fs found liveRoot destination excludeNames).put (destination ++ [manifestName])
    (.file manifest)

variable {fs found liveRoot destination excludeNames}

/-- What lies in the backup for a file: the manifest has taken the place of one with its name. -/
def current (manifest : File) (move : Move) : Move :=
  if move.relative = [manifestName] then { move with file := manifest } else move

theorem relative_current (manifest : File) (move : Move) :
    (current manifest move).relative = move.relative := by
  unfold current
  split <;> rfl

theorem text_current (manifest : File) (move : Move) : (current manifest move).text = move.text := by
  unfold current
  split <;> rfl

/-- The name of the manifest is taken by a directory. -/
def Blocked (fs : Disk) (found : List Path) (liveRoot destination : Path) (excludeNames : List Text) :
    Prop :=
  (copied fs found liveRoot destination excludeNames).IsDirectory (destination ++ [manifestName])

theorem run_backupLiveState_ok (htree : LiveTree fs liveRoot found)
    (hfresh : Fresh fs liveRoot destination)
    (hblocked : ¬ Blocked fs found liveRoot destination excludeNames) :
    (backupLiveState E found liveRoot destination integration release excludeNames).run fs =
      some (.ok (liveManifest E found liveRoot integration release excludeNames fs),
        saved fs found liveRoot destination excludeNames
          (E.written (liveManifest E found liveRoot integration release excludeNames fs))) := by
  have hparent : (copied fs found liveRoot destination excludeNames).IsDirectory
      (destination ++ [manifestName]).dropLast := by
    rw [List.dropLast_concat]
    exact isDirectory_copied htree hfresh
  rw [run_backupLiveState htree hfresh,
    run_onDisk_bind (run_write (clear_copied htree hfresh _) hparent hblocked _)]
  rfl

theorem run_backupLiveState_error (htree : LiveTree fs liveRoot found)
    (hfresh : Fresh fs liveRoot destination)
    (hblocked : Blocked fs found liveRoot destination excludeNames) :
    ∃ e, (backupLiveState E found liveRoot destination integration release excludeNames).run fs =
      some (.error e, copied fs found liveRoot destination excludeNames) := by
  rw [run_backupLiveState htree hfresh,
    run_onDisk_bind_error (run_write_directory hblocked (clear_copied htree hfresh _) _)]
  exact ⟨_, rfl⟩

theorem node_saved (htree : LiveTree fs liveRoot found) (hfresh : Fresh fs liveRoot destination)
    (hblocked : ¬ Blocked fs found liveRoot destination excludeNames) (place : Path) :
    (saved fs found liveRoot destination excludeNames manifest).node place =
      if place = destination ++ [manifestName] then some (.file manifest)
      else (copied fs found liveRoot destination excludeNames).node place := by
  refine node_put ?_ hblocked _ _
  rw [List.dropLast_concat]
  exact isDirectory_copied htree hfresh

theorem clear_saved (htree : LiveTree fs liveRoot found) (hfresh : Fresh fs liveRoot destination)
    (path : Path) :
    (saved fs found liveRoot destination excludeNames manifest).Clear (destination ++ path) :=
  (clear_copied htree hfresh path).put_file

theorem source_saved (htree : LiveTree fs liveRoot found) (hfresh : Fresh fs liveRoot destination)
    (hblocked : ¬ Blocked fs found liveRoot destination excludeNames) {move : Move}
    (hmove : move ∈ kept fs liveRoot excludeNames found) :
    (saved fs found liveRoot destination excludeNames manifest).Clear
        (destination ++ move.relative) ∧
      (saved fs found liveRoot destination excludeNames manifest).node
          (destination ++ move.relative) =
        some (.file (current manifest move).file) := by
  refine ⟨clear_saved htree hfresh _, ?_⟩
  rw [node_saved htree hfresh hblocked]
  unfold current
  by_cases hname : move.relative = [manifestName]
  · rw [if_pos (by rw [hname]), if_pos hname]
  · rw [if_neg (fun heq => hname (List.append_cancel_left heq)), if_neg hname]
    exact node_copied htree hfresh hmove

/-- The files can be copied back. -/
theorem ready_saved (htree : LiveTree fs liveRoot found) (hfresh : Fresh fs liveRoot destination)
    (hblocked : ¬ Blocked fs found liveRoot destination excludeNames) {targetRoot : Path}
    (hempty : (saved fs found liveRoot destination excludeNames manifest).Empty targetRoot)
    {moves : List Move} (hmoves : moves ⊆ kept fs liveRoot excludeNames found) :
    Ready (saved fs found liveRoot destination excludeNames manifest) (destination ++ ·) (targetRoot ++ ·)
      (moves.map (current manifest)) := by
  refine ⟨?_, ?_, ?_, ?_⟩
  · intro now hnow
    obtain ⟨move, hmove, rfl⟩ := List.mem_map.mp hnow
    rw [relative_current]
    exact source_saved htree hfresh hblocked (hmoves hmove)
  · intro now hnow
    obtain ⟨move, hmove, rfl⟩ := List.mem_map.mp hnow
    rw [relative_current]
    exact hempty.open_append (htree.ne_nil (hmoves hmove))
  · intro entry hentry entry' hentry' hinit
    obtain ⟨now, hnow, rfl⟩ := mem_placed.mp hentry
    obtain ⟨now', hnow', rfl⟩ := mem_placed.mp hentry'
    obtain ⟨move, hmove, rfl⟩ := List.mem_map.mp hnow
    obtain ⟨move', hmove', rfl⟩ := List.mem_map.mp hnow'
    simp only [relative_current] at hinit ⊢
    have hsame := isLayout_kept targetRoot _ (mem_placed.mpr ⟨move, hmoves hmove, rfl⟩) _
      (mem_placed.mpr ⟨move', hmoves hmove', rfl⟩) hinit
    have hrelative : move.relative = move'.relative := List.append_cancel_left (Prod.mk.inj hsame).1
    have hfile : move.file = move'.file := (Prod.mk.inj hsame).2
    unfold current
    rw [hrelative]
    split <;> simp [hfile]
  · intro now hnow now' hnow' heq
    obtain ⟨move, hmove, rfl⟩ := List.mem_map.mp hnow
    obtain ⟨move', hmove', rfl⟩ := List.mem_map.mp hnow'
    rw [relative_current, relative_current] at heq
    -- the source is there, and nothing is below the target
    obtain ⟨-, hnode⟩ : _ ∧ (saved fs found liveRoot destination excludeNames manifest).node
        (destination ++ move.relative) = _ := source_saved htree hfresh hblocked (hmoves hmove)
    rw [heq, hempty.below _ (htree.ne_nil (hmoves hmove'))] at hnode
    cases hnode

end Backup

/-! ## The restore -/

section Restore

variable {E : Environment} {fs : Disk} {found : List Path} {liveRoot destination targetRoot : Path}
  {integration release : Text} {excludeNames : List Text}

theorem safePath_entryOf {path : Path} (hne : path ≠ []) (hnames : ∀ name ∈ path, IsEntryName name)
    (file : File) : safePath (sortKeys (entryOf E path file)) = .ok (asPosix path, path) := by
  obtain ⟨hroot, hparts⟩ := ofText_asPosix hne hnames
  have hpath : (sortKeys (entryOf E path file)).item "path" = .ok (.text (asPosix path)) := by
    rw [Value.item_sortKeys]
    rfl
  have hsafe : ¬ ((PosixPath.ofText (asPosix path)).IsAbsolute ∨
      Text.of ".." ∈ (PosixPath.ofText (asPosix path)).parts) := by
    rw [hparts]
    rintro (habsolute | hup)
    · exact habsolute hroot
    · exact (hnames _ hup).2.2 rfl
  unfold safePath
  rw [hpath]
  change (if _ then _ else _) = _
  rw [if_neg hsafe, hparts]
  rfl

theorem item_sha256_entryOf (path : Path) (file : File) :
    (sortKeys (entryOf E path file)).item "sha256" = .ok (.text (E.sha256.hexdigest file.data)) := by
  rw [Value.item_sortKeys]
  rfl

/-- What is read of a manifest that was written. -/
theorem run_restoreLiveState {files : List Value} (hclear : fs.Clear (destination ++ [manifestName]))
    (hnode : fs.node (destination ++ [manifestName]) =
      some (.file (E.written (manifestOf E integration release liveRoot files)))) :
    (restoreLiveState E destination targetRoot true).run fs =
      (do
        let restored ← restoreFiles E destination targetRoot (files.map sortKeys)
        return .object [(.of "integration", .text integration), (.of "release", .text release),
          (.of "restored", .array restored)] : Prog Value).run fs := by
  have hfiles : (manifestOf E integration release liveRoot files).sortKeys.get "files" (.array []) =
      .ok (.array (files.map sortKeys)) := by
    unfold manifestOf sortKeys
    simp [Value.get, sortKeys, Value.sortItems_eq_map]
  have hintegration : (manifestOf E integration release liveRoot files).sortKeys.get "integration" .null =
      .ok (.text integration) := by
    rw [Value.get_sortKeys]
    rfl
  have hrelease : (manifestOf E integration release liveRoot files).sortKeys.get "release" .null =
      .ok (.text release) := by
    rw [Value.get_sortKeys]
    rfl
  have hitems : manifestItems fs destination =
      .ok ((manifestOf E integration release liveRoot files).sortKeys, files.map sortKeys) := by
    unfold manifestItems
    rw [(stat_clear hclear).1.trans hnode]
    simp only [loadJson, Environment.written, hfiles, Value.elements, Except.mapError, bind, Except.bind,
      pure, Except.pure]
  unfold restoreLiveState
  rw [if_neg (by decide), run_bind, run_get]
  simp only [hitems, Act.ofExcept, run_bind (pure _), run_pure]
  rw [run_bind, run_bind]
  cases hrun : (restoreFiles E destination targetRoot (files.map sortKeys)).run fs with
  | none => rfl
  | some result =>
      obtain ⟨result, fs'⟩ := result
      cases result with
      | error e => rfl
      | ok restored =>
          simp only []
          rw [run_onValue_bind hintegration, run_onValue_bind hrelease]

/-- The entries of the manifest, and what they move. -/
def entries (E : Environment) (manifest : File) (moves : List Move) : List (Value × Move) :=
  moves.map fun move => (sortKeys (entryOf E move.relative move.file), current manifest move)

theorem fits_of_mem_entries (htree : LiveTree fs liveRoot found) {manifest : File} {moves : List Move}
    (hmoves : moves ⊆ kept fs liveRoot excludeNames found)
    (hdigest : ∀ move ∈ moves, move.relative = [manifestName] →
      E.sha256.hexdigest move.file.data = E.sha256.hexdigest manifest.data) :
    ∀ pair ∈ entries E manifest moves, Fits E pair.1 pair.2 := by
  intro pair hpair
  obtain ⟨move, hmove, rfl⟩ := List.mem_map.mp hpair
  obtain ⟨hfound, htext, -⟩ := mem_kept.mp (hmoves hmove)
  refine ⟨?_, _, item_sha256_entryOf _ _, ?_⟩
  · rw [safePath_entryOf ((htree.mem_found _).mp hfound).1 (htree.names _ hfound), text_current,
      relative_current, htext]
  · refine decide_eq_true ?_
    unfold current
    split
    · rename_i hname
      exact hdigest move hmove hname
    · rfl

theorem entries_append (manifest : File) (front rest : List Move) :
    (entries E manifest (front ++ rest)).map Prod.fst =
      (entries E manifest front).map Prod.fst ++
        rest.map fun move => sortKeys (entryOf E move.relative move.file) := by
  unfold entries
  rw [List.map_append, List.map_append, List.map_map, List.map_map]
  rfl

theorem snd_entries (manifest : File) (moves : List Move) :
    (entries E manifest moves).map Prod.snd = moves.map (current manifest) := by
  unfold entries
  rw [List.map_map]
  rfl

theorem fst_entries (manifest : File) (moves : List Move) :
    (entries E manifest moves).map Prod.fst =
      (moves.map fun move => entryOf E move.relative move.file).map sortKeys := by
  unfold entries
  rw [List.map_map, List.map_map]
  rfl

theorem node_manifest (htree : LiveTree fs liveRoot found) (hfresh : Fresh fs liveRoot destination)
    (hblocked : ¬ Blocked fs found liveRoot destination excludeNames) {manifest : File}
    (hmanifest : manifest = E.written (liveManifest E found liveRoot integration release excludeNames fs)) :
    (saved fs found liveRoot destination excludeNames manifest).node (destination ++ [manifestName]) =
      some (.file (E.written (manifestOf E integration release liveRoot
        ((kept fs liveRoot excludeNames found).map fun move => entryOf E move.relative move.file)))) := by
  rw [node_saved htree hfresh hblocked, if_pos rfl, hmanifest]
  rfl

variable (fs found liveRoot destination targetRoot excludeNames) in
/-- The file system after all files were restored. -/
def restored (manifest : File) : Disk :=
  (saved fs found liveRoot destination excludeNames manifest).filled
    (placed (targetRoot ++ ·) ((kept fs liveRoot excludeNames found).map (current manifest)))

/-- Where every digest is that of the file in the backup, all files are restored. -/
theorem run_restore_ok (htree : LiveTree fs liveRoot found) (hfresh : Fresh fs liveRoot destination)
    (hblocked : ¬ Blocked fs found liveRoot destination excludeNames) {manifest : File}
    (hmanifest : manifest = E.written (liveManifest E found liveRoot integration release excludeNames fs))
    (hempty : (saved fs found liveRoot destination excludeNames manifest).Empty targetRoot)
    (hdigest : ∀ move ∈ kept fs liveRoot excludeNames found, move.relative = [manifestName] →
      E.sha256.hexdigest move.file.data = E.sha256.hexdigest manifest.data) :
    (restoreLiveState E destination targetRoot true).run
        (saved fs found liveRoot destination excludeNames manifest) =
      some (.ok (.object [(.of "integration", .text integration), (.of "release", .text release),
          (.of "restored", .array ((kept fs liveRoot excludeNames found).map fun move =>
            .text move.text))]),
        restored fs found liveRoot destination targetRoot excludeNames manifest) := by
  have hready := ready_saved htree hfresh hblocked hempty (List.Subset.refl _)
  rw [← snd_entries] at hready
  have hrun := run_restoreFiles_append
    (fits_of_mem_entries (E := E) htree (List.Subset.refl _) hdigest)
    (fun _ hpair => hready.leads (List.mem_map_of_mem hpair)) hready []
  rw [List.append_nil, snd_entries, fst_entries] at hrun
  rw [run_restoreLiveState (clear_saved htree hfresh _)
    (node_manifest htree hfresh hblocked hmanifest), run_bind, hrun, run_bind]
  unfold entries
  simp only [restoreFiles, run_pure, List.append_nil, List.map_map, Function.comp_def, text_current]
  rfl

/-- An entry whose digest is not that of the manifest, which lies in its place, is refused. -/
theorem run_restore_refused (htree : LiveTree fs liveRoot found) (hfresh : Fresh fs liveRoot destination)
    (hblocked : ¬ Blocked fs found liveRoot destination excludeNames) {manifest : File}
    (hmanifest : manifest = E.written (liveManifest E found liveRoot integration release excludeNames fs))
    (hempty : (saved fs found liveRoot destination excludeNames manifest).Empty targetRoot) {file : File}
    (hkept : keptFile fs liveRoot excludeNames [manifestName] = some file)
    (hdigest : E.sha256.hexdigest file.data ≠ E.sha256.hexdigest manifest.data) :
    ∃ e fs', (restoreLiveState E destination targetRoot true).run
        (saved fs found liveRoot destination excludeNames manifest) = some (.error e, fs') := by
  have hmem : (⟨asPosix [manifestName], [manifestName], file⟩ : Move) ∈
      kept fs liveRoot excludeNames found := mem_kept.mpr ⟨htree.mem_found_of_kept hkept, rfl, hkept⟩
  obtain ⟨front, rest, hsplit, hfront⟩ := List.eq_append_cons_of_mem hmem
  have hsubset : front ⊆ kept fs liveRoot excludeNames found := by
    rw [hsplit]
    exact List.subset_append_left _ _
  -- the entries in front of it have other names
  have hother : ∀ move ∈ front, move.relative ≠ [manifestName] := by
    exact fun move hmove hname => hfront (eq_of_mem_kept (hsubset hmove) hkept hname ▸ hmove)
  have hready := ready_saved htree hfresh hblocked hempty hsubset
  have hall := ready_saved htree hfresh hblocked hempty (List.Subset.refl _)
  have hopen := hready.open_placed
  have hne : ∀ entry ∈ placed (targetRoot ++ ·) (front.map (current manifest)),
      entry.1 ≠ destination ++ [manifestName] := by
    intro entry hentry heq
    obtain ⟨now, hnow, rfl⟩ := mem_placed.mp hentry
    obtain ⟨move, hmove, rfl⟩ := List.mem_map.mp hnow
    refine hall.apart _ (List.mem_map_of_mem hmem) _ (List.mem_map_of_mem (hsubset hmove)) ?_
    rw [relative_current]
    exact heq.symm
  have hnode := node_filled_of_file hopen hready.layout
    (node_manifest htree hfresh hblocked hmanifest) hne
  have hclear : ((saved fs found liveRoot destination excludeNames manifest).filled
      (placed (targetRoot ++ ·) (front.map (current manifest)))).Clear (destination ++ [manifestName]) :=
    Clear.filled (clear_saved htree hfresh _) hopen hready.layout
  have hfound := (mem_kept.mp hmem).1
  have hsafe := safePath_entryOf (E := E) ((htree.mem_found _).mp hfound).1 (htree.names _ hfound) file
  have hcheck := checkEntry_of_mismatch hsafe hclear hnode (item_sha256_entryOf _ _)
    (decide_eq_false (hmanifest ▸ hdigest))
  rw [← snd_entries] at hready
  have hrun := run_restoreFiles_append (fits_of_mem_entries (E := E) htree hsubset
    (fun move hmove hname => absurd hname (hother move hmove)))
    (fun _ hpair => hready.leads (List.mem_map_of_mem hpair)) hready
    (((⟨asPosix [manifestName], [manifestName], file⟩ : Move) :: rest).map fun move =>
      sortKeys (entryOf E move.relative move.file))
  rw [← entries_append, ← hsplit, fst_entries, snd_entries, run_bind, List.map_cons,
    run_restoreFiles_cons_error hcheck] at hrun
  rw [run_restoreLiveState (clear_saved htree hfresh _) (node_manifest htree hfresh hblocked hmanifest),
    run_bind, hrun]
  exact ⟨_, _, rfl⟩

theorem blocked_iff (htree : LiveTree fs liveRoot found) (hfresh : Fresh fs liveRoot destination) :
    Blocked fs found liveRoot destination excludeNames ↔
      ∃ path file, keptFile fs liveRoot excludeNames path = some file ∧
        path.head? = some manifestName ∧ path ≠ [manifestName] := isDirectory_copied_iff htree hfresh

/-- What lies below the target after all files were restored. -/
theorem node_restored (htree : LiveTree fs liveRoot found) (hfresh : Fresh fs liveRoot destination)
    (hblocked : ¬ Blocked fs found liveRoot destination excludeNames)
    (hempty : (saved fs found liveRoot destination excludeNames manifest).Empty targetRoot) {path : Path}
    {file : File} (hkept : keptFile fs liveRoot excludeNames path = some file) :
    (restored fs found liveRoot destination targetRoot excludeNames manifest).node (targetRoot ++ path) =
      some (.file (current manifest ⟨asPosix path, path, file⟩).file) := by
  have hready := ready_saved htree hfresh hblocked hempty (List.Subset.refl _)
  have hmem : (⟨asPosix path, path, file⟩ : Move) ∈ kept fs liveRoot excludeNames found :=
    mem_kept.mpr ⟨htree.mem_found_of_kept hkept, rfl, hkept⟩
  have hentry : (targetRoot ++ path, (current manifest ⟨asPosix path, path, file⟩).file) ∈
      placed (targetRoot ++ ·) ((kept fs liveRoot excludeNames found).map (current manifest)) :=
    mem_placed.mpr ⟨_, List.mem_map_of_mem hmem, by rw [relative_current]⟩
  exact node_filled_of_mem hready.open_placed hready.layout hentry

/-- Nothing else lies there but directories. -/
theorem node_restored_of_not_kept (htree : LiveTree fs liveRoot found)
    (hfresh : Fresh fs liveRoot destination)
    (hblocked : ¬ Blocked fs found liveRoot destination excludeNames)
    (hempty : (saved fs found liveRoot destination excludeNames manifest).Empty targetRoot) {path : Path}
    (hkept : keptFile fs liveRoot excludeNames path = none) :
    (restored fs found liveRoot destination targetRoot excludeNames manifest).node (targetRoot ++ path) =
        none ∨
      (restored fs found liveRoot destination targetRoot excludeNames manifest).IsDirectory
        (targetRoot ++ path) := by
  have hready := ready_saved htree hfresh hblocked hempty (List.Subset.refl _)
  by_cases hinit : ∃ entry ∈ placed (targetRoot ++ ·)
      ((kept fs liveRoot excludeNames found).map (current manifest)), targetRoot ++ path <+: entry.1
  · obtain ⟨entry, hentry, hinit⟩ := hinit
    refine .inr (isDirectory_filled hready.open_placed hready.layout hentry hinit ?_)
    obtain ⟨now, hnow, rfl⟩ := mem_placed.mp hentry
    obtain ⟨move, hmove, rfl⟩ := List.mem_map.mp hnow
    rw [relative_current]
    intro heq
    have hfile := (mem_kept.mp hmove).2.2
    rw [← List.append_cancel_left heq, hkept] at hfile
    cases hfile
  · have hnode := node_filled_elsewhere hready.open_placed hready.layout
      fun entry hentry h => hinit ⟨entry, hentry, h⟩
    have hfree := hempty.free_append path _ List.prefix_rfl
    unfold restored IsDirectory at *
    rwa [hnode]

/-- A file that the manifest does not disturb lies in the backup as it is. -/
theorem current_of_undisturbed {path : Path} {file : File}
    (h : path = [manifestName] → file = manifest) :
    (current manifest ⟨asPosix path, path, file⟩).file = file := by
  unfold current
  split
  · rename_i hname
    exact (h hname).symm
  · rfl

theorem relative_kept :
    (kept fs liveRoot excludeNames found).map Move.relative =
      found.filter fun path => (keptFile fs liveRoot excludeNames path).isSome := by
  induction found with
  | nil => rfl
  | cons path rest ih =>
      unfold kept at ih ⊢
      cases hkept : keptFile fs liveRoot excludeNames path with
      | none =>
          rw [List.filterMap_cons_none (by rw [hkept]; rfl), List.filter_cons_of_neg (by rw [hkept]; simp),
            ih]
      | some file =>
          rw [List.filterMap_cons_some (by rw [hkept]; rfl), List.filter_cons_of_pos (by rw [hkept]; rfl),
            List.map_cons, ih]

/-- **The round trip.**  Restoring a backup gives the files of the live tree back if and only
if none of them is disturbed by the manifest. -/
theorem roundTrips_iff (htree : LiveTree fs liveRoot found) (hfresh : Fresh fs liveRoot destination)
    (hempty : ∀ written fs',
      (backupLiveState E found liveRoot destination integration release excludeNames).run fs =
        some (.ok written, fs') → fs'.Empty targetRoot) :
    RoundTrips E found liveRoot destination targetRoot integration release excludeNames fs ↔
      Undisturbed E found liveRoot integration release excludeNames fs := by
  constructor
  · rintro ⟨written, fs', listed, fs'', hbackup, hrestore, -, -, hfiles, -⟩ path file hkept hhead
    have hblocked : ¬ Blocked fs found liveRoot destination excludeNames := by
      intro hblocked
      obtain ⟨e, hrun⟩ := run_backupLiveState_error (E := E) htree hfresh hblocked
      cases hrun.symm.trans hbackup
    have hname : path = [manifestName] := by
      by_contra hne
      exact hblocked ((blocked_iff htree hfresh).mpr ⟨path, file, hkept, hhead, hne⟩)
    subst hname
    have hrun : (backupLiveState E found liveRoot destination integration release excludeNames).run fs =
        _ := run_backupLiveState_ok htree hfresh hblocked
    have hempty := hempty _ _ hrun
    obtain ⟨-, rfl⟩ := Prod.mk.inj (Option.some.inj (hrun.symm.trans hbackup))
    refine ⟨rfl, ?_⟩
    by_cases hdigest : E.sha256.hexdigest file.data = E.sha256.hexdigest
        (E.written (liveManifest E found liveRoot integration release excludeNames fs)).data
    · -- the entry passes, and what is restored is the manifest
      have hok := run_restore_ok htree hfresh hblocked rfl hempty fun move hmove hname => by
        rw [eq_of_mem_kept hmove hkept hname]
        exact hdigest
      obtain ⟨-, rfl⟩ := Prod.mk.inj (Option.some.inj (hok.symm.trans hrestore))
      have hnode := node_restored htree hfresh hblocked hempty hkept
      rw [(hfiles [manifestName] file).mpr hkept] at hnode
      unfold current at hnode
      rw [if_pos rfl] at hnode
      exact Node.file.inj (Option.some.inj hnode)
    · obtain ⟨e, fs', hrun⟩ := run_restore_refused htree hfresh hblocked rfl hempty hkept hdigest
      cases hrun.symm.trans hrestore
  · intro hundisturbed
    have hblocked : ¬ Blocked fs found liveRoot destination excludeNames := by
      intro hblocked
      obtain ⟨path, file, hkept, hhead, hne⟩ := (blocked_iff htree hfresh).mp hblocked
      exact hne (hundisturbed path file hkept hhead).1
    have hsame : ∀ path file, keptFile fs liveRoot excludeNames path = some file →
        path = [manifestName] →
          file = E.written (liveManifest E found liveRoot integration release excludeNames fs) := by
      rintro path file hkept rfl
      exact (hundisturbed _ file hkept rfl).2
    have hrun : (backupLiveState E found liveRoot destination integration release excludeNames).run fs =
        _ := run_backupLiveState_ok htree hfresh hblocked
    have hempty := hempty _ _ hrun
    have hok := run_restore_ok htree hfresh hblocked rfl hempty fun move hmove hname => by
      rw [hsame _ _ (mem_kept.mp hmove).2.2 hname]
    have htexts : ((kept fs liveRoot excludeNames found).map fun move => Value.text move.text) =
        ((kept fs liveRoot excludeNames found).map Move.relative).map fun path =>
          Value.text (asPosix path) := by
      rw [List.map_map]
      exact List.map_congr_left fun move hmove => by rw [(mem_kept.mp hmove).2.1]; rfl
    rw [htexts] at hok
    refine ⟨_, _, _, _, hrun, hok, ?_, ?_, ?_, ?_⟩
    · rw [relative_kept]
      exact htree.nodup.filter _
    · intro path
      rw [relative_kept, List.mem_filter, Option.isSome_iff_exists]
      exact and_iff_right_of_imp fun ⟨file, hkept⟩ => htree.mem_found_of_kept hkept
    · intro path file
      cases hkept : keptFile fs liveRoot excludeNames path with
      | none =>
          refine iff_of_false (fun hnode => ?_) fun h => by cases h
          rcases node_restored_of_not_kept htree hfresh hblocked hempty hkept with hnone | hdirectory
          · cases hnode.symm.trans hnone
          · cases hnode.symm.trans hdirectory
      | some file' =>
          rw [node_restored htree hfresh hblocked hempty hkept,
            current_of_undisturbed (hsame path file' hkept)]
          simp
    · rintro path ⟨target, hlink⟩
      cases hkept : keptFile fs liveRoot excludeNames path with
      | none =>
          rcases node_restored_of_not_kept htree hfresh hblocked hempty hkept with hnone | hdirectory
          · cases hlink.symm.trans hnone
          · cases hlink.symm.trans hdirectory
      | some file => cases hlink.symm.trans (node_restored htree hfresh hblocked hempty hkept)

end Restore

/-! ## A live tree of one file -/

section Sample

/-- The file `/live/<name>`, and nothing else. -/
def oneFile (name : Text) : Disk := bare.withFile [.of "live", name] ⟨[], .unparsable⟩

theorem node_oneFile (name : Text) (place : Path) :
    (oneFile name).node place =
      if place = [.of "live", name] then some (.file ⟨[], .unparsable⟩)
      else if place <+: [.of "live", name] then some .directory else none := by
  have hplace : ¬ (bare : Disk).IsDirectory [.of "live", name] := fun h => by cases h
  unfold oneFile
  rw [node_withFile hplace]
  split_ifs with hfile hinit
  · rfl
  · rfl
  · cases place with
    | nil => exact absurd List.nil_prefix hinit
    | cons first rest => rfl

theorem liveTree_oneFile {name : Text} (hname : IsEntryName name) :
    LiveTree (oneFile name) [.of "live"] [[name]] := by
  refine ⟨?_, ?_, ?_, List.nodup_singleton _, ?_⟩
  · unfold IsDirectory
    rw [node_oneFile, if_neg (by simp), if_pos ⟨[name], rfl⟩]
  · rintro path front - ⟨target, hlink⟩
    rw [node_oneFile] at hlink
    split_ifs at hlink <;> cases hlink
  · intro path
    rw [List.mem_singleton, node_oneFile]
    cases path with
    | nil => simp
    | cons first rest =>
        split_ifs with hfile hinit
        · simp [show first :: rest = [name] from (List.cons.inj hfile).2]
        · exfalso
          obtain ⟨others, hothers⟩ := hinit
          simp at hothers
          simp [hothers] at hfile
        · simp only [ne_eq, reduceCtorEq, not_false_eq_true, not_true_eq_false, and_false, iff_false]
          rintro heq
          exact hfile (by rw [heq]; rfl)
  · simpa using hname

theorem fresh_oneFile (name : Text) : Fresh (oneFile name) [.of "live"] [.of "backup"] := by
  refine ⟨?_, ?_, by decide⟩
  · intro front hfront
    unfold IsDirectory
    rw [node_oneFile]
    split_ifs with hfile hinit
    · rw [hfile] at hfront
      exact absurd hfront.length_le (by simp)
    · exact .inr rfl
    · exact .inl rfl
  · rw [node_oneFile, if_neg (by simp), if_neg]
    exact fun hinit => absurd (List.cons_prefix_cons.mp hinit).1 (by decide)

/-- Whatever the backup has written, nothing is below another place. -/
theorem empty_saved_oneFile {name : Text} (hname : IsEntryName name) (manifest : File)
    (hblocked : ¬ Blocked (oneFile name) [[name]] [.of "live"] [.of "backup"] []) :
    (saved (oneFile name) [[name]] [.of "live"] [.of "backup"] [] manifest).Empty [.of "target"] := by
  have htree := liveTree_oneFile hname
  have hfresh := fresh_oneFile name
  have hready := hfresh.ready htree []
  have hnone : ∀ path, (saved (oneFile name) [[name]] [.of "live"] [.of "backup"] [] manifest).node
      (.of "target" :: path) = none := by
    intro path
    have hother : ¬ Text.of "target" = .of "backup" := by decide
    have hlive : ¬ Text.of "target" = .of "live" := by decide
    have hmanifest : Text.of "target" :: path ≠ [.of "backup"] ++ [manifestName] :=
      fun heq => hother (List.cons.inj heq).1
    rw [node_saved htree hfresh hblocked, if_neg hmanifest]
    unfold copied
    rw [node_filled_elsewhere hready.open_placed hready.layout, node_withDirectories, if_neg,
      node_oneFile, if_neg fun heq => hlive (List.cons.inj heq).1, if_neg]
    · exact fun hinit => hlive (List.cons_prefix_cons.mp hinit).1
    · exact fun hinit => hother (List.cons_prefix_cons.mp hinit).1
    · intro entry hentry hinit
      obtain ⟨move, -, rfl⟩ := mem_placed.mp hentry
      exact hother (List.cons_prefix_cons.mp hinit).1
  refine ⟨fun front hfront => ?_, fun path _ => hnone path⟩
  cases front with
  | nil => exact .inr (FileSystem.root _)
  | cons first rest =>
      left
      rw [(List.cons_prefix_cons.mp hfront).1]
      exact hnone rest

theorem empty_target_oneFile {name : Text} (hname : IsEntryName name) (written : Value) (fs' : Disk)
    (hrun : (backupLiveState sampleEnvironment [[name]] [.of "live"] [.of "backup"] (.of "mystic-linux")
      (.of "1.12") []).run (oneFile name) = some (.ok written, fs')) : fs'.Empty [.of "target"] := by
  have htree := liveTree_oneFile hname
  have hfresh := fresh_oneFile name
  by_cases hblocked : Blocked (oneFile name) [[name]] [.of "live"] [.of "backup"] []
  · obtain ⟨e, herror⟩ := run_backupLiveState_error (E := sampleEnvironment) htree hfresh hblocked
    cases herror.symm.trans hrun
  · have hok : (backupLiveState sampleEnvironment [[name]] [.of "live"] [.of "backup"]
        (.of "mystic-linux") (.of "1.12") []).run (oneFile name) = _ :=
      run_backupLiveState_ok htree hfresh hblocked
    obtain ⟨-, rfl⟩ := Prod.mk.inj (Option.some.inj (hok.symm.trans hrun))
    exact empty_saved_oneFile hname _ hblocked

theorem keptFile_oneFile {name : Text} {path : Path} {file : File}
    (h : keptFile (oneFile name) [.of "live"] [] path = some file) : path = [name] := by
  obtain ⟨-, hnode⟩ := keptFile_eq_some_iff.mp h
  rw [node_oneFile] at hnode
  split_ifs at hnode with hfile
  · exact (List.cons.inj hfile).2
  · cases hnode

/-- A live tree with one file of another name comes back. -/
theorem roundTrips_users :
    RoundTrips sampleEnvironment [[.of "users"]] [.of "live"] [.of "backup"] [.of "target"]
      (.of "mystic-linux") (.of "1.12") [] (oneFile (.of "users")) := by
  have hname : IsEntryName (.of "users") := by decide
  refine (roundTrips_iff (liveTree_oneFile hname) (fresh_oneFile _) (empty_target_oneFile hname)).mpr ?_
  intro path file hkept hhead
  rw [keptFile_oneFile hkept] at hhead
  exact absurd (Option.some.inj hhead) (by decide)

/-- A live tree with a file `backup-manifest.json`, as a restored backup may have one: the
manifest takes its place, and the restore finds another digest. -/
theorem not_roundTrips_manifestName :
    LiveTree (oneFile manifestName) [.of "live"] [[manifestName]] ∧
      Fresh (oneFile manifestName) [.of "live"] [.of "backup"] ∧
      (∀ written fs', (backupLiveState sampleEnvironment [[manifestName]] [.of "live"] [.of "backup"]
        (.of "mystic-linux") (.of "1.12") []).run (oneFile manifestName) = some (.ok written, fs') →
          fs'.Empty [.of "target"]) ∧
      ¬ RoundTrips sampleEnvironment [[manifestName]] [.of "live"] [.of "backup"] [.of "target"]
        (.of "mystic-linux") (.of "1.12") [] (oneFile manifestName) := by
  have hname : IsEntryName manifestName := by decide
  have htree := liveTree_oneFile hname
  have hfresh := fresh_oneFile manifestName
  refine ⟨htree, hfresh, empty_target_oneFile hname, ?_⟩
  rintro ⟨written, fs', listed, fs'', hbackup, hrestore, -⟩
  have hblocked : ¬ Blocked (oneFile manifestName) [[manifestName]] [.of "live"] [.of "backup"] [] := by
    intro hblocked
    obtain ⟨path, file, hkept, -, hne⟩ := (blocked_iff htree hfresh).mp hblocked
    exact hne (keptFile_oneFile hkept)
  have hok : (backupLiveState sampleEnvironment [[manifestName]] [.of "live"] [.of "backup"]
      (.of "mystic-linux") (.of "1.12") []).run (oneFile manifestName) = _ :=
    run_backupLiveState_ok htree hfresh hblocked
  obtain ⟨-, rfl⟩ := Prod.mk.inj (Option.some.inj (hok.symm.trans hbackup))
  have hkept : keptFile (oneFile manifestName) [.of "live"] [] [manifestName] =
      some ⟨[], .unparsable⟩ :=
    keptFile_eq_some_iff.mpr ⟨by decide, (node_oneFile _ _).trans (if_pos rfl)⟩
  have hdigest : sampleEnvironment.sha256.hexdigest [] ≠ sampleEnvironment.sha256.hexdigest [0] := by
    decide
  obtain ⟨e, fs', hrun⟩ := run_restore_refused htree hfresh hblocked rfl
    (empty_saved_oneFile hname _ hblocked) hkept hdigest
  cases hrun.symm.trans hrestore

end Sample

end UltimateBBSBox.Integrations.Hardening

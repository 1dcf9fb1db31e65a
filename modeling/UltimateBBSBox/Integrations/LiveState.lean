import UltimateBBSBox.Integrations.Hardening
import UltimateBBSBox.Library.PastLinks

/-!
# What the loops of backup and restore do

Where no link is in the way and the files do not get in each other's way, each loop is a
sequence of files that are written (`run_copyLive`, `run_restoreFiles_append`).
-/

namespace UltimateBBSBox.Integrations.Hardening

open Act FileSystem
open Archive (Value)
open Deployment (asPosix)

/-- An operation that takes effect, and what comes after it. -/
theorem run_onDisk_bind {α β : Type} {act : Act Disk Errno α} {a : α} {fs fs' : Disk}
    (h : act.run fs = some (.ok a, fs')) (f : α → Prog β) :
    (onDisk act >>= f).run fs = (f a).run fs' := by
  unfold onDisk
  rw [run_bind, run_mapError_of_ok h]

theorem run_onDisk_bind_error {α β : Type} {act : Act Disk Errno α} {e : Errno} {fs fs' : Disk}
    (h : act.run fs = some (.error e, fs')) (f : α → Prog β) :
    (onDisk act >>= f).run fs = some (.error (.os e), fs') := by
  unfold onDisk
  rw [run_bind, run_mapError_of_error h]

theorem run_onValue_bind {α β : Type} {result : Except Archive.Exn α} {a : α} (h : result = .ok a)
    (f : α → Prog β) (fs : Disk) : (onValue result >>= f).run fs = (f a).run fs := by
  subst h
  rfl

variable {E : Environment} {fs : Disk} {backupRoot targetRoot : Path} {src dest : Path → Path}

/-! ## Restoring -/

/-- What an entry of a manifest moves: its path as written and below the roots, and a file. -/
structure Move where
  text : Text
  relative : Path
  file : File

/-- The places of the files, and what is put there. -/
def placed (dest : Path → Path) (moves : List Move) : List (Path × File) :=
  moves.map fun move => (dest move.relative, move.file)

/-- The entry names the path and has the digest of the file. -/
def Fits (E : Environment) (item : Value) (move : Move) : Prop :=
  safePath item = .ok (move.text, move.relative) ∧
    ∃ sha256, item.item "sha256" = .ok sha256 ∧
      sha256.isText (E.sha256.hexdigest move.file.data) = true

theorem checkEntry_of_fits {item : Value} {move : Move} (hfits : Fits E item move)
    (hstat : fs.stat (named (backupRoot ++ move.relative)) = some (.file move.file)) :
    checkEntry E fs backupRoot item = .ok (move.text, move.relative) := by
  obtain ⟨hpath, sha256, hitem, hdigest⟩ := hfits
  unfold checkEntry
  simp only [hpath, hstat, hitem, hdigest, Except.mapError, bind, Except.bind, Bool.true_eq_false,
    if_false, pure, Except.pure]

theorem checkEntry_of_mismatch {item sha256 : Value} {text : Text} {relative : Path} {file : File}
    (hpath : safePath item = .ok (text, relative)) (hclear : fs.Clear (backupRoot ++ relative))
    (hfile : fs.node (backupRoot ++ relative) = some (.file file))
    (hitem : item.item "sha256" = .ok sha256)
    (hdigest : sha256.isText (E.sha256.hexdigest file.data) = false) :
    checkEntry E fs backupRoot item = .error (.live (.checksumFailed text)) := by
  have hstat := (stat_clear hclear).1.trans hfile
  unfold checkEntry
  simp only [hpath, hstat, hitem, hdigest, Except.mapError, bind, Except.bind, if_true]
  rfl

theorem run_restoreFiles_cons_error {item : Value} {e : Exn}
    (h : checkEntry E fs backupRoot item = .error e) (rest : List Value) :
    (restoreFiles E backupRoot targetRoot (item :: rest)).run fs = some (.error e, fs) := by
  rw [restoreFiles, run_bind, run_get]
  simp only [h, Act.ofExcept, run_bind (throw _), run_throw]

/-- The files can be copied one after the other, from place to place. -/
structure Ready (fs : Disk) (src dest : Path → Path) (moves : List Move) : Prop where
  source : ∀ move ∈ moves, fs.Clear (src move.relative) ∧
    fs.node (src move.relative) = some (.file move.file)
  target : ∀ move ∈ moves, fs.Clear (dest move.relative) ∧ fs.Open (dest move.relative)
  layout : IsLayout (placed dest moves)
  apart : ∀ move ∈ moves, ∀ move' ∈ moves, src move.relative ≠ dest move'.relative

theorem placed_cons (dest : Path → Path) (move : Move) (moves : List Move) :
    placed dest (move :: moves) = (dest move.relative, move.file) :: placed dest moves := rfl

theorem mem_placed {moves : List Move} {entry : Path × File} :
    entry ∈ placed dest moves ↔ ∃ move ∈ moves, (dest move.relative, move.file) = entry :=
  List.mem_map

theorem Ready.open_placed {moves : List Move} (h : Ready fs src dest moves) :
    ∀ entry ∈ placed dest moves, fs.Open entry.1 := by
  intro entry hentry
  obtain ⟨move, hmove, rfl⟩ := mem_placed.mp hentry
  exact (h.target move hmove).2

theorem Ready.clear_placed {moves : List Move} (h : Ready fs src dest moves) :
    ∀ entry ∈ placed dest moves, fs.Clear entry.1 := by
  intro entry hentry
  obtain ⟨move, hmove, rfl⟩ := mem_placed.mp hentry
  exact (h.target move hmove).1

/-- One file was copied. -/
theorem Ready.step {move : Move} {rest : List Move} (h : Ready fs src dest (move :: rest)) :
    Ready (fs.withFile (dest move.relative) move.file) src dest rest := by
  obtain ⟨-, hopen⟩ := h.target move List.mem_cons_self
  have hbeside : ∀ move' ∈ rest, Beside (dest move.relative) (dest move'.relative) :=
    fun move' hmove' => IsLayout.beside h.layout (mem_placed.mpr ⟨move', hmove', rfl⟩)
  refine ⟨fun move' hmove' => ?_, fun move' hmove' => ?_, ?_, fun a ha b hb => ?_⟩
  · obtain ⟨hclear, hfile⟩ := h.source move' (List.mem_cons_of_mem _ hmove')
    refine ⟨hclear.withFile hopen.2, ?_⟩
    -- the source is no directory above the new file, and it is not the new file
    have hne := h.apart move' (List.mem_cons_of_mem _ hmove') move List.mem_cons_self
    rw [node_withFile hopen.2, if_neg hne, if_neg, hfile]
    intro hinit
    rcases hopen.1 _ (prefix_dropLast hinit hne) with hnode | hnode
    · cases hnode.symm.trans hfile
    · cases hnode.symm.trans hfile
  · obtain ⟨hclear, hopen'⟩ := h.target move' (List.mem_cons_of_mem _ hmove')
    exact ⟨hclear.withFile hopen.2, (open_withFile_iff hopen (hbeside move' hmove')).mpr hopen'⟩
  · exact h.layout.of_subset (List.subset_cons_self _ _)
  · exact h.apart a (List.mem_cons_of_mem _ ha) b (List.mem_cons_of_mem _ hb)

/-- The first file is copied, and then comes the rest. -/
theorem Ready.run_copy {α : Type} {move : Move} {moves : List Move}
    (h : Ready fs src dest (move :: moves)) (f : Unit → Prog α) :
    (onDisk (makeDirectories true (dest move.relative).dropLast) >>= fun _ =>
      onDisk (copyFile (named (src move.relative)) (named (dest move.relative))) >>= f).run fs =
        (f ()).run (fs.withFile (dest move.relative) move.file) := by
  obtain ⟨hclear, hfile⟩ := h.source move List.mem_cons_self
  obtain ⟨hclear', hfree, hplace⟩ := h.target move List.mem_cons_self
  have hne := h.apart move List.mem_cons_self move List.mem_cons_self
  have hparent : (fs.withDirectories (dest move.relative).dropLast).IsDirectory
      (dest move.relative).dropLast := if_pos List.prefix_rfl
  have hfile' : (fs.withDirectories (dest move.relative).dropLast).node (src move.relative) =
      some (.file move.file) := by
    rw [node_withDirectories, if_neg, hfile]
    intro hinit
    rcases hfree _ hinit with hnode | hnode
    · cases hnode.symm.trans hfile
    · cases hnode.symm.trans hfile
  rw [run_onDisk_bind (run_makeDirectories hfree (.inl rfl)),
    run_onDisk_bind (run_copyFile (hclear.withDirectories _) hfile' (hclear'.withDirectories _) hparent
      (not_isDirectory_withDirectories hplace) hne)]
  rfl

/-- Where the path of an entry leads from below the roots. -/
structure Leads (fs : Disk) (backupRoot targetRoot : Path) (src dest : Path → Path)
    (relative : Path) : Prop where
  source : fs.Reaches (backupRoot ++ relative) (src relative)
  target : fs.LeadsTo (targetRoot ++ relative) (dest relative)

theorem Leads.keeps {fs' : Disk} {relative : Path} (h : Leads fs backupRoot targetRoot src dest relative)
    (hkeeps : fs.Keeps fs') : Leads fs' backupRoot targetRoot src dest relative :=
  ⟨h.source.keeps hkeeps, h.target.keeps hkeeps⟩

/-- Without links they lead where their names say. -/
theorem Leads.of_clear {relative : Path} (hsource : fs.Clear (backupRoot ++ relative))
    (hne : backupRoot ++ relative ≠ []) (htarget : fs.Clear (targetRoot ++ relative)) :
    Leads fs backupRoot targetRoot (backupRoot ++ ·) (targetRoot ++ ·) relative :=
  ⟨hsource.reaches hne, htarget.leadsTo⟩

theorem Ready.leads {moves : List Move} (h : Ready fs (backupRoot ++ ·) (targetRoot ++ ·) moves)
    {move : Move} (hmove : move ∈ moves) :
    Leads fs backupRoot targetRoot (backupRoot ++ ·) (targetRoot ++ ·) move.relative := by
  obtain ⟨hsource, hfile⟩ := h.source move hmove
  refine Leads.of_clear hsource (fun hnil => ?_) (h.target move hmove).1
  rw [hnil, fs.root] at hfile
  cases hfile

/-- Directories are made and a file is copied as from place to place. -/
theorem Leads.run_copy {α : Type} {relative : Path} (h : Leads fs backupRoot targetRoot src dest relative)
    (f : Unit → Prog α) :
    (onDisk (makeDirectories true (targetRoot ++ relative).dropLast) >>= fun _ =>
      onDisk (copyFile (named (backupRoot ++ relative)) (named (targetRoot ++ relative))) >>= f).run fs =
    (onDisk (makeDirectories true (dest relative).dropLast) >>= fun _ =>
      onDisk (copyFile (named (src relative)) (named (dest relative))) >>= f).run fs := by
  have hdirectories := h.target.run_makeDirectories
  rcases (h.target.clear.above (List.dropLast_prefix _)).free_or_file with
    hfree | ⟨front, content, hfront, hfile⟩
  · rw [run_makeDirectories hfree (.inl rfl)] at hdirectories
    have hkept := h.keeps (keeps_withDirectories hfree)
    rw [run_onDisk_bind hdirectories, run_onDisk_bind (run_makeDirectories hfree (.inl rfl))]
    unfold onDisk
    rw [run_bind, run_bind, run_mapError_congr (hkept.target.run_copyFile hkept.source)]
  · obtain ⟨e, hblocked⟩ : ∃ e, (makeDirectories true (dest relative).dropLast).run fs =
        some (.error e, fs) :=
      run_makeDirectories_blocked (h.target.clear.above (List.dropLast_prefix _)) hfront hfile
    rw [run_onDisk_bind_error hblocked, run_onDisk_bind_error (hdirectories.trans hblocked)]

theorem run_restoreFiles_cons {item : Value} {move : Move} {moves : List Move} (hfits : Fits E item move)
    (hleads : Leads fs backupRoot targetRoot src dest move.relative)
    (h : Ready fs src dest (move :: moves)) (rest : List Value) :
    (restoreFiles E backupRoot targetRoot (item :: rest)).run fs =
      (do
        let others ← restoreFiles E backupRoot targetRoot rest
        return .text move.text :: others : Prog (List Value)).run
        (fs.withFile (dest move.relative) move.file) := by
  obtain ⟨-, hfile⟩ := h.source move List.mem_cons_self
  rw [restoreFiles, run_bind, run_get]
  simp only [checkEntry_of_fits hfits (hleads.source.stat_eq.trans hfile), Act.ofExcept,
    run_bind (pure _), run_pure]
  rw [hleads.run_copy]
  exact h.run_copy _

/-- **Entries that are in order** are copied one after the other, and the rest comes after them. -/
theorem run_restoreFiles_append {pairs : List (Value × Move)}
    (hfits : ∀ pair ∈ pairs, Fits E pair.1 pair.2)
    (hleads : ∀ pair ∈ pairs, Leads fs backupRoot targetRoot src dest pair.2.relative)
    (h : Ready fs src dest (pairs.map Prod.snd)) (rest : List Value) :
    (restoreFiles E backupRoot targetRoot (pairs.map Prod.fst ++ rest)).run fs =
      (do
        let others ← restoreFiles E backupRoot targetRoot rest
        return pairs.map (fun pair => .text pair.2.text) ++ others : Prog (List Value)).run
        (fs.filled (placed dest (pairs.map Prod.snd))) := by
  induction pairs generalizing fs with
  | nil =>
      change _ = run _ fs
      rw [run_bind, List.map_nil, List.nil_append]
      cases hrun : (restoreFiles E backupRoot targetRoot rest).run fs with
      | none => rfl
      | some result =>
          obtain ⟨result, fs'⟩ := result
          cases result <;> rfl
  | cons pair pairs ih =>
      obtain ⟨hfirst, hothers⟩ := List.forall_mem_cons.mp hfits
      obtain ⟨hlead, hleads⟩ := List.forall_mem_cons.mp hleads
      have hkeeps : fs.Keeps (fs.withFile (dest pair.2.relative) pair.2.file) := by
        obtain ⟨hclear, hopen⟩ := h.target pair.2 List.mem_cons_self
        exact keeps_withFile hclear hopen _
      rw [List.map_cons, List.cons_append, run_restoreFiles_cons hfirst hlead h, run_bind,
        ih hothers (fun pair' hpair' => (hleads pair' hpair').keeps hkeeps) h.step]
      simp only [List.map_cons, placed_cons, filled_cons, run_bind]
      cases hrun : (restoreFiles E backupRoot targetRoot rest).run _ with
      | none => rfl
      | some result =>
          obtain ⟨result, fs'⟩ := result
          cases result <;> rfl

/-! ## Backing up -/

variable {liveRoot destination : Path} {excludeNames : List Text} {found : List Path}

/-- The file at a path below the live root, if it is backed up. -/
def keptFile (fs : Disk) (liveRoot : Path) (excludeNames : List Text) (path : Path) : Option File :=
  if Excluded excludeNames path then none
  else
    match fs.node (liveRoot ++ path) with
    | some (.file file) => some file
    | _ => none

/-- The files that are backed up. -/
def kept (fs : Disk) (liveRoot : Path) (excludeNames : List Text) (found : List Path) : List Move :=
  found.filterMap fun path => (keptFile fs liveRoot excludeNames path).map (⟨asPosix path, path, ·⟩)

theorem keptFile_eq_some_iff {path : Path} {file : File} :
    keptFile fs liveRoot excludeNames path = some file ↔
      ¬ Excluded excludeNames path ∧ fs.node (liveRoot ++ path) = some (.file file) := by
  unfold keptFile
  split
  · rename_i hexcluded
    exact iff_of_false (fun h => by cases h) fun h => h.1 hexcluded
  · rename_i hexcluded
    split
    · rename_i file' hnode
      simp [hexcluded, hnode]
    · rename_i hnode
      exact iff_of_false (fun h => by cases h) fun h => hnode file h.2

/-- A place below one root is not above a place below another. -/
theorem not_prefix_of_apart {root root' : Path} (h : ¬ root <+: root') (h' : ¬ root' <+: root)
    (path path' : Path) : ¬ root ++ path <+: root' ++ path' := by
  intro hinit
  rcases List.prefix_or_prefix_of_prefix ((List.prefix_append root path).trans hinit)
    (List.prefix_append root' path') with hroot | hroot
  · exact h hroot
  · exact h' hroot

/-- **The loop of the backup** copies the files that are kept. -/
theorem run_copyLive (hout : ¬ liveRoot <+: destination) (hout' : ¬ destination <+: liveRoot)
    (hclear : ∀ path ∈ found, fs.Clear (liveRoot ++ path))
    (h : Ready fs (liveRoot ++ ·) (destination ++ ·) (kept fs liveRoot excludeNames found)) :
    (copyLive E liveRoot destination excludeNames found).run fs =
      some (.ok ((kept fs liveRoot excludeNames found).map fun move => entryOf E move.relative move.file),
        fs.filled (placed (destination ++ ·) (kept fs liveRoot excludeNames found))) := by
  induction found generalizing fs with
  | nil => rfl
  | cons path rest ih =>
      obtain ⟨hpath, hrest⟩ := List.forall_mem_cons.mp hclear
      have hlink := isSymlink_clear hpath
      have hfile := isFile_clear hpath
      rw [copyLive, run_bind, run_get]
      simp only [hlink, Bool.false_eq_true, if_false]
      cases hkept : keptFile fs liveRoot excludeNames path with
      | none =>
          -- a directory, or a path that is excluded
          have hskipped : fs.isFile (named (liveRoot ++ path)) = false ∨ Excluded excludeNames path := by
            by_contra hnot
            obtain ⟨hisFile, hexcluded⟩ := not_or.mp hnot
            obtain ⟨file, hnode⟩ := hfile.mp (Bool.not_eq_false _ ▸ hisFile)
            rw [keptFile_eq_some_iff.mpr ⟨hexcluded, hnode⟩] at hkept
            cases hkept
          have hcons : kept fs liveRoot excludeNames (path :: rest) =
              kept fs liveRoot excludeNames rest := by
            unfold kept
            rw [List.filterMap_cons_none (by rw [hkept]; rfl)]
          rw [hcons] at h ⊢
          rw [if_pos hskipped]
          exact ih hrest h
      | some file =>
          obtain ⟨hexcluded, hnode⟩ := keptFile_eq_some_iff.mp hkept
          have htaken : ¬ (fs.isFile (named (liveRoot ++ path)) = false ∨ Excluded excludeNames path) := by
            rw [hfile.mpr ⟨file, hnode⟩]
            simp [hexcluded]
          have hcons : kept fs liveRoot excludeNames (path :: rest) =
              ⟨asPosix path, path, file⟩ :: kept fs liveRoot excludeNames rest := by
            unfold kept
            rw [List.filterMap_cons_some (by rw [hkept]; rfl)]
          rw [hcons] at h ⊢
          rw [if_neg htaken, h.run_copy]
          obtain ⟨-, hopen⟩ := h.target _ List.mem_cons_self
          have hpath' : (fs.withFile (destination ++ path) file).Clear (liveRoot ++ path) :=
            hpath.withFile hopen.2
          -- nothing below the live root is changed
          have hsame : ∀ path', (fs.withFile (destination ++ path) file).node (liveRoot ++ path') =
              fs.node (liveRoot ++ path') := by
            intro path'
            have hnot := not_prefix_of_apart hout hout' path' path
            have hne : liveRoot ++ path' ≠ destination ++ path := fun heq => hnot (heq ▸ List.prefix_rfl)
            rw [node_withFile hopen.2, if_neg hne, if_neg hnot]
          have hcontent : (content (liveRoot ++ path)).run (fs.withFile (destination ++ path) file) =
              some (.ok file, fs.withFile (destination ++ path) file) := by
            unfold content
            simp only [run_bind, run_get, (stat_clear hpath').1.trans ((hsame path).trans hnode)]
            rfl
          have hkept' : kept (fs.withFile (destination ++ path) file) liveRoot excludeNames rest =
              kept fs liveRoot excludeNames rest := by
            unfold kept keptFile
            simp only [hsame]
          have hstep := h.step
          rw [← hkept'] at hstep
          rw [run_bind, hcontent]
          simp only []
          rw [run_bind, ih (fun path' hpath' => (hrest path' hpath').withFile hopen.2) hstep, hkept']
          rfl

end UltimateBBSBox.Integrations.Hardening

import UltimateBBSBox.Library.Layout

/-!
# Paths past links

A path may go through links to directories that are there.  Behind the last of them it goes on
without links, so that it names a place as a path without links does: what an operation does at
the path is what it does at the place (`Reaches.locate_eq`, `LeadsTo.run_makeDirectories`,
`LeadsTo.run_copyFile`).  Files that are written and directories that are made do not change
where a path leads (`LeadsTo.keeps`).
-/

namespace FileSystem

variable {N C : Type} {fs fs' fs'' : FileSystem N C} {place place' path path' here directory : List N}
  {steps : List (Step N)} {links : ℕ}

theorem named_append (front rest : List N) : named (front ++ rest) = named front ++ named rest :=
  List.map_append

theorem named_ne_nil (h : path ≠ []) : named path ≠ [] := fun heq => h (List.map_eq_nil_iff.mp heq)

/-! ## Walks that go on -/

theorem walk_append {jump : List N → List (Step N) → Except Errno (List N)}
    {jumps : Bool → List N → List (Step N) → Except Errno (List N)}
    (hjump : ∀ here steps, jump here steps = .ok directory → ∃ left, ∀ final rest, rest ≠ [] →
      jumps final here (steps ++ rest) = fs.locate final left directory rest)
    (hend : ∃ left, ∀ final rest, walk fs final (jumps final) directory rest =
      fs.locate final left directory rest)
    (hdirectory : fs.IsDirectory directory) (h : walk fs true jump here steps = .ok directory) :
    ∃ left, ∀ final rest, rest ≠ [] →
      walk fs final (jumps final) here (steps ++ rest) = fs.locate final left directory rest := by
  induction steps generalizing here with
  | nil =>
      obtain rfl := Except.ok.inj h
      obtain ⟨left, hend⟩ := hend
      exact ⟨left, fun final rest _ => hend final rest⟩
  | cons step steps ih =>
      cases step with
      | up => exact ih h
      | down name =>
          simp only [List.cons_append, walk] at h ⊢
          split at h
          · -- nothing is there, where the directory should be
            rename_i hnode
            split at h
            · obtain rfl := Except.ok.inj h
              cases hdirectory.symm.trans hnode
            · cases h
          · exact ih h
          · rename_i hnode
            split at h
            · obtain rfl := Except.ok.inj h
              cases hdirectory.symm.trans hnode
            · cases h
          · rw [if_neg (by simp)] at h
            obtain ⟨left, hleft⟩ := hjump _ _ h
            refine ⟨left, fun final rest hrest => ?_⟩
            rw [if_neg (by simp [hrest]), ← List.append_assoc]
            exact hleft final rest hrest

/-- From a directory that is reached the walk goes on, with as many links as are left. -/
theorem locate_append (h : fs.locate true links here steps = .ok directory)
    (hdirectory : fs.IsDirectory directory) :
    ∃ left, ∀ final rest, rest ≠ [] →
      fs.locate final links here (steps ++ rest) = fs.locate final left directory rest := by
  induction links generalizing here steps with
  | zero => exact walk_append (fun _ _ h => by cases h) ⟨0, fun _ _ => rfl⟩ hdirectory h
  | succ links ih => exact walk_append (fun _ _ => ih) ⟨links + 1, fun _ _ => rfl⟩ hdirectory h

/-! ## Where a walk ends -/

theorem not_isLink {node : Option (Node N C)} (hnode : fs.node place = node)
    (hother : ∀ target, node ≠ some (.link target)) : ¬ fs.IsLink place := by
  rintro ⟨target, hlink⟩
  exact hother target (hnode.symm.trans hlink)

theorem walk_end {jump : List N → List (Step N) → Except Errno (List N)}
    (hjump : ∀ here steps, fs.IsDirectory here → jump here steps = .ok place →
      fs.IsDirectory place.dropLast ∧ ¬ fs.IsLink place)
    (hhere : fs.IsDirectory here) (h : walk fs true jump here steps = .ok place) :
    fs.IsDirectory place.dropLast ∧ ¬ fs.IsLink place := by
  induction steps generalizing here with
  | nil =>
      obtain rfl := Except.ok.inj h
      exact ⟨hhere.dropLast, not_isLink hhere (by simp)⟩
  | cons step steps ih =>
      cases step with
      | up => exact ih hhere.dropLast h
      | down name =>
          rw [walk] at h
          split at h
          · rename_i hnode
            split at h
            · obtain rfl := Except.ok.inj h
              rw [List.dropLast_concat]
              exact ⟨hhere, not_isLink hnode (by simp)⟩
            · cases h
          · rename_i hnode
            exact ih hnode h
          · rename_i hnode
            split at h
            · obtain rfl := Except.ok.inj h
              rw [List.dropLast_concat]
              exact ⟨hhere, not_isLink hnode (by simp)⟩
            · cases h
          · rw [if_neg (by simp)] at h
            refine hjump _ _ ?_ h
            split
            · exact fs.root
            · exact hhere

/-- What is followed to its end is in a directory, and no link. -/
theorem locate_end (hhere : fs.IsDirectory here) (h : fs.locate true links here steps = .ok place) :
    fs.IsDirectory place.dropLast ∧ ¬ fs.IsLink place := by
  induction links generalizing here steps with
  | zero => exact walk_end (fun _ _ _ h => by cases h) hhere h
  | succ links ih => exact walk_end (fun _ _ => ih) hhere h

/-- In a directory a place that is no link is clear. -/
theorem clear_of_dropLast (hparent : fs.IsDirectory place.dropLast) (hlink : ¬ fs.IsLink place) :
    fs.Clear place := by
  rintro front hfront ⟨target, hnode⟩
  by_cases heq : front = place
  · exact hlink ⟨target, heq ▸ hnode⟩
  · have hinit := prefix_dropLast hfront heq
    by_cases hsame : front = place.dropLast
    · cases hparent.symm.trans (hsame ▸ hnode)
    · cases (isDirectory_above hparent.ne_none hinit hsame).symm.trans hnode

/-! ## File systems that lead alike -/

/-- The directories and links of `fs` are in `fs'`, and no other links. -/
structure Keeps (fs fs' : FileSystem N C) : Prop where
  directory : ∀ place, fs.IsDirectory place → fs'.IsDirectory place
  link : ∀ place target, fs'.node place = some (.link target) ↔ fs.node place = some (.link target)

theorem Keeps.refl (fs : FileSystem N C) : fs.Keeps fs := ⟨fun _ h => h, fun _ _ => Iff.rfl⟩

theorem Keeps.trans (h : fs.Keeps fs') (h' : fs'.Keeps fs'') : fs.Keeps fs'' :=
  ⟨fun place hplace => h'.directory place (h.directory place hplace),
    fun place target => (h'.link place target).trans (h.link place target)⟩

theorem Keeps.clear (h : fs.Keeps fs') (hclear : fs.Clear place) : fs'.Clear place :=
  fun front hfront ⟨target, hlink⟩ => hclear front hfront ⟨target, (h.link front target).mp hlink⟩

theorem walk_keeps {jump jump' : List N → List (Step N) → Except Errno (List N)}
    (hkeeps : fs.Keeps fs')
    (hjump : ∀ here steps, jump here steps = .ok place → jump' here steps = .ok place)
    (h : walk fs true jump here steps = .ok place) : walk fs' true jump' here steps = .ok place := by
  induction steps generalizing here with
  | nil => exact h
  | cons step steps ih =>
      cases step with
      | up => exact ih h
      | down name =>
          -- what is no directory and no link ends the walk, and what comes there ends it too
          have hend : (∀ target, fs.node (here ++ [name]) ≠ some (.link target)) →
              steps = [] → place = here ++ [name] →
              walk fs' true jump' here (.down name :: steps) = .ok place := by
            rintro hlink rfl rfl
            rw [walk]
            split
            · rfl
            · rfl
            · rfl
            · rename_i target hnode
              exact absurd ((hkeeps.link _ target).mp hnode) (hlink target)
          rw [walk] at h
          split at h
          · rename_i hnode
            split at h
            · rename_i hsteps
              refine hend (fun target hlink => ?_) hsteps (Except.ok.inj h).symm
              cases hnode.symm.trans hlink
            · cases h
          · rename_i hnode
            rw [walk, show fs'.node (here ++ [name]) = some .directory from hkeeps.directory _ hnode]
            exact ih h
          · rename_i hnode
            split at h
            · rename_i hsteps
              refine hend (fun target hlink => ?_) hsteps (Except.ok.inj h).symm
              cases hnode.symm.trans hlink
            · cases h
          · rename_i target hnode
            rw [if_neg (by simp)] at h
            rw [walk, (hkeeps.link _ target).mpr hnode]
            dsimp only
            rw [if_neg (by simp)]
            exact hjump _ _ h

theorem locate_keeps (hkeeps : fs.Keeps fs') (h : fs.locate true links here steps = .ok place) :
    fs'.locate true links here steps = .ok place := by
  induction links generalizing here steps with
  | zero => exact walk_keeps hkeeps (fun _ _ h => by cases h) h
  | succ links ih => exact walk_keeps hkeeps (fun _ _ => ih) h

/-! ## Where a path leads -/

/-- A path whose last name is no link: behind a directory that is there, it leads where its
names say. -/
def Reaches (fs : FileSystem N C) (path place : List N) : Prop :=
  ∃ front directory rest, path = front ++ rest ∧ place = directory ++ rest ∧ rest ≠ [] ∧
    fs.follow (named front) = .ok directory ∧ fs.IsDirectory directory ∧ fs.Clear place

/-- A path, its last link followed: the same, or what is there, and what can be put there in a
directory that is. -/
def LeadsTo (fs : FileSystem N C) (path place : List N) : Prop :=
  fs.Reaches path place ∨ fs.follow (named path) = .ok place

theorem Clear.reaches (h : fs.Clear place) (hne : place ≠ []) : fs.Reaches place place :=
  ⟨[], [], place, rfl, rfl, hne, rfl, fs.root, h⟩

theorem Clear.leadsTo (h : fs.Clear place) : fs.LeadsTo place place := by
  by_cases hne : place = []
  · subst hne
    exact .inr rfl
  · exact .inl (h.reaches hne)

theorem Reaches.clear (h : fs.Reaches path place) : fs.Clear place := by
  obtain ⟨front, directory, rest, -, -, -, -, -, hclear⟩ := h
  exact hclear

theorem LeadsTo.clear (h : fs.LeadsTo path place) : fs.Clear place := by
  rcases h with hreaches | hfollow
  · exact hreaches.clear
  · obtain ⟨hparent, hlink⟩ := locate_end fs.root hfollow
    exact clear_of_dropLast hparent hlink

theorem Reaches.keeps (h : fs.Reaches path place) (hkeeps : fs.Keeps fs') : fs'.Reaches path place := by
  obtain ⟨front, directory, rest, hpath, hplace, hrest, hfollow, hdirectory, hclear⟩ := h
  exact ⟨front, directory, rest, hpath, hplace, hrest, locate_keeps hkeeps hfollow,
    hkeeps.directory _ hdirectory, hkeeps.clear hclear⟩

theorem LeadsTo.keeps (h : fs.LeadsTo path place) (hkeeps : fs.Keeps fs') : fs'.LeadsTo path place :=
  h.imp (fun h => h.keeps hkeeps) (locate_keeps hkeeps)

/-- **A path past links** leads where a path without links leads. -/
theorem Reaches.locate_eq (h : fs.Reaches path place) (final : Bool) :
    fs.locate final maxLinks [] (named path) = fs.locate final maxLinks [] (named place) := by
  obtain ⟨front, directory, rest, rfl, rfl, hrest, hfollow, hdirectory, hclear⟩ := h
  obtain ⟨left, hleft⟩ := locate_append hfollow hdirectory
  rw [named_append, hleft final _ (named_ne_nil hrest)]
  by_cases hparent : fs.IsDirectory (directory ++ rest).dropLast
  · rw [locate_clear directory hclear hparent hdirectory, locate_named hclear hparent]
  · -- a directory is missing on the way, or a file is in the way
    rcases (hclear.above (List.dropLast_prefix _)).free_or_file with
      hfree | ⟨front', content, hfront, hfile⟩
    · rw [locate_missing directory hfree hparent hdirectory]
      exact (locate_missing [] hfree hparent fs.root).symm
    · rw [locate_blocked directory hclear hfront hfile hdirectory]
      exact (locate_blocked [] hclear hfront hfile fs.root).symm

theorem LeadsTo.follow_eq (h : fs.LeadsTo path place) :
    fs.follow (named path) = fs.follow (named place) := by
  rcases h with hreaches | hfollow
  · exact hreaches.locate_eq true
  · obtain ⟨hparent, hlink⟩ := locate_end fs.root hfollow
    rw [hfollow]
    exact (locate_named (clear_of_dropLast hparent hlink) hparent).symm

theorem LeadsTo.stat_eq (h : fs.LeadsTo path place) : fs.stat (named path) = fs.node place := by
  rw [← (stat_clear h.clear).1]
  unfold stat
  rw [h.follow_eq]

theorem Reaches.lstat_eq (h : fs.Reaches path place) : fs.lstat (named path) = fs.node place := by
  rw [← (stat_clear h.clear).2]
  unfold lstat entry
  rw [h.locate_eq false]

theorem Reaches.stat_eq (h : fs.Reaches path place) : fs.stat (named path) = fs.node place :=
  LeadsTo.stat_eq (.inl h)

theorem Reaches.isSymlink_eq (h : fs.Reaches path place) : fs.isSymlink (named path) = false := by
  rw [← isSymlink_clear h.clear]
  unfold isSymlink
  rw [h.lstat_eq, (stat_clear h.clear).2]

/-! ## Operations at a path -/

section Operations

variable [DecidableEq N]

theorem keeps_withDirectories (hfree : fs.Free place) : fs.Keeps (fs.withDirectories place) := by
  refine ⟨fun place' hdirectory => ?_, fun place' target => ?_⟩
  · unfold IsDirectory
    rw [node_withDirectories]
    split
    · rfl
    · exact hdirectory
  · rw [node_withDirectories]
    split
    · rename_i hinit
      refine iff_of_false (fun h => by cases h) fun hlink => ?_
      exact hfree.clear place' hinit ⟨target, hlink⟩
    · rfl

theorem keeps_withFile (hclear : fs.Clear place) (hopen : fs.Open place) (content : C) :
    fs.Keeps (fs.withFile place content) := by
  refine ⟨fun place' hdirectory => ?_, fun place' target => ?_⟩
  · unfold IsDirectory
    rw [node_withFile hopen.2]
    split
    · rename_i heq
      exact absurd (heq ▸ hdirectory) hopen.2
    · split
      · rfl
      · exact hdirectory
  · rw [node_withFile hopen.2]
    split
    · rename_i heq
      exact iff_of_false (fun h => by cases h) fun hlink => hclear place List.prefix_rfl ⟨target, heq ▸ hlink⟩
    · split
      · rename_i hinit
        exact iff_of_false (fun h => by cases h) fun hlink => hclear place' hinit ⟨target, hlink⟩
      · rfl

theorem eq_of_run_mkdir {steps : List (Step N)} {e : Errno}
    (hrun : (mkdir steps).run fs = some (.error e, fs')) : fs' = fs := by
  cases hentry : fs.entry steps with
  | error e' =>
      rw [run_mkdir_error hentry] at hrun
      exact (Prod.mk.inj (Option.some.inj hrun)).2.symm
  | ok place =>
      rw [run_mkdir_of_entry hentry] at hrun
      split at hrun
      · exact (Prod.mk.inj (Option.some.inj hrun)).2.symm
      · cases hrun

theorem Reaches.run_mkdir (h : fs.Reaches path place) :
    (mkdir (named path)).run fs = (mkdir (named place)).run fs := by
  have hentry : fs.entry (named path) = fs.entry (named place) := h.locate_eq false
  unfold mkdir
  simp only [Act.run_bind, Act.run_get, hentry]

omit [DecidableEq N] in
theorem Reaches.isDir_eq (h : fs.Reaches path place) :
    fs.isDir (named path) = fs.isDir (named place) := by
  unfold isDir
  rw [h.stat_eq, (stat_clear h.clear).1]

/-- A directory is made, or found, as at the place. -/
theorem Reaches.run_mkdirIfMissing (h : fs.Reaches path place) (existOk : Bool) :
    (mkdirIfMissing existOk (named path)).run fs = (mkdirIfMissing existOk (named place)).run fs := by
  unfold mkdirIfMissing
  rw [Act.run_tryCatch, Act.run_tryCatch, h.run_mkdir]
  cases hrun : (mkdir (named place)).run fs with
  | none => rfl
  | some result =>
      obtain ⟨result, fs₁⟩ := result
      cases result with
      | ok _ => rfl
      | error e =>
          obtain rfl := eq_of_run_mkdir hrun
          simp only [Act.run_bind, Act.run_get, h.isDir_eq]

/-- The directory at the end of a path, and those above it where it is not found. -/
theorem run_makeDirectories_concat (above : List N) (name : N) :
    (makeDirectories true (above ++ [name])).run fs =
      match (mkdir (named (above ++ [name]))).run fs with
      | none => none
      | some (.ok _, fs') => some (.ok (), fs')
      | some (.error e, fs') =>
          if e = .notFound then
            (do
              makeDirectories true above
              mkdirIfMissing true (named (above ++ [name])) : Act (FileSystem N C) Errno Unit).run fs'
          else if fs'.isDir (named (above ++ [name])) = true then some (.ok (), fs')
          else some (.error e, fs') := by
  have hreverse : (named (above ++ [name])).reverse = .down name :: (named above).reverse := by
    simp [named]
  have hpath : (Step.down name :: (named above).reverse).reverse = named (above ++ [name]) := by
    simp [named]
  unfold makeDirectories
  rw [hreverse, mkdirParents, hpath, Act.run_tryCatch]
  cases (mkdir (named (above ++ [name]))).run fs with
  | none => rfl
  | some result =>
      obtain ⟨result, fs'⟩ := result
      cases result with
      | ok _ => rfl
      | error e =>
          by_cases he : e = .notFound
          · simp only [he, if_true]
          · by_cases hdir : fs'.isDir (named (above ++ [name])) = true
            · simp [he, hdir, Act.run_bind, Act.run_get, Act.run_pure]
            · simp [he, hdir, Act.run_bind, Act.run_get, Act.run_throw]

theorem keeps_filled {entries : List (List N × C)} (hclear : ∀ entry ∈ entries, fs.Clear entry.1)
    (hopen : ∀ entry ∈ entries, fs.Open entry.1) (hlayout : IsLayout entries) :
    fs.Keeps (fs.filled entries) := by
  induction entries generalizing fs with
  | nil => exact .refl fs
  | cons entry rest ih =>
      obtain ⟨hfirst, hothers⟩ := List.forall_mem_cons.mp hopen
      obtain ⟨hway, hways⟩ := List.forall_mem_cons.mp hclear
      refine (keeps_withFile hway hfirst entry.2).trans (ih (fun entry' hentry' => ?_)
        (fun entry' hentry' => ?_) (hlayout.of_subset (List.subset_cons_self _ _)))
      · exact (hways entry' hentry').withFile hfirst.2
      · exact (open_withFile_iff hfirst (hlayout.beside hentry')).mpr (hothers entry' hentry')

/-- Behind a directory that is there, directories are made as at the place. -/
theorem run_makeDirectories_past {front rest : List N} (hfollow : fs.follow (named front) = .ok directory)
    (hdirectory : fs.IsDirectory directory) (hclear : fs.Clear (directory ++ rest)) :
    (makeDirectories true (front ++ rest)).run fs = (makeDirectories true (directory ++ rest)).run fs := by
  induction rest using List.reverseRecOn with
  | nil =>
      -- both are there
      rw [List.append_nil, List.append_nil]
      have hfollow' : fs.follow (named directory) = .ok directory :=
        locate_named (by simpa using hclear) hdirectory.dropLast
      rw [run_makeDirectories_of_isDir (isDir_iff.mpr (stat_eq_some_iff.mpr ⟨_, hfollow, hdirectory⟩)),
        run_makeDirectories_of_isDir (isDir_iff.mpr (stat_eq_some_iff.mpr ⟨_, hfollow', hdirectory⟩))]
  | append_singleton above name ih =>
      have habove : fs.Clear (directory ++ above) := by
        refine hclear.above ?_
        rw [← List.append_assoc]
        exact List.prefix_append _ _
      have hreaches : fs.Reaches (front ++ above ++ [name]) (directory ++ above ++ [name]) :=
        ⟨front, directory, above ++ [name], List.append_assoc _ _ _, List.append_assoc _ _ _, by simp,
          hfollow, hdirectory, by rwa [List.append_assoc]⟩
      rw [← List.append_assoc, ← List.append_assoc, run_makeDirectories_concat,
        run_makeDirectories_concat, hreaches.run_mkdir]
      cases hrun : (mkdir (named (directory ++ above ++ [name]))).run fs with
      | none => rfl
      | some result =>
          obtain ⟨result, fs₁⟩ := result
          cases result with
          | ok _ => rfl
          | error e =>
              obtain rfl := eq_of_run_mkdir hrun
              dsimp only
              rw [hreaches.isDir_eq, Act.run_bind, Act.run_bind, ih habove]
              rcases habove.free_or_file with hfree | ⟨front', content, hfront, hfile⟩
              · -- the directories above are made, and the path leads where it did
                rw [run_makeDirectories hfree (.inl rfl)]
                have hlast := (hreaches.keeps (keeps_withDirectories hfree)).run_mkdirIfMissing true
                dsimp only
                rw [hlast]
              · obtain ⟨e', hblocked⟩ : ∃ e', (makeDirectories true (directory ++ above)).run fs₁ =
                    some (.error e', fs₁) := run_makeDirectories_blocked habove hfront hfile
                rw [hblocked]

theorem LeadsTo.run_makeDirectories (h : fs.LeadsTo path place) :
    (makeDirectories true path.dropLast).run fs = (makeDirectories true place.dropLast).run fs := by
  rcases h with ⟨front, directory, rest, rfl, rfl, hrest, hfollow, hdirectory, hclear⟩ | hfollow
  · rw [List.dropLast_append_of_ne_nil hrest, List.dropLast_append_of_ne_nil hrest]
    refine run_makeDirectories_past hfollow hdirectory (hclear.above ?_)
    exact (List.prefix_append_right_inj _).mpr (List.dropLast_prefix _)
  · -- the directories of both are there
    obtain ⟨hparent, hlink⟩ := locate_end fs.root hfollow
    have hdir : fs.isDir (named path.dropLast) = true := by
      rcases List.eq_nil_or_concat path with rfl | ⟨above, name, rfl⟩
      · exact isDir_iff.mpr (stat_eq_some_iff.mpr ⟨[], rfl, fs.root⟩)
      · rw [List.concat_eq_append] at hfollow ⊢
        unfold follow at hfollow
        rw [named_append] at hfollow
        obtain ⟨place', habove, hdirectory⟩ := locate_parent fs.root hfollow
        rw [List.dropLast_concat]
        exact isDir_iff.mpr (stat_eq_some_iff.mpr ⟨place', habove, hdirectory⟩)
    have hdir' : fs.isDir (named place.dropLast) = true :=
      (isDir_named (clear_of_dropLast hparent.dropLast fun ⟨_, h⟩ => by cases hparent.symm.trans h)
        hparent.dropLast).mpr hparent
    rw [run_makeDirectories_of_isDir hdir, run_makeDirectories_of_isDir hdir']

/-- A file is copied as it is from place to place. -/
theorem LeadsTo.run_copyFile {source source' : List N} (hsource : fs.Reaches source source')
    (h : fs.LeadsTo path place) :
    (copyFile (named source) (named path)).run fs = (copyFile (named source') (named place)).run fs := by
  have hfollow : fs.follow (named source) = fs.follow (named source') := hsource.locate_eq true
  have hsame : fs.sameFile (named source) (named path) = fs.sameFile (named source') (named place) := by
    unfold sameFile
    rw [hfollow, h.follow_eq]
  have hwrite : ∀ content, (write (named path) content).run fs = (write (named place) content).run fs := by
    intro content
    unfold write
    simp only [Act.run_bind, Act.run_get, h.follow_eq]
  have hlstat : fs.lstat (named source) = fs.node source' := hsource.lstat_eq
  have hlstat' : fs.lstat (named source') = fs.node source' := (stat_clear hsource.clear).2
  unfold copyFile
  rw [Act.run_bind, Act.run_bind, Act.run_get]
  dsimp only
  rw [hsame, hlstat, hlstat', hfollow]
  by_cases hother : fs.sameFile (named source') (named place) = true
  · rw [if_pos hother, if_pos hother]
    rfl
  rw [if_neg hother, if_neg hother]
  split
  · -- the source is no link
    rename_i route hnode
    exact absurd ⟨route, hnode⟩ (hsource.clear source' List.prefix_rfl)
  · rw [Act.run_bind, Act.run_bind]
    cases hplace : fs.follow (named source') with
    | error e => rfl
    | ok origin =>
        rw [Act.ofExcept, Act.run_pure]
        dsimp only
        cases hcontent : fs.node origin with
        | none => rfl
        | some node =>
            cases node with
            | file content => exact hwrite content
            | _ => rfl

end Operations

end FileSystem

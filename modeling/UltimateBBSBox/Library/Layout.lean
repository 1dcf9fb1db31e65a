import UltimateBBSBox.Library.FileSystem

/-!
# Files written one after the other

A list of places and contents is a layout if no place is above another and no place comes
with two contents.  The files of a layout do not get in each other's way: each can be written
after the others if and only if it could be written before them (`open_filled_iff`), and in
the end each is there (`node_filled_of_mem`).
-/

namespace FileSystem

variable {N C : Type} [DecidableEq N] {fs : FileSystem N C} {place place' : List N} {content : C}
  {entry : List N × C} {entries rest : List (List N × C)}

/-- Neither place is above the other. -/
def Beside (place place' : List N) : Prop :=
  (place <+: place' → place = place') ∧ (place' <+: place → place = place')

/-- A file beside another can be written after it if and only if it can be written before. -/
theorem open_withFile_iff (hopen : fs.Open place) (h : Beside place place') :
    (fs.withFile place content).Open place' ↔ fs.Open place' := by
  unfold Open Free IsDirectory
  have hnode := node_withFile hopen.2 content
  constructor
  · rintro ⟨hfree, hplace'⟩
    refine ⟨fun front hfront => ?_, ?_⟩
    · have hnew := hfree front hfront
      rw [hnode] at hnew
      split_ifs at hnew with heq hinit
      · rcases hnew with hnew | hnew <;> cases hnew
      · -- what is above the file was free before
        exact hopen.1 front (prefix_dropLast hinit heq)
      · exact hnew
    · rw [hnode] at hplace'
      split_ifs at hplace' with heq hinit
      · exact heq ▸ hopen.2
      · exact absurd rfl hplace'
      · exact hplace'
  · rintro ⟨hfree, hplace'⟩
    refine ⟨fun front hfront => ?_, ?_⟩
    · rw [hnode]
      split_ifs with heq hinit
      · -- the file is not above the other one
        subst heq
        obtain rfl := h.1 (hfront.trans (List.dropLast_prefix _))
        have hroot : front ≠ [] := by
          rintro rfl
          exact hopen.2 fs.root
        exact absurd hfront (not_prefix_dropLast hroot)
      · exact .inr rfl
      · exact hfree front hfront
    · rw [hnode]
      split_ifs with heq hinit
      · exact fun h => by cases h
      · exact absurd (h.2 hinit).symm heq
      · exact hplace'

theorem Clear.withFile (hclear : fs.Clear place') (hplace : ¬ fs.IsDirectory place) :
    (fs.withFile place content).Clear place' := by
  rintro front hfront ⟨target, hlink⟩
  rw [node_withFile hplace] at hlink
  split_ifs at hlink
  · cases hlink
  · cases hlink
  · exact hclear front hfront ⟨target, hlink⟩

/-! ## Layouts -/

/-- No place is above another, and none comes with two contents. -/
def IsLayout (entries : List (List N × C)) : Prop :=
  ∀ entry ∈ entries, ∀ entry' ∈ entries, entry.1 <+: entry'.1 → entry = entry'

omit [DecidableEq N] in
theorem IsLayout.of_subset (h : IsLayout entries) (hsubset : rest ⊆ entries) : IsLayout rest :=
  fun entry hentry entry' hentry' => h entry (hsubset hentry) entry' (hsubset hentry')

omit [DecidableEq N] in
theorem IsLayout.beside (h : IsLayout (entry :: rest)) {entry' : List N × C} (hentry' : entry' ∈ rest) :
    Beside entry.1 entry'.1 := by
  have hmem := List.mem_cons_of_mem entry hentry'
  constructor
  · exact fun hinit => congrArg Prod.fst (h _ List.mem_cons_self _ hmem hinit)
  · exact fun hinit => (congrArg Prod.fst (h _ hmem _ List.mem_cons_self hinit)).symm

/-- The file system after the files were written. -/
def filled (fs : FileSystem N C) (entries : List (List N × C)) : FileSystem N C :=
  entries.foldl (fun fs entry => fs.withFile entry.1 entry.2) fs

@[simp] theorem filled_nil (fs : FileSystem N C) : fs.filled [] = fs := rfl

@[simp] theorem filled_cons (fs : FileSystem N C) (entry : List N × C) (rest : List (List N × C)) :
    fs.filled (entry :: rest) = (fs.withFile entry.1 entry.2).filled rest := rfl

/-- The files that can be written one after the other are those that can be written. -/
theorem open_filled_iff (hopen : ∀ entry ∈ entries, fs.Open entry.1) (hlayout : IsLayout entries)
    (hbeside : ∀ entry ∈ entries, Beside entry.1 place) :
    (fs.filled entries).Open place ↔ fs.Open place := by
  induction entries generalizing fs with
  | nil => rfl
  | cons entry rest ih =>
      obtain ⟨hentry, hrest⟩ := List.forall_mem_cons.mp hopen
      obtain ⟨hfirst, hothers⟩ := List.forall_mem_cons.mp hbeside
      have hopen' : ∀ entry' ∈ rest, (fs.withFile entry.1 entry.2).Open entry'.1 :=
        fun entry' hentry' =>
          (open_withFile_iff hentry (hlayout.beside hentry')).mpr (hrest entry' hentry')
      rw [filled_cons, ih hopen' (hlayout.of_subset (List.subset_cons_self _ _)) hothers]
      exact open_withFile_iff hentry hfirst

theorem Clear.filled (hclear : fs.Clear place) (hopen : ∀ entry ∈ entries, fs.Open entry.1)
    (hlayout : IsLayout entries) : (fs.filled entries).Clear place := by
  induction entries generalizing fs with
  | nil => exact hclear
  | cons entry rest ih =>
      obtain ⟨hentry, hrest⟩ := List.forall_mem_cons.mp hopen
      refine ih (hclear.withFile hentry.2) ?_ (hlayout.of_subset (List.subset_cons_self _ _))
      exact fun entry' hentry' =>
        (open_withFile_iff hentry (hlayout.beside hentry')).mpr (hrest entry' hentry')

/-- What is at a place that no file is below or at. -/
theorem node_filled_elsewhere (hopen : ∀ entry ∈ entries, fs.Open entry.1)
    (hlayout : IsLayout entries) (h : ∀ entry ∈ entries, ¬ place <+: entry.1) :
    (fs.filled entries).node place = fs.node place := by
  induction entries generalizing fs with
  | nil => rfl
  | cons entry rest ih =>
      obtain ⟨hentry, hrest⟩ := List.forall_mem_cons.mp hopen
      obtain ⟨hfirst, hothers⟩ := List.forall_mem_cons.mp h
      have hopen' : ∀ entry' ∈ rest, (fs.withFile entry.1 entry.2).Open entry'.1 :=
        fun entry' hentry' =>
          (open_withFile_iff hentry (hlayout.beside hentry')).mpr (hrest entry' hentry')
      rw [filled_cons, ih hopen' (hlayout.of_subset (List.subset_cons_self _ _)) hothers,
        node_withFile hentry.2, if_neg (fun heq : place = entry.1 => hfirst (heq ▸ List.prefix_rfl)), if_neg hfirst]

/-- Each file is there. -/
theorem node_filled_of_mem (hopen : ∀ entry ∈ entries, fs.Open entry.1) (hlayout : IsLayout entries)
    (h : entry ∈ entries) : (fs.filled entries).node entry.1 = some (.file entry.2) := by
  induction entries generalizing fs with
  | nil => cases h
  | cons first rest ih =>
      obtain ⟨hfirst, hrest⟩ := List.forall_mem_cons.mp hopen
      have hopen' : ∀ entry' ∈ rest, (fs.withFile first.1 first.2).Open entry'.1 :=
        fun entry' hentry' =>
          (open_withFile_iff hfirst (hlayout.beside hentry')).mpr (hrest entry' hentry')
      have hlayout' := hlayout.of_subset (List.subset_cons_self first rest)
      rw [filled_cons]
      by_cases hmem : entry ∈ rest
      · exact ih hopen' hlayout' hmem
      · -- it was written first, and none of the others is at it or below it
        obtain rfl := (List.mem_cons.mp h).resolve_right hmem
        rw [node_filled_elsewhere hopen' hlayout', node_withFile hfirst.2, if_pos rfl]
        intro entry' hentry' hinit
        exact hmem (hlayout _ List.mem_cons_self _ (List.mem_cons_of_mem _ hentry') hinit ▸ hentry')

/-- What is above a file is a directory. -/
theorem isDirectory_filled (hopen : ∀ entry ∈ entries, fs.Open entry.1) (hlayout : IsLayout entries)
    (h : entry ∈ entries) (hinit : place <+: entry.1) (hne : place ≠ entry.1) :
    (fs.filled entries).IsDirectory place := by
  refine isDirectory_above ?_ hinit hne
  rw [node_filled_of_mem hopen hlayout h]
  exact Option.some_ne_none _

/-- Directories stay directories. -/
theorem IsDirectory.filled (h : fs.IsDirectory place) (hopen : ∀ entry ∈ entries, fs.Open entry.1)
    (hlayout : IsLayout entries) : (fs.filled entries).IsDirectory place := by
  by_cases hinit : ∃ entry ∈ entries, place <+: entry.1
  · obtain ⟨entry, hentry, hinit⟩ := hinit
    refine isDirectory_filled hopen hlayout hentry hinit ?_
    rintro rfl
    exact (hopen entry hentry).2 h
  · unfold IsDirectory
    rw [node_filled_elsewhere hopen hlayout fun entry hentry h => hinit ⟨entry, hentry, h⟩]
    exact h

/-- A file that was there before stays as it is, if nothing is written at its place. -/
theorem node_filled_of_file (hopen : ∀ entry ∈ entries, fs.Open entry.1) (hlayout : IsLayout entries)
    (hfile : fs.node place = some (.file content)) (hne : ∀ entry ∈ entries, entry.1 ≠ place) :
    (fs.filled entries).node place = some (.file content) := by
  rw [node_filled_elsewhere hopen hlayout, hfile]
  intro entry hentry hinit
  rcases (hopen entry hentry).1 _ (prefix_dropLast hinit (Ne.symm (hne entry hentry))) with hnode | hnode
  · cases hnode.symm.trans hfile
  · cases hnode.symm.trans hfile

/-! ## Below an empty place -/

/-- Nothing is below a place, and only directories are on the way to it and at it. -/
structure Empty (fs : FileSystem N C) (root : List N) : Prop where
  free : fs.Free root
  below : ∀ path, path ≠ [] → fs.node (root ++ path) = none

omit [DecidableEq N] in
theorem Empty.free_append {root : List N} (h : fs.Empty root) (path : List N) : fs.Free (root ++ path) := by
  intro front hfront
  rcases List.prefix_or_prefix_of_prefix hfront (List.prefix_append root path) with hroot | ⟨others, rfl⟩
  · exact h.free front hroot
  · by_cases hothers : others = []
    · subst hothers
      exact h.free _ (by rw [List.append_nil])
    · exact .inl (h.below others hothers)

omit [DecidableEq N] in
/-- Below an empty place everything can be written. -/
theorem Empty.open_append {root path : List N} (h : fs.Empty root) (hpath : path ≠ []) :
    fs.Clear (root ++ path) ∧ fs.Open (root ++ path) := by
  refine ⟨(h.free_append path).clear, (h.free_append path).above (List.dropLast_prefix _), ?_⟩
  intro hdirectory
  exact hdirectory.ne_none (h.below path hpath)

end FileSystem

import Mathlib.Data.List.Infix
import Mathlib.Logic.Function.Basic
import UltimateBBSBox.Library.Act

/-!
# Directories, files and symbolic links

A file system says what is at each place; a place is the list of the names on the way from
the root, and what something is in is a directory.  A path is walked name by name, and a
link is followed on the way; whether a link at the end is followed too depends on the
operation.  More links than `maxLinks` are a loop.

On a way without links a path leads where its names say (`locate_clear`).
-/

/-- One step of a path. -/
inductive Step (N : Type)
  | up
  | down (name : N)
deriving DecidableEq

/-- What a link says. -/
structure Route (N : Type) where
  absolute : Bool
  steps : List (Step N)
deriving DecidableEq

/-- What a place holds. -/
inductive Node (N C : Type)
  | directory
  | file (content : C)
  | link (target : Route N)
deriving DecidableEq

/-- What is at each place. -/
@[ext (iff := false)]
structure FileSystem (N C : Type) where
  node : List N → Option (Node N C)
  root : node [] = some .directory
  inDirectory : ∀ place, node place ≠ none → node place.dropLast = some .directory

/-- Why an operation on files raises. -/
inductive Errno
  | notFound
  | notDirectory
  | exists
  | isDirectory
  | loop
  | sameFile
deriving DecidableEq

namespace FileSystem

variable {N C : Type}

/-- Only the root is there. -/
def bare : FileSystem N C where
  node
    | [] => some .directory
    | _ => none
  root := rfl
  inDirectory place hplace := by
    cases place with
    | nil => rfl
    | cons name rest => exact absurd rfl hplace

/-! ## Directories -/

def IsDirectory (fs : FileSystem N C) (place : List N) : Prop := fs.node place = some .directory

def IsLink (fs : FileSystem N C) (place : List N) : Prop := ∃ target, fs.node place = some (.link target)

instance (fs : FileSystem N C) (place : List N) : Decidable (fs.IsDirectory place) :=
  match h : fs.node place with
  | some .directory => isTrue h
  | some (.file _) => isFalse fun h' => by cases h.symm.trans h'
  | some (.link _) => isFalse fun h' => by cases h.symm.trans h'
  | none => isFalse fun h' => by cases h.symm.trans h'

variable {fs : FileSystem N C} {place place' front : List N}

theorem IsDirectory.ne_none (h : fs.IsDirectory place) : fs.node place ≠ none := by
  rw [h]
  exact Option.some_ne_none _

theorem IsDirectory.dropLast (h : fs.IsDirectory place) : fs.IsDirectory place.dropLast :=
  fs.inDirectory place h.ne_none

theorem IsDirectory.of_dropLast_append {name : N} (h : fs.IsDirectory (place ++ [name]).dropLast) :
    fs.IsDirectory place := by
  rwa [List.dropLast_concat] at h

theorem prefix_dropLast (hfront : front <+: place) (hne : front ≠ place) : front <+: place.dropLast := by
  obtain ⟨others, rfl⟩ := hfront
  have hothers : others ≠ [] := by
    rintro rfl
    exact hne (List.append_nil front).symm
  rw [List.dropLast_append_of_ne_nil hothers]
  exact List.prefix_append _ _

theorem not_prefix_dropLast (hne : place ≠ []) : ¬ place <+: place.dropLast := by
  intro hinit
  have hlength := hinit.length_le
  have hpos := List.length_pos_of_ne_nil hne
  rw [List.length_dropLast] at hlength
  omega

/-- What is above something is a directory. -/
theorem isDirectory_above (h : fs.node place ≠ none) (hfront : front <+: place)
    (hne : front ≠ place) : fs.IsDirectory front := by
  induction place using List.reverseRecOn with
  | nil => exact absurd (List.prefix_nil.mp hfront) hne
  | append_singleton place name ih =>
      have hplace : fs.IsDirectory place := by
        have := fs.inDirectory _ h
        rwa [List.dropLast_concat] at this
      rcases List.prefix_concat_iff.mp hfront with rfl | hfront
      · exact absurd rfl hne
      · by_cases heq : front = place
        · exact heq ▸ hplace
        · exact ih hplace.ne_none hfront heq

theorem ne_none_above (h : fs.node place ≠ none) (hfront : front <+: place) :
    fs.node front ≠ none := by
  by_cases hne : front = place
  · exact hne ▸ h
  · exact (isDirectory_above h hfront hne).ne_none

/-- Nothing is below what is no directory. -/
theorem eq_none_below (h : ¬ fs.IsDirectory front) (hfront : front <+: place)
    (hne : front ≠ place) : fs.node place = none := by
  by_contra hplace
  exact h (isDirectory_above hplace hfront hne)

/-! ## Walking -/

/-- The number of links that a walk may follow. -/
def maxLinks : ℕ := 40

/-- A walk from the directory `here`; `jump` goes on from a link. -/
def walk (fs : FileSystem N C) (final : Bool)
    (jump : List N → List (Step N) → Except Errno (List N)) :
    List N → List (Step N) → Except Errno (List N)
  | here, [] => .ok here
  | here, .up :: rest => walk fs final jump here.dropLast rest
  | here, .down name :: rest =>
      match fs.node (here ++ [name]) with
      | none => if rest = [] then .ok (here ++ [name]) else .error .notFound
      | some .directory => walk fs final jump (here ++ [name]) rest
      | some (.file _) => if rest = [] then .ok (here ++ [name]) else .error .notDirectory
      | some (.link target) =>
          if rest = [] ∧ final = false then .ok (here ++ [name])
          else jump (if target.absolute then [] else here) (target.steps ++ rest)

/-- The place where steps lead, after at most so many links; something may be there or not.
With `final` a link at the end is followed. -/
def locate (fs : FileSystem N C) (final : Bool) : ℕ → List N → List (Step N) → Except Errno (List N)
  | 0 => walk fs final fun _ _ => .error .loop
  | links + 1 => walk fs final (locate fs final links)

/-- The path that names a place. -/
def named (place : List N) : List (Step N) := place.map .down

/-- The place of an absolute path, its last link followed. -/
def follow (fs : FileSystem N C) (path : List (Step N)) : Except Errno (List N) :=
  fs.locate true maxLinks [] path

/-- The place of an absolute path, its last link not followed. -/
def entry (fs : FileSystem N C) (path : List (Step N)) : Except Errno (List N) :=
  fs.locate false maxLinks [] path

/-- `stat`. -/
def stat (fs : FileSystem N C) (path : List (Step N)) : Option (Node N C) :=
  match fs.follow path with
  | .ok place => fs.node place
  | .error _ => none

/-- `lstat`. -/
def lstat (fs : FileSystem N C) (path : List (Step N)) : Option (Node N C) :=
  match fs.entry path with
  | .ok place => fs.node place
  | .error _ => none

/-! ### Ways without links -/

section Walks

variable {final : Bool} {jump : List N → List (Step N) → Except Errno (List N)}
  {here : List N} {steps : List (Step N)} {names : List N}

/-- No link is on the way to a place, nor at it. -/
def Clear (fs : FileSystem N C) (place : List N) : Prop := ∀ front, front <+: place → ¬ fs.IsLink front

theorem clear_bare (place : List N) : (bare : FileSystem N C).Clear place := by
  rintro front - ⟨target, hlink⟩
  cases front <;> cases hlink

theorem Clear.above (h : fs.Clear place) (hfront : front <+: place) : fs.Clear front :=
  fun front' hfront' => h front' (hfront'.trans hfront)

theorem walk_clear (hclear : fs.Clear (here ++ names))
    (hparent : fs.IsDirectory (here ++ names).dropLast) (hhere : fs.IsDirectory here) :
    walk fs final jump here (named names) = .ok (here ++ names) := by
  induction names generalizing here with
  | nil => simp [named, walk]
  | cons name rest ih =>
      have happend : here ++ name :: rest = (here ++ [name]) ++ rest := by simp
      rw [happend] at hclear hparent ⊢
      rw [named, List.map_cons, walk]
      by_cases hrest : rest = []
      · -- the last name: whatever is there, it is the place
        subst hrest
        have hlink := hclear (here ++ [name]) (List.prefix_append _ _)
        split
        · simp
        · simp [walk]
        · simp
        · rename_i target hnode
          exact absurd ⟨target, hnode⟩ hlink
      · have hdirectory : fs.IsDirectory (here ++ [name]) := by
          rw [List.dropLast_append_of_ne_nil hrest] at hparent
          by_cases hlast : rest.dropLast = []
          · rwa [hlast, List.append_nil] at hparent
          · apply isDirectory_above hparent.ne_none (List.prefix_append _ _)
            simpa using Ne.symm hlast
        rw [show fs.node (here ++ [name]) = some .directory from hdirectory]
        exact ih hclear hparent hdirectory

/-- Without links a path leads where its names say, if that is in a directory. -/
theorem locate_clear (here : List N) {links : ℕ} (hclear : fs.Clear (here ++ names))
    (hparent : fs.IsDirectory (here ++ names).dropLast) (hhere : fs.IsDirectory here) :
    fs.locate final links here (named names) = .ok (here ++ names) := by
  cases links with
  | zero => exact walk_clear hclear hparent hhere
  | succ links => exact walk_clear hclear hparent hhere

/-- Where nothing but directories is on the way, and not all of them are there. -/
theorem walk_missing
    (hfree : ∀ front, front <+: (here ++ names).dropLast → fs.node front = none ∨ fs.IsDirectory front)
    (hparent : ¬ fs.IsDirectory (here ++ names).dropLast) (hhere : fs.IsDirectory here) :
    walk fs final jump here (named names) = .error .notFound := by
  induction names generalizing here with
  | nil =>
      rw [List.append_nil] at hparent
      exact absurd hhere.dropLast hparent
  | cons name rest ih =>
      have happend : here ++ name :: rest = (here ++ [name]) ++ rest := by simp
      rw [happend] at hfree hparent
      have hrest : rest ≠ [] := by
        rintro rfl
        rw [List.append_nil, List.dropLast_concat] at hparent
        exact hparent hhere
      have hfront : here ++ [name] <+: ((here ++ [name]) ++ rest).dropLast := by
        rw [List.dropLast_append_of_ne_nil hrest]
        exact List.prefix_append _ _
      rw [named, List.map_cons, walk]
      rcases hfree _ hfront with hnode | hnode
      · rw [hnode]
        exact if_neg (by simpa using hrest)
      · rw [show fs.node (here ++ [name]) = some .directory from hnode]
        exact ih hfree hparent hnode

/-- Where a file is on the way. -/
theorem walk_blocked (hclear : fs.Clear (here ++ names)) {content : C}
    (hfront : front <+: (here ++ names).dropLast) (hfile : fs.node front = some (.file content))
    (hhere : fs.IsDirectory here) :
    walk fs final jump here (named names) = .error .notDirectory := by
  have hfile' : ¬ fs.IsDirectory front := fun h => by cases h.symm.trans hfile
  induction names generalizing here with
  | nil =>
      rw [List.append_nil] at hfront
      by_cases heq : front = here
      · exact absurd (heq ▸ hhere) hfile'
      · exact absurd (isDirectory_above hhere.ne_none (hfront.trans (List.dropLast_prefix _)) heq) hfile'
  | cons name rest ih =>
      have happend : here ++ name :: rest = (here ++ [name]) ++ rest := by simp
      rw [happend] at hclear hfront
      rw [named, List.map_cons, walk]
      have hrest : rest ≠ [] := by
        rintro rfl
        rw [List.append_nil, List.dropLast_concat] at hfront
        by_cases heq : front = here
        · exact hfile' (heq ▸ hhere)
        · exact hfile' (isDirectory_above hhere.ne_none hfront heq)
      by_cases hnext : fs.IsDirectory (here ++ [name])
      · rw [show fs.node (here ++ [name]) = some .directory from hnext]
        exact ih hclear hfront hnext
      · -- only directories are above the file, so it has the next name
        have heq : front = here ++ [name] := by
          by_contra hne
          rcases List.prefix_or_prefix_of_prefix (hfront.trans (List.dropLast_prefix _))
            (List.prefix_append (here ++ [name]) rest) with hpre | hpre
          · rcases List.prefix_concat_iff.mp hpre with heq | hpre
            · exact hne heq
            · by_cases heq : front = here
              · exact hfile' (heq ▸ hhere)
              · exact hfile' (isDirectory_above hhere.ne_none hpre heq)
          · apply hnext
            apply isDirectory_above _ hpre (Ne.symm hne)
            rw [hfile]
            exact Option.some_ne_none _
        rw [← heq, hfile]
        exact if_neg (by simpa using hrest)

theorem locate_missing (here : List N) {links : ℕ}
    (hfree : ∀ front, front <+: (here ++ names).dropLast → fs.node front = none ∨ fs.IsDirectory front)
    (hparent : ¬ fs.IsDirectory (here ++ names).dropLast) (hhere : fs.IsDirectory here) :
    fs.locate final links here (named names) = .error .notFound := by
  cases links with
  | zero => exact walk_missing hfree hparent hhere
  | succ links => exact walk_missing hfree hparent hhere

theorem locate_blocked (here : List N) {links : ℕ} (hclear : fs.Clear (here ++ names)) {content : C}
    (hfront : front <+: (here ++ names).dropLast) (hfile : fs.node front = some (.file content))
    (hhere : fs.IsDirectory here) :
    fs.locate final links here (named names) = .error .notDirectory := by
  cases links with
  | zero => exact walk_blocked hclear hfront hfile hhere
  | succ links => exact walk_blocked hclear hfront hfile hhere

/-- Without links a path has what is at the place that it names. -/
theorem stat_named (hlinks : ∀ place, ¬ fs.IsLink place) (place : List N) :
    fs.stat (named place) = fs.node place := by
  have hclear : fs.Clear place := fun front _ => hlinks front
  unfold stat follow
  by_cases hparent : fs.IsDirectory place.dropLast
  · rw [locate_clear [] hclear hparent fs.root]
    rfl
  have hnone : fs.node place = none := by
    by_contra hnode
    exact hparent (fs.inDirectory place hnode)
  -- the walk ends at a file, or where nothing is
  by_cases hfile : ∃ front content, front <+: place.dropLast ∧ fs.node front = some (.file content)
  · obtain ⟨front, content, hfront, hnode⟩ := hfile
    rw [locate_blocked [] hclear hfront hnode fs.root, hnone]
  · have hfree : ∀ front, front <+: place.dropLast → fs.node front = none ∨ fs.IsDirectory front := by
      intro front hfront
      cases hnode : fs.node front with
      | none => exact .inl rfl
      | some node =>
          cases node with
          | directory => exact .inr hnode
          | file content => exact absurd ⟨front, content, hfront, hnode⟩ hfile
          | link target => exact absurd ⟨target, hnode⟩ (hlinks front)
    rw [locate_missing [] hfree hparent fs.root, hnone]

/-! ### One path, seen in two ways -/

theorem walk_parent {name : N}
    (hjump : ∀ here steps, fs.IsDirectory here → jump here (steps ++ [.down name]) = .ok place →
      ∃ above, jump here steps = .ok above ∧ fs.IsDirectory above)
    (hhere : fs.IsDirectory here) (h : walk fs true jump here (steps ++ [.down name]) = .ok place) :
    ∃ above, walk fs true jump here steps = .ok above ∧ fs.IsDirectory above := by
  induction steps generalizing here with
  | nil => exact ⟨here, rfl, hhere⟩
  | cons step rest ih =>
      cases step with
      | up => exact ih hhere.dropLast h
      | down first =>
          have hrest : rest ++ [.down name] ≠ [] := by simp
          rw [List.cons_append, walk] at h
          rw [walk]
          split at h
          · rw [if_neg hrest] at h
            cases h
          · rename_i hnode
            exact ih hnode h
          · rw [if_neg hrest] at h
            cases h
          · rw [if_neg (by simp), ← List.append_assoc] at h
            rw [if_neg (by simp)]
            refine hjump _ _ ?_ h
            split
            · exact fs.root
            · exact hhere

/-- What is reached is in a directory that is reached. -/
theorem locate_parent {links : ℕ} {name : N} (hhere : fs.IsDirectory here)
    (h : fs.locate true links here (steps ++ [.down name]) = .ok place) :
    ∃ above, fs.locate true links here steps = .ok above ∧ fs.IsDirectory above := by
  induction links generalizing here steps with
  | zero => exact walk_parent (fun _ _ _ h => by cases h) hhere h
  | succ links ih => exact walk_parent (fun _ _ => ih) hhere h

theorem walk_entry {jump' : List N → List (Step N) → Except Errno (List N)}
    (hplace : fs.node place ≠ none)
    (hjump : ∀ here steps, jump here steps = .ok place →
      ∃ place', jump' here steps = .ok place' ∧ fs.node place' ≠ none)
    (h : walk fs true jump here steps = .ok place) :
    ∃ place', walk fs false jump' here steps = .ok place' ∧ fs.node place' ≠ none := by
  induction steps generalizing here with
  | nil =>
      obtain rfl := Except.ok.inj h
      exact ⟨_, rfl, hplace⟩
  | cons step rest ih =>
      cases step with
      | up => exact ih h
      | down name =>
          rw [walk] at h ⊢
          split at h
          · rename_i hnode
            split at h
            · obtain rfl := Except.ok.inj h
              exact absurd hnode hplace
            · cases h
          · exact ih h
          · split at h
            · rename_i hrest
              obtain rfl := Except.ok.inj h
              exact ⟨_, if_pos hrest, hplace⟩
            · cases h
          · rename_i target hnode
            rw [if_neg (by simp)] at h
            by_cases hrest : rest = []
            · -- the link itself is there
              rw [if_pos ⟨hrest, rfl⟩]
              exact ⟨_, rfl, by rw [hnode]; exact Option.some_ne_none _⟩
            · rw [if_neg (by simp [hrest])]
              exact hjump _ _ h

/-- Where something is reached, something is there before the last link is followed. -/
theorem locate_entry {links : ℕ} (h : fs.locate true links here steps = .ok place)
    (hplace : fs.node place ≠ none) :
    ∃ place', fs.locate false links here steps = .ok place' ∧ fs.node place' ≠ none := by
  induction links generalizing here steps with
  | zero => exact walk_entry hplace (fun _ _ h => by cases h) h
  | succ links ih => exact walk_entry hplace (fun _ _ => ih) h

end Walks

/-! ## Operations -/

section Operations

variable [DecidableEq N]

/-- Something is put at a place in a directory that is no directory itself. -/
def put (fs : FileSystem N C) (place : List N) (new : Node N C) : FileSystem N C :=
  if h : fs.IsDirectory place.dropLast ∧ ¬ fs.IsDirectory place then
    { node := Function.update fs.node place (some new)
      root := by
        rw [Function.update_of_ne, fs.root]
        rintro rfl
        exact h.2 fs.root
      inDirectory := by
        intro place' hplace'
        have hparent : fs.IsDirectory place'.dropLast := by
          by_cases heq : place' = place
          · exact heq ▸ h.1
          · rw [Function.update_of_ne heq] at hplace'
            exact fs.inDirectory _ hplace'
        -- what is a directory is not where something was put
        rw [Function.update_of_ne]
        · exact hparent
        · exact fun heq => h.2 (heq ▸ hparent) }
  else fs

theorem node_put (hparent : fs.IsDirectory place.dropLast) (hplace : ¬ fs.IsDirectory place)
    (new : Node N C) (place' : List N) :
    (fs.put place new).node place' = if place' = place then some new else fs.node place' := by
  unfold put
  rw [dif_pos ⟨hparent, hplace⟩]
  simp only [Function.update_apply]

theorem Clear.put_file (h : fs.Clear place') {content : C} : (fs.put place (.file content)).Clear place' := by
  rintro front hfront ⟨target, hlink⟩
  unfold put at hlink
  split at hlink
  · change Function.update fs.node place (some (.file content)) front = _ at hlink
    rw [Function.update_apply] at hlink
    split at hlink
    · cases hlink
    · exact h front hfront ⟨target, hlink⟩
  · exact h front hfront ⟨target, hlink⟩

theorem Clear.put_beside (h : fs.Clear place') (hbeside : ¬ place <+: place') (new : Node N C) :
    (fs.put place new).Clear place' := by
  rintro front hfront ⟨target, hlink⟩
  by_cases hput : fs.IsDirectory place.dropLast ∧ ¬ fs.IsDirectory place
  · have hne : front ≠ place := fun heq => hbeside (heq ▸ hfront)
    rw [node_put hput.1 hput.2, if_neg hne] at hlink
    exact h front hfront ⟨target, hlink⟩
  · rw [put, dif_neg hput] at hlink
    exact h front hfront ⟨target, hlink⟩

/-- `os.mkdir`. -/
def mkdir (path : List (Step N)) : Act (FileSystem N C) Errno Unit := do
  let fs ← get
  let place ← Act.ofExcept (fs.entry path)
  if (fs.node place).isSome then
    throw .exists
  modify fun fs => fs.put place .directory

/-- `Path.is_dir`. -/
def isDir (fs : FileSystem N C) (path : List (Step N)) : Bool := fs.stat path matches some .directory

/-- `Path.is_file`. -/
def isFile (fs : FileSystem N C) (path : List (Step N)) : Bool := fs.stat path matches some (.file _)

/-- `Path.is_symlink`. -/
def isSymlink (fs : FileSystem N C) (path : List (Step N)) : Bool := fs.lstat path matches some (.link _)

/-- `Path.mkdir(exist_ok=existOk)`. -/
def mkdirIfMissing (existOk : Bool) (path : List (Step N)) : Act (FileSystem N C) Errno Unit :=
  tryCatch (mkdir path) fun e => do
    let fs ← get
    if e ≠ .notFound ∧ existOk = true ∧ fs.isDir path = true then
      return
    throw e

/-- `Path.mkdir(parents=True, exist_ok=existOk)`, for a path that is given from its end. -/
def mkdirParents (existOk : Bool) : List (Step N) → Act (FileSystem N C) Errno Unit
  | [] => mkdirIfMissing existOk []
  | step :: above =>
      tryCatch (mkdir (step :: above).reverse) fun e => do
        if e = .notFound then
          mkdirParents true above
          mkdirIfMissing existOk (step :: above).reverse
        else
          let fs ← get
          if existOk = true ∧ fs.isDir (step :: above).reverse = true then
            return
          throw e

/-- `Path.mkdir(parents=True, exist_ok=existOk)` at a place. -/
def makeDirectories (existOk : Bool) (place : List N) : Act (FileSystem N C) Errno Unit :=
  mkdirParents existOk (named place).reverse

/-- The file at a path is written anew. -/
def write (path : List (Step N)) (content : C) : Act (FileSystem N C) Errno Unit := do
  let fs ← get
  let place ← Act.ofExcept (fs.follow path)
  if fs.IsDirectory place then
    throw .isDirectory
  modify fun fs => fs.put place (.file content)

/-- `os.symlink`. -/
def symlink (path : List (Step N)) (target : Route N) : Act (FileSystem N C) Errno Unit := do
  let fs ← get
  let place ← Act.ofExcept (fs.entry path)
  if (fs.node place).isSome then
    throw .exists
  modify fun fs => fs.put place (.link target)

/-- The two paths lead to one thing. -/
def sameFile (fs : FileSystem N C) (source target : List (Step N)) : Bool :=
  match fs.follow source, fs.follow target with
  | .ok place, .ok place' => place = place' ∧ (fs.node place).isSome
  | _, _ => false

/-- `shutil.copyfile(source, target, follow_symlinks=False)`: a link is made anew. -/
def copyFile (source target : List (Step N)) : Act (FileSystem N C) Errno Unit := do
  let fs ← get
  if fs.sameFile source target = true then
    throw .sameFile
  match fs.lstat source with
  | some (.link route) => symlink target route
  | _ => do
      let place ← Act.ofExcept (fs.follow source)
      match fs.node place with
      | some (.file content) => write target content
      | some .directory => throw .isDirectory
      | _ => throw .notFound

/-! ### Every operation comes back -/

theorem total_mkdir (path : List (Step N)) : Act.Total (mkdir (C := C) path) := by
  unfold mkdir
  refine Act.total_bind Act.total_get fun fs => Act.total_bind (Act.total_ofExcept _) fun place => ?_
  exact Act.total_ite (fun _ => Act.total_throw_bind _ _) fun _ => Act.total_modify _

theorem total_mkdirIfMissing (existOk : Bool) (path : List (Step N)) :
    Act.Total (mkdirIfMissing (C := C) existOk path) := by
  refine Act.total_tryCatch (total_mkdir path) fun e => Act.total_bind Act.total_get fun fs => ?_
  exact Act.total_ite (fun _ => Act.total_pure ()) fun _ => Act.total_throw e

theorem total_makeDirectories (existOk : Bool) (place : List N) :
    Act.Total (makeDirectories (C := C) existOk place) := by
  unfold makeDirectories
  generalize (named place).reverse = steps
  induction steps generalizing existOk with
  | nil => exact total_mkdirIfMissing existOk []
  | cons step above ih =>
      refine Act.total_tryCatch (total_mkdir _) fun e => Act.total_ite (fun _ => ?_) fun _ => ?_
      · exact Act.total_bind (ih true) fun _ => total_mkdirIfMissing existOk _
      · exact Act.total_bind Act.total_get fun fs =>
          Act.total_ite (fun _ => Act.total_pure ()) fun _ => Act.total_throw e

theorem total_write (path : List (Step N)) (content : C) : Act.Total (write path content) := by
  unfold write
  refine Act.total_bind Act.total_get fun fs => Act.total_bind (Act.total_ofExcept _) fun place => ?_
  exact Act.total_ite (fun _ => Act.total_throw_bind _ _) fun _ => Act.total_modify _

theorem total_symlink (path : List (Step N)) (target : Route N) :
    Act.Total (symlink (C := C) path target) := by
  unfold symlink
  refine Act.total_bind Act.total_get fun fs => Act.total_bind (Act.total_ofExcept _) fun place => ?_
  exact Act.total_ite (fun _ => Act.total_throw_bind _ _) fun _ => Act.total_modify _

theorem total_copyFile (source target : List (Step N)) : Act.Total (copyFile (C := C) source target) := by
  unfold copyFile
  refine Act.total_bind Act.total_get fun fs => ?_
  refine Act.total_ite (fun _ => Act.total_throw_bind _ _) fun _ => ?_
  simp only []
  split
  · exact total_symlink _ _
  · refine Act.total_bind (Act.total_ofExcept _) fun place => ?_
    split
    · exact total_write _ _
    · exact Act.total_throw _
    · exact Act.total_throw _

/-! ### What is there already -/

omit [DecidableEq N] in
theorem stat_eq_some_iff {path : List (Step N)} {node : Node N C} :
    fs.stat path = some node ↔ ∃ place, fs.follow path = .ok place ∧ fs.node place = some node := by
  unfold stat
  cases fs.follow path with
  | error e => simp
  | ok place => simp

omit [DecidableEq N] in
theorem isDir_iff {path : List (Step N)} : fs.isDir path = true ↔ fs.stat path = some .directory := by
  unfold isDir
  cases fs.stat path with
  | none => simp
  | some node => cases node <;> simp

omit [DecidableEq N] in
/-- What is seen is seen in a directory. -/
theorem isDir_dropLast_of_stat {node : Node N C} (h : fs.stat (named place) = some node) :
    fs.isDir (named place.dropLast) = true := by
  rcases List.eq_nil_or_concat place with rfl | ⟨above, name, rfl⟩
  · exact isDir_iff.mpr (stat_eq_some_iff.mpr ⟨[], rfl, fs.root⟩)
  · obtain ⟨place', hfollow, -⟩ := stat_eq_some_iff.mp h
    rw [List.concat_eq_append] at hfollow ⊢
    unfold follow named at hfollow
    rw [List.map_append] at hfollow
    obtain ⟨place'', habove, hdirectory⟩ := locate_parent fs.root hfollow
    rw [List.dropLast_concat]
    exact isDir_iff.mpr (stat_eq_some_iff.mpr ⟨place'', habove, hdirectory⟩)

theorem put_of_file {content : C} (h : fs.node place = some (.file content)) :
    fs.put place (.file content) = fs := by
  have hplace : ¬ fs.IsDirectory place := fun h' => by cases h'.symm.trans h
  have hparent : fs.IsDirectory place.dropLast := by
    refine fs.inDirectory _ ?_
    rw [h]
    exact Option.some_ne_none _
  ext1
  funext place'
  rw [node_put hparent hplace]
  split
  · rename_i heq
    rw [heq, h]
  · rfl

/-- Directories that are there are not made. -/
theorem run_makeDirectories_of_isDir (h : fs.isDir (named place) = true) :
    (makeDirectories true place).run fs = some (.ok (), fs) := by
  obtain ⟨place', hfollow, hnode⟩ := stat_eq_some_iff.mp (isDir_iff.mp h)
  obtain ⟨place'', hentry, hthere⟩ := locate_entry hfollow (by rw [hnode]; exact Option.some_ne_none _)
  have hmkdir : (mkdir (named place)).run fs = some (.error .exists, fs) := by
    have hsome : (fs.node place'').isSome = true := Option.isSome_iff_ne_none.mpr hthere
    have hentry : fs.entry (named place) = .ok place'' := hentry
    simp only [mkdir, Act.run_bind, Act.run_get, hentry, Act.ofExcept, Act.run_pure, hsome, if_true,
      Act.run_throw]
  unfold makeDirectories
  cases hplace : (named place).reverse with
  | nil =>
      have hnil : named place = [] := List.reverse_eq_nil_iff.mp hplace
      rw [hnil] at hmkdir h
      unfold mkdirParents mkdirIfMissing
      rw [Act.run_tryCatch, hmkdir]
      simp [Act.run_bind, Act.run_get, h, Act.run_pure]
  | cons step above =>
      have hpath : (step :: above).reverse = named place := by rw [← hplace, List.reverse_reverse]
      rw [mkdirParents, hpath, Act.run_tryCatch, hmkdir]
      simp [Act.run_bind, Act.run_get, h, Act.run_pure]

/-- A file that is there already is not changed by a copy with its content. -/
theorem run_copyFile_of_file {source target : List (Step N)} {content : C}
    (hsource : fs.stat source = some (.file content)) (hlink : fs.isSymlink source = false)
    (htarget : fs.stat target = some (.file content)) (hother : fs.sameFile source target = false) :
    (copyFile source target).run fs = some (.ok (), fs) := by
  obtain ⟨place, hfollow, hnode⟩ := stat_eq_some_iff.mp hsource
  obtain ⟨place', hfollow', hnode'⟩ := stat_eq_some_iff.mp htarget
  have hplace' : ¬ fs.IsDirectory place' := fun h => by cases h.symm.trans hnode'
  have hwrite : (write target content).run fs = some (.ok (), fs) := by
    simp only [write, Act.run_bind, Act.run_get, hfollow', Act.ofExcept, Act.run_pure, hplace', if_false,
      Act.run_modify, put_of_file hnode']
  unfold copyFile
  simp only [Act.run_bind, Act.run_get, hother, Bool.false_eq_true, if_false]
  unfold isSymlink at hlink
  cases hlstat : fs.lstat source with
  | none =>
      simp only [hfollow, Act.run_bind, Act.ofExcept, Act.run_pure, hnode]
      exact hwrite
  | some node =>
      cases node with
      | link target => simp [hlstat] at hlink
      | directory =>
          simp only [hfollow, Act.run_bind, Act.ofExcept, Act.run_pure, hnode]
          exact hwrite
      | file content' =>
          simp only [hfollow, Act.run_bind, Act.ofExcept, Act.run_pure, hnode]
          exact hwrite

/-! ### Where no link is in the way -/

/-- All that there is on the way to a place, and at it, are directories. -/
def Free (fs : FileSystem N C) (place : List N) : Prop :=
  ∀ front, front <+: place → fs.node front = none ∨ fs.IsDirectory front

omit [DecidableEq N] in
theorem Free.clear (h : fs.Free place) : fs.Clear place := by
  rintro front hfront ⟨target, hlink⟩
  rcases h front hfront with hnode | hnode
  · cases hnode.symm.trans hlink
  · cases hnode.symm.trans hlink

omit [DecidableEq N] in
theorem Free.above (h : fs.Free place) (hfront : front <+: place) : fs.Free front :=
  fun front' hfront' => h front' (hfront'.trans hfront)

omit [DecidableEq N] in
/-- On a clear way a file is in the way, or nothing is. -/
theorem Clear.free_or_file (h : fs.Clear place) :
    fs.Free place ∨ ∃ front content, front <+: place ∧ fs.node front = some (.file content) := by
  by_cases hfree : fs.Free place
  · exact .inl hfree
  · unfold Free at hfree
    push Not at hfree
    obtain ⟨front, hfront, hne, hdirectory⟩ := hfree
    refine .inr ⟨front, ?_⟩
    cases hnode : fs.node front with
    | none => exact absurd hnode hne
    | some node =>
        cases node with
        | directory => exact absurd hnode hdirectory
        | file content => exact ⟨content, hfront, rfl⟩
        | link target => exact absurd ⟨target, hnode⟩ (h front hfront)

omit [DecidableEq N] in
theorem locate_named {final : Bool} {links : ℕ} (hclear : fs.Clear place)
    (hparent : fs.IsDirectory place.dropLast) :
    fs.locate final links [] (named place) = .ok place :=
  locate_clear [] hclear hparent fs.root

omit [DecidableEq N] in
/-- What is seen without links is what is there. -/
theorem stat_clear (hclear : fs.Clear place) :
    fs.stat (named place) = fs.node place ∧ fs.lstat (named place) = fs.node place := by
  unfold stat lstat follow entry
  by_cases hparent : fs.IsDirectory place.dropLast
  · rw [locate_named hclear hparent, locate_named hclear hparent]
    exact ⟨rfl, rfl⟩
  · have hnode : fs.node place = none := by
      by_contra hnode
      exact hparent (fs.inDirectory _ hnode)
    have hend : ∀ final, ∃ e, fs.locate final maxLinks [] (named place) = .error e := by
      intro final
      rcases (hclear.above (List.dropLast_prefix place)).free_or_file with
        hfree | ⟨front, content, hfront, hfile⟩
      · exact ⟨_, locate_missing [] hfree hparent fs.root⟩
      · exact ⟨_, locate_blocked [] hclear hfront hfile fs.root⟩
    obtain ⟨e, hfollow⟩ := hend true
    obtain ⟨e', hentry⟩ := hend false
    rw [hfollow, hentry, hnode]
    exact ⟨rfl, rfl⟩

omit [DecidableEq N] in
theorem isFile_clear (hclear : fs.Clear place) :
    fs.isFile (named place) = true ↔ ∃ content, fs.node place = some (.file content) := by
  unfold isFile
  rw [(stat_clear hclear).1]
  cases fs.node place with
  | none => simp
  | some node => cases node <;> simp

omit [DecidableEq N] in
theorem isSymlink_clear (hclear : fs.Clear place) : fs.isSymlink (named place) = false := by
  have hlink := hclear _ List.prefix_rfl
  unfold isSymlink
  rw [(stat_clear hclear).2]
  cases hnode : fs.node place with
  | none => rfl
  | some node =>
      cases node with
      | directory => rfl
      | file content => rfl
      | link target => exact absurd ⟨target, hnode⟩ hlink

/-- The directories on the way to a place, and at it. -/
def withDirectories (fs : FileSystem N C) (place : List N) : FileSystem N C where
  node place' := if place' <+: place then some .directory else fs.node place'
  root := if_pos List.nil_prefix
  inDirectory place' hplace' := by
    by_cases hinit : place'.dropLast <+: place
    · exact if_pos hinit
    · rw [if_neg hinit]
      rw [if_neg fun h => hinit ((List.dropLast_prefix _).trans h)] at hplace'
      exact fs.inDirectory _ hplace'

theorem node_withDirectories (fs : FileSystem N C) (place place' : List N) :
    (fs.withDirectories place).node place' =
      if place' <+: place then some .directory else fs.node place' := rfl

theorem Free.withDirectories (h : fs.Free place) (above : List N) :
    (fs.withDirectories above).Free place := by
  intro front hfront
  unfold IsDirectory
  rw [node_withDirectories]
  split
  · exact .inr rfl
  · exact h front hfront

theorem Clear.withDirectories (h : fs.Clear place) (above : List N) :
    (fs.withDirectories above).Clear place := by
  rintro front hfront ⟨target, hlink⟩
  rw [node_withDirectories] at hlink
  split at hlink
  · cases hlink
  · exact h front hfront ⟨target, hlink⟩

theorem withDirectories_of_isDirectory (h : fs.IsDirectory place) : fs.withDirectories place = fs := by
  ext1
  funext place'
  rw [node_withDirectories]
  split
  · rename_i hinit
    by_cases heq : place' = place
    · exact heq ▸ h.symm
    · exact (isDirectory_above h.ne_none hinit heq).symm
  · rfl

/-- One directory more. -/
theorem withDirectories_concat {name : N} (h : ¬ fs.IsDirectory (place ++ [name])) :
    (fs.withDirectories place).put (place ++ [name]) .directory =
      fs.withDirectories (place ++ [name]) := by
  have hparent : (fs.withDirectories place).IsDirectory (place ++ [name]).dropLast := by
    rw [List.dropLast_concat]
    exact if_pos (List.prefix_refl _)
  have hlonger : ¬ place ++ [name] <+: place := fun h => absurd h.length_le (by simp)
  have hfree : ¬ (fs.withDirectories place).IsDirectory (place ++ [name]) := by
    unfold IsDirectory
    rwa [node_withDirectories, if_neg hlonger]
  ext1
  funext place'
  rw [node_put hparent hfree, node_withDirectories, node_withDirectories]
  simp only [List.prefix_concat_iff]
  split_ifs <;> simp_all

theorem run_mkdir_of_entry {path : List (Step N)} (h : fs.entry path = .ok place) :
    (mkdir path).run fs =
      if (fs.node place).isSome then some (.error .exists, fs)
      else some (.ok (), fs.put place .directory) := by
  simp only [mkdir, Act.run_bind, Act.run_get, h, Act.ofExcept, Act.run_pure]
  split <;> rfl

theorem run_mkdir_error {path : List (Step N)} {e : Errno} (h : fs.entry path = .error e) :
    (mkdir path).run fs = some (.error e, fs) := by
  simp only [mkdir, Act.run_bind, Act.run_get, h, Act.ofExcept, Act.run_throw]

omit [DecidableEq N] in
theorem isDir_named (hclear : fs.Clear place) (hparent : fs.IsDirectory place.dropLast) :
    fs.isDir (named place) = true ↔ fs.IsDirectory place := by
  have hfollow : fs.follow (named place) = .ok place := locate_named hclear hparent
  unfold isDir stat IsDirectory
  rw [hfollow]
  change (fs.node place matches some .directory) = true ↔ _
  split <;> simp_all

/-- The last step of a path with its directory there. -/
theorem run_mkdirIfMissing (hclear : fs.Clear place) (hparent : fs.IsDirectory place.dropLast)
    {existOk : Bool} :
    (mkdirIfMissing existOk (named place)).run fs =
      if fs.node place = none then some (.ok (), fs.put place .directory)
      else if existOk = true ∧ fs.IsDirectory place then some (.ok (), fs)
      else some (.error .exists, fs) := by
  have hdir := isDir_named hclear hparent
  unfold mkdirIfMissing
  rw [Act.run_tryCatch, run_mkdir_of_entry (locate_named hclear hparent)]
  cases hnode : fs.node place with
  | none => rfl
  | some node =>
      simp only [Option.isSome_some, if_true, Act.run_bind, Act.run_get, hdir]
      by_cases hok : existOk = true ∧ fs.IsDirectory place
      · simp [hok, Act.run_pure]
      · simp [hok, Act.run_throw]

theorem run_mkdirParents {existOk : Bool} (hfree : fs.Free place)
    (hok : existOk = true ∨ fs.node place = none) :
    (mkdirParents existOk (named place).reverse).run fs = some (.ok (), fs.withDirectories place) := by
  induction place using List.reverseRecOn generalizing existOk with
  | nil =>
      have hroot : fs.IsDirectory [] := fs.root
      have hrun : (mkdirIfMissing existOk (named [])).run fs = _ := run_mkdirIfMissing hfree.clear hroot
      rcases hok with rfl | hnone
      · rw [if_neg hroot.ne_none, if_pos ⟨rfl, hroot⟩] at hrun
        rw [withDirectories_of_isDirectory hroot]
        exact hrun
      · cases hnone.symm.trans fs.root
  | append_singleton above name ih =>
      have habove : above <+: above ++ [name] := List.prefix_append _ _
      have hreverse : (named (above ++ [name])).reverse = .down name :: (named above).reverse := by
        simp [named]
      have hpath : (Step.down name :: (named above).reverse).reverse = named (above ++ [name]) := by
        simp [named]
      rw [hreverse, mkdirParents, hpath, Act.run_tryCatch]
      by_cases hparent : fs.IsDirectory above
      · have hparent' : fs.IsDirectory (above ++ [name]).dropLast := by rwa [List.dropLast_concat]
        rw [run_mkdir_of_entry (locate_named hfree.clear hparent')]
        rcases hfree _ (List.prefix_refl _) with hnode | hnode
        · -- only the last directory is missing
          have hconcat : (fs.withDirectories above).put (above ++ [name]) .directory =
              fs.withDirectories (above ++ [name]) :=
            withDirectories_concat fun h => by cases hnode.symm.trans h
          rw [withDirectories_of_isDirectory hparent] at hconcat
          rw [hnode, ← hconcat]
          rfl
        · rcases hok with rfl | hnone
          · have hdir := (isDir_named hfree.clear hparent').mpr hnode
            rw [withDirectories_of_isDirectory hnode,
              show fs.node (above ++ [name]) = some .directory from hnode]
            simp [Act.run_bind, Act.run_get, hdir, Act.run_pure]
          · cases hnone.symm.trans hnode
      · -- the directories above come first
        have hmissing : fs.entry (named (above ++ [name])) = .error .notFound := by
          apply locate_missing []
          · rw [List.nil_append, List.dropLast_concat]
            exact fun front hfront => hfree front (hfront.trans habove)
          · rwa [List.nil_append, List.dropLast_concat]
          · exact fs.root
        have hnone : fs.node (above ++ [name]) = none := by
          rcases hfree _ (List.prefix_refl _) with hnode | hnode
          · exact hnode
          · exact absurd (IsDirectory.of_dropLast_append (IsDirectory.dropLast hnode)) hparent
        rw [run_mkdir_error hmissing]
        simp only [if_true, Act.run_bind]
        rw [ih (hfree.above habove) (.inl rfl)]
        have hnode : (fs.withDirectories above).node (above ++ [name]) = none := by
          rw [node_withDirectories, if_neg fun h => absurd h.length_le (by simp), hnone]
        have hparent' : (fs.withDirectories above).IsDirectory (above ++ [name]).dropLast := by
          rw [List.dropLast_concat]
          exact if_pos (List.prefix_refl _)
        change (mkdirIfMissing existOk (named (above ++ [name]))).run (fs.withDirectories above) = _
        rw [run_mkdirIfMissing (hfree.withDirectories above).clear hparent', if_pos hnode,
          withDirectories_concat fun h => by cases hnone.symm.trans h]

/-- **What `mkdir(parents=True)` makes** where nothing but directories is in the way. -/
theorem run_makeDirectories {existOk : Bool} (hfree : fs.Free place)
    (hok : existOk = true ∨ fs.node place = none) :
    (makeDirectories existOk place).run fs = some (.ok (), fs.withDirectories place) :=
  run_mkdirParents hfree hok

/-- A file in the way. -/
theorem run_makeDirectories_blocked {existOk : Bool} (hclear : fs.Clear place) {content : C}
    (hfront : front <+: place) (hfile : fs.node front = some (.file content)) :
    ∃ e, (makeDirectories existOk place).run fs = some (.error e, fs) := by
  unfold makeDirectories
  induction place using List.reverseRecOn with
  | nil =>
      obtain rfl := List.prefix_nil.mp hfront
      cases fs.root.symm.trans hfile
  | append_singleton above name ih =>
      have hreverse : (named (above ++ [name])).reverse = .down name :: (named above).reverse := by
        simp [named]
      have hpath : (Step.down name :: (named above).reverse).reverse = named (above ++ [name]) := by
        simp [named]
      rw [hreverse, mkdirParents, hpath, Act.run_tryCatch]
      rcases List.prefix_concat_iff.mp hfront with rfl | habove
      · -- the file is where the directory should be
        have hparent : fs.IsDirectory (above ++ [name]).dropLast :=
          fs.inDirectory _ (by rw [hfile]; exact Option.some_ne_none _)
        have hdir : ¬ fs.isDir (named (above ++ [name])) = true := by
          rw [isDir_named hclear hparent]
          exact fun h => by cases h.symm.trans hfile
        rw [run_mkdir_of_entry (locate_named hclear hparent), hfile]
        exact ⟨.exists, by simp [Act.run_bind, Act.run_get, hdir, Act.run_throw]⟩
      · have hentry : ∀ final, fs.locate final maxLinks [] (named (above ++ [name])) =
            .error .notDirectory := by
          intro final
          exact locate_blocked [] hclear (by simpa using habove) hfile fs.root
        have hdir : ¬ fs.isDir (named (above ++ [name])) = true := by
          unfold isDir stat follow
          rw [hentry]
          exact Bool.false_ne_true
        rw [run_mkdir_error (hentry false)]
        exact ⟨.notDirectory, by simp [Act.run_bind, Act.run_get, hdir, Act.run_throw]⟩

/-! ### Files in directories that are made -/

/-- The file system with a file more, and the directories above it. -/
def withFile (fs : FileSystem N C) (place : List N) (content : C) : FileSystem N C :=
  (fs.withDirectories place.dropLast).put place (.file content)

/-- A file can be written at a place: only directories are above it, and it is none. -/
def Open (fs : FileSystem N C) (place : List N) : Prop :=
  fs.Free place.dropLast ∧ ¬ fs.IsDirectory place

theorem not_isDirectory_withDirectories (h : ¬ fs.IsDirectory place) :
    ¬ (fs.withDirectories place.dropLast).IsDirectory place := by
  have hne : place ≠ [] := by
    rintro rfl
    exact h fs.root
  unfold IsDirectory
  rwa [node_withDirectories, if_neg (not_prefix_dropLast hne)]

theorem node_withFile (h : ¬ fs.IsDirectory place) (content : C) (place' : List N) :
    (fs.withFile place content).node place' =
      if place' = place then some (.file content)
      else if place' <+: place then some .directory else fs.node place' := by
  have hne : place ≠ [] := by
    rintro rfl
    exact h fs.root
  have hparent : (fs.withDirectories place.dropLast).IsDirectory place.dropLast :=
    if_pos (List.prefix_refl _)
  unfold withFile
  rw [node_put hparent (not_isDirectory_withDirectories h), node_withDirectories]
  by_cases heq : place' = place
  · rw [if_pos heq, if_pos heq]
  · rw [if_neg heq, if_neg heq]
    obtain ⟨above, name, rfl⟩ := (List.eq_nil_or_concat place).resolve_left hne
    rw [List.concat_eq_append] at heq ⊢
    simp only [List.dropLast_concat, List.prefix_concat_iff, heq, false_or]

theorem run_write (hclear : fs.Clear place) (hparent : fs.IsDirectory place.dropLast)
    (hplace : ¬ fs.IsDirectory place) (content : C) :
    (write (named place) content).run fs = some (.ok (), fs.put place (.file content)) := by
  have hfollow : fs.follow (named place) = .ok place := locate_named hclear hparent
  simp only [write, Act.run_bind, Act.run_get, hfollow, Act.ofExcept, Act.run_pure, hplace, if_false,
    Act.run_modify]

theorem run_write_directory (h : fs.IsDirectory place) (hclear : fs.Clear place) (content : C) :
    (write (named place) content).run fs = some (.error .isDirectory, fs) := by
  have hfollow : fs.follow (named place) = .ok place := locate_named hclear h.dropLast
  simp only [write, Act.run_bind, Act.run_get, hfollow, Act.ofExcept, Act.run_pure, h, if_true,
    Act.run_throw]

/-! ### Copies -/

section Copies

variable {source target : List N} {content : C}

omit [DecidableEq N] in
theorem follow_clear (hclear : fs.Clear place) (hnode : fs.node place ≠ none) :
    fs.follow (named place) = .ok place := locate_named hclear (fs.inDirectory _ hnode)

theorem run_copyFile (hsource : fs.Clear source) (hfile : fs.node source = some (.file content))
    (htarget : fs.Clear target) (hparent : fs.IsDirectory target.dropLast)
    (hplace : ¬ fs.IsDirectory target) (hne : source ≠ target) :
    (copyFile (named source) (named target)).run fs = some (.ok (), fs.put target (.file content)) := by
  have hnode : fs.node source ≠ none := by
    rw [hfile]
    exact Option.some_ne_none _
  have hfollow := follow_clear hsource hnode
  have hsame : fs.sameFile (named source) (named target) = false := by
    unfold sameFile
    rw [hfollow, show fs.follow (named target) = .ok target from locate_named htarget hparent]
    simp [hne]
  have hlstat : fs.lstat (named source) = some (.file content) := (stat_clear hsource).2.trans hfile
  unfold copyFile
  simp only [Act.run_bind, Act.run_get, hsame, Bool.false_eq_true, if_false, Act.run_pure, hlstat,
    hfollow, Act.ofExcept, hfile]
  exact run_write htarget hparent hplace content

/-- No file is copied to where a directory is, nor to where it is itself. -/
theorem run_copyFile_error (hsource : fs.Clear source) (hfile : fs.node source = some (.file content))
    (htarget : fs.Clear target) (h : fs.IsDirectory target ∨ source = target) :
    ∃ e, (copyFile (named source) (named target)).run fs = some (.error e, fs) := by
  have hnode : fs.node source ≠ none := by
    rw [hfile]
    exact Option.some_ne_none _
  have hfollow := follow_clear hsource hnode
  have hlstat : fs.lstat (named source) = some (.file content) := (stat_clear hsource).2.trans hfile
  unfold copyFile
  rcases h with hdirectory | rfl
  · have hsame : fs.sameFile (named source) (named target) = false := by
      unfold sameFile
      rw [hfollow, follow_clear htarget hdirectory.ne_none]
      have hne : source ≠ target := by
        rintro rfl
        cases hfile.symm.trans hdirectory
      simp [hne]
    simp only [Act.run_bind, Act.run_get, hsame, Bool.false_eq_true, if_false, Act.run_pure, hlstat,
      hfollow, Act.ofExcept, hfile]
    exact ⟨_, run_write_directory hdirectory htarget content⟩
  · have hsame : fs.sameFile (named source) (named source) = true := by
      unfold sameFile
      rw [hfollow]
      simp [hfile]
    simp only [Act.run_bind, Act.run_get, hsame, if_true, Act.run_throw]
    exact ⟨_, rfl⟩

end Copies

end Operations

end FileSystem

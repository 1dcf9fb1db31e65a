import UltimateBBSBox.Library.Dict

/-!
# Tar archives of regular files

What `tarfile` makes of regular files, read from its documentation: `gettarinfo`
remembers the inode of every file it has described, and describes a second name
of one inode as a hard link to the first; `extractall` recreates the members in
their order beneath a directory.

An archive has no links exactly when no inode has two names (`noLink_addAll_iff`),
and then extracting it into an empty directory gives the files back
(`get?_extractAll`).
-/

namespace Tar

/-- A relative path, part by part. -/
abbrev Parts : Type := List String

/-- The type of a member, with its content or the name it links to. -/
inductive Kind (C : Type) | regular (content : C) | link (target : Parts)
deriving DecidableEq

/-- A member of an archive. -/
structure Member (C : Type) where
  name : Parts
  kind : Kind C
deriving DecidableEq

variable {C : Type}

/-- `islnk`. -/
def Member.isLink (member : Member C) : Bool :=
  match member.kind with
  | .regular _ => false
  | .link _ => true

/-! ## Adding files -/

/-- `gettarinfo` and `addfile`: a member, and the inodes seen so far. -/
def add (inodes : Dict ℕ Parts) (name : Parts) (inode : ℕ) (content : C) :
    Member C × Dict ℕ Parts :=
  match inodes.get? inode with
  | some first =>
      if name ≠ first then (⟨name, .link first⟩, inodes)
      else (⟨name, .regular content⟩, inodes.set inode name)
  | none => (⟨name, .regular content⟩, inodes.set inode name)

/-- The members of files that are added one after the other. -/
def addAll (content : ℕ → C) : Dict ℕ Parts → List (Parts × ℕ) → List (Member C)
  | _, [] => []
  | inodes, (name, inode) :: rest =>
      (add inodes name inode (content inode)).1 ::
        addAll content (add inodes name inode (content inode)).2 rest

section Add

variable {content : ℕ → C} {inodes : Dict ℕ Parts} {name : Parts} {inode : ℕ}

theorem add_of_new (h : inodes.get? inode = none) :
    add inodes name inode (content inode) =
      (⟨name, .regular (content inode)⟩, inodes.set inode name) := by
  rw [add, h]

theorem add_of_seen {first : Parts} (h : inodes.get? inode = some first) (hne : name ≠ first) :
    add inodes name inode (content inode) = (⟨name, .link first⟩, inodes) := by
  rw [add, h]
  exact if_pos hne

/-- No name is one under which an inode has been seen. -/
def Fresh (inodes : Dict ℕ Parts) (files : List (Parts × ℕ)) : Prop :=
  ∀ inode first, inodes.get? inode = some first → first ∉ files.map Prod.fst

theorem Fresh.of_cons {file : Parts × ℕ} {files : List (Parts × ℕ)}
    (h : Fresh inodes (file :: files)) : Fresh inodes files :=
  fun inode first hget hmem => h inode first hget (List.mem_cons_of_mem _ hmem)

theorem Fresh.set {files : List (Parts × ℕ)} (h : Fresh inodes files) (inode : ℕ)
    (hname : name ∉ files.map Prod.fst) : Fresh (inodes.set inode name) files := by
  intro inode' first hget
  rw [Dict.get?_set] at hget
  split at hget
  · rwa [← Option.some.inj hget]
  · exact h inode' first hget

/-- There is no link exactly when no inode comes twice. -/
theorem noLink_addAll_iff {files : List (Parts × ℕ)} (hnames : (files.map Prod.fst).Nodup)
    (hfresh : Fresh inodes files) :
    (∀ member ∈ addAll content inodes files, member.isLink = false) ↔
      (files.map Prod.snd).Nodup ∧ ∀ inode ∈ files.map Prod.snd, inodes.get? inode = none := by
  induction files generalizing inodes with
  | nil => simp [addAll]
  | cons file rest ih =>
      obtain ⟨name, inode⟩ := file
      obtain ⟨hname, hrest⟩ := List.nodup_cons.mp hnames
      cases hget : inodes.get? inode with
      | some first =>
          have hne : name ≠ first := by
            rintro rfl
            exact hfresh inode name hget (List.mem_cons_self ..)
          simp [addAll, add_of_seen hget hne, Member.isLink, hget]
      | none =>
          have hset := hfresh.of_cons.set inode hname
          rw [addAll, add_of_new hget, List.forall_mem_cons, ih hrest hset, List.map_cons,
            List.nodup_cons, List.forall_mem_cons]
          simp only [Member.isLink, hget, true_and, Dict.get?_set]
          constructor
          · rintro ⟨hnodup, hnew⟩
            refine ⟨⟨fun hmem => ?_, hnodup⟩, fun inode' hmem => ?_⟩
            · simpa using hnew inode hmem
            · have hnone := hnew inode' hmem
              split at hnone
              · cases hnone
              · exact hnone
          · rintro ⟨⟨hfirst, hnodup⟩, hnew⟩
            refine ⟨hnodup, fun inode' hmem => ?_⟩
            have hne : inode' ≠ inode := by
              rintro rfl
              exact hfirst hmem
            rw [if_neg hne]
            exact hnew inode' hmem

/-- Without links, the members are the files. -/
theorem addAll_eq_of_nodup (content : ℕ → C) {files : List (Parts × ℕ)} (hnodup : (files.map Prod.snd).Nodup)
    (hnew : ∀ inode ∈ files.map Prod.snd, inodes.get? inode = none) :
    addAll content inodes files = files.map fun file => ⟨file.1, .regular (content file.2)⟩ := by
  induction files generalizing inodes with
  | nil => rfl
  | cons file rest ih =>
      obtain ⟨name, inode⟩ := file
      obtain ⟨hinode, hrest⟩ := List.nodup_cons.mp hnodup
      rw [addAll, add_of_new (hnew inode (List.mem_cons_self ..)), List.map_cons, ih hrest]
      intro inode' hmem
      have hne : inode' ≠ inode := by
        rintro rfl
        exact hinode hmem
      rw [Dict.get?_set, if_neg hne]
      exact hnew inode' (List.mem_cons_of_mem _ hmem)

theorem name_of_addAll (content : ℕ → C) (inodes : Dict ℕ Parts) (files : List (Parts × ℕ)) :
    (addAll content inodes files).map Member.name = files.map Prod.fst := by
  induction files generalizing inodes with
  | nil => rfl
  | cons file rest ih =>
      rw [addAll, List.map_cons, ih, List.map_cons]
      congr 1
      unfold add
      split
      · split <;> rfl
      · rfl

end Add

/-! ## Extracting -/

/-- A path lies strictly beneath another one. -/
def Beneath (path above : Parts) : Prop := above <+: path ∧ path ≠ above

instance (path above : Parts) : Decidable (Beneath path above) :=
  inferInstanceAs (Decidable (_ ∧ _))

/-- Put one member beneath a directory that holds these files; a file stands in the
way of what lies beneath it, and a directory in the way of a file. -/
def extract (files : Dict Parts C) (member : Member C) : Option (Dict Parts C) :=
  if files.entries.any fun entry =>
      Beneath member.name entry.1 ∨ Beneath entry.1 member.name then none
  else match member.kind with
    | .regular content => some (files.set member.name content)
    | .link target => (files.get? target).map fun content => files.set member.name content

/-- `extractall`. -/
def extractAll : Dict Parts C → List (Member C) → Option (Dict Parts C)
  | files, [] => some files
  | files, member :: rest => (extract files member).bind fun files => extractAll files rest

/-- Regular members with names of their own, none beneath another, come back. -/
theorem get?_extractAll (files : Dict Parts C) {members : List (Parts × C)}
    (hnames : (members.map Prod.fst).Nodup)
    (hbeneath : ∀ path ∈ members.map Prod.fst, ∀ above,
      above ∈ members.map Prod.fst ∨ above ∈ files.entries.map Prod.fst →
        ¬ Beneath path above ∧ ¬ Beneath above path) :
    ∃ extracted, extractAll files (members.map fun member => ⟨member.1, .regular member.2⟩) =
        some extracted ∧
      ∀ path content, extracted.get? path = some content ↔ (path, content) ∈ members ∨
        (path ∉ members.map Prod.fst ∧ files.get? path = some content) := by
  induction members generalizing files with
  | nil => exact ⟨files, rfl, fun path content => by simp⟩
  | cons member rest ih =>
      obtain ⟨name, content⟩ := member
      obtain ⟨hname, hrest⟩ := List.nodup_cons.mp hnames
      have hclear : ¬ files.entries.any fun entry =>
          Beneath name entry.1 ∨ Beneath entry.1 name := by
        rw [List.any_eq_true]
        rintro ⟨entry, hmem, hbad⟩
        have hapart := hbeneath name (List.mem_cons_self ..) entry.1
          (.inr (List.mem_map_of_mem hmem))
        rcases of_decide_eq_true hbad with hbelow | habove
        · exact hapart.1 hbelow
        · exact hapart.2 habove
      have hstep : extract files ⟨name, .regular content⟩ = some (files.set name content) :=
        if_neg hclear
      -- the file just written is one of the members, so it is apart from the others
      have hrestBeneath : ∀ path ∈ rest.map Prod.fst, ∀ above,
          above ∈ rest.map Prod.fst ∨ above ∈ (files.set name content).entries.map Prod.fst →
            ¬ Beneath path above ∧ ¬ Beneath above path := by
        intro path hpath above habove
        refine hbeneath path (List.mem_cons_of_mem _ hpath) above ?_
        rcases habove with hmem | hmem
        · exact .inl (List.mem_cons_of_mem _ hmem)
        · rcases Dict.mem_keys_setEntries hmem with rfl | hmem
          · exact .inl (List.mem_cons_self ..)
          · exact .inr hmem
      obtain ⟨extracted, hextracted, hget⟩ := ih (files.set name content) hrest
        hrestBeneath
      refine ⟨extracted, ?_, fun path content' => ?_⟩
      · rw [List.map_cons, extractAll, hstep]
        exact hextracted
      · rw [hget, List.map_cons, List.mem_cons, List.mem_cons, not_or, Dict.get?_set]
        by_cases hpath : path = name
        · subst hpath
          have hnot : (path, content') ∉ rest := fun hmem => hname (List.mem_map.mpr ⟨_, hmem, rfl⟩)
          simp [hname, hnot, eq_comm]
        · simp [hpath]

end Tar

import Mathlib.Data.List.Infix
import UltimateBBSBox.Library.Text

/-!
# Paths as texts

A path is a root and the parts after it; empty parts and single dots are gone, `..` is kept.
`resolved` takes the `..` lexically, with nothing above the root.

Of two places in a tree one is the other or above it, or they branch: at some depth both
have a part and these are different (`branch_iff`).
-/

/-- No root, `/`, or the `//` that POSIX sets apart. -/
inductive PathRoot | relative | slash | doubleSlash
deriving DecidableEq

/-- `PurePosixPath`. -/
structure PosixPath where
  root : PathRoot
  parts : List Text
  valid : ∀ part ∈ parts, part ≠ [] ∧ part ≠ .of "." ∧ CodePoint.ofChar '/' ∉ part

namespace PosixPath

open CodePoint (ofChar)

instance : DecidableEq PosixPath := fun p q =>
  decidable_of_iff (p.root = q.root ∧ p.parts = q.parts) (by
    cases p
    cases q
    simp)

/-- The root that the leading slashes of a text write: two of them are not one, three are. -/
def rootOf (text : Text) : PathRoot :=
  match (text.takeWhile (· = ofChar '/')).length with
  | 0 => .relative
  | 2 => .doubleSlash
  | _ => .slash

/-- The parts that a text writes. -/
def partsOf (text : Text) : List Text :=
  (text.splitOn (ofChar '/')).filter fun part => part ≠ [] ∧ part ≠ .of "."

theorem not_mem_of_mem_splitOn {α : Type*} [DecidableEq α] {separator : α} {text part : List α}
    (h : part ∈ text.splitOn separator) : separator ∉ part := by
  induction text generalizing part with
  | nil =>
      rw [List.splitOn_nil, List.mem_singleton] at h
      exact h ▸ List.not_mem_nil
  | cons c rest ih =>
      rw [List.splitOn_cons_eq_if_modifyHead] at h
      split at h
      · rcases List.mem_cons.mp h with rfl | h
        · exact List.not_mem_nil
        · exact ih h
      · rename_i hc
        cases hsplit : rest.splitOn separator with
        | nil => simp [hsplit] at h
        | cons first others =>
            rw [hsplit, List.modifyHead_cons] at h
            rcases List.mem_cons.mp h with rfl | h
            · -- the separator is neither the new character nor in the first part
              rw [List.mem_cons, not_or]
              exact ⟨fun heq => hc (by simp [heq]), ih (hsplit ▸ List.mem_cons_self)⟩
            · exact ih (hsplit ▸ List.mem_cons_of_mem _ h)

theorem valid_partsOf (text : Text) :
    ∀ part ∈ partsOf text, part ≠ [] ∧ part ≠ .of "." ∧ ofChar '/' ∉ part := by
  intro part hpart
  obtain ⟨hmem, hkept⟩ := List.mem_filter.mp hpart
  obtain ⟨hne, hdot⟩ := of_decide_eq_true hkept
  exact ⟨hne, hdot, not_mem_of_mem_splitOn hmem⟩

/-- `PurePosixPath(text)`. -/
def ofText (text : Text) : PosixPath := ⟨rootOf text, partsOf text, valid_partsOf text⟩

/-- `path.is_absolute()`. -/
def IsAbsolute (path : PosixPath) : Prop := path.root ≠ .relative

instance (path : PosixPath) : Decidable path.IsAbsolute := inferInstanceAs (Decidable (_ ≠ _))

/-! ## Places in a tree -/

/-- One part more: `..` goes up, and stays where nothing is above. -/
def descend (place : List Text) (part : Text) : List Text :=
  if part = .of ".." then place.dropLast else place ++ [part]

/-- The place of an absolute path in the tree, where nothing is a link. -/
def resolved (path : PosixPath) : List Text := path.parts.foldl descend []

/-- Without `..` a path is where its parts say. -/
theorem resolved_eq_parts {path : PosixPath} (h : Text.of ".." ∉ path.parts) :
    path.resolved = path.parts := by
  have hfold : ∀ (parts place : List Text), Text.of ".." ∉ parts →
      parts.foldl descend place = place ++ parts := by
    intro parts
    induction parts with
    | nil => exact fun place _ => (List.append_nil place).symm
    | cons part rest ih =>
        intro place hparts
        obtain ⟨hpart, hrest⟩ := not_or.mp (mt List.mem_cons.mpr hparts)
        rw [List.foldl_cons, ih _ hrest, descend, if_neg (Ne.symm hpart), List.append_assoc,
          List.singleton_append]
  exact hfold path.parts [] h

/-- At some depth both places have a part, and these differ. -/
def Branch {α : Type*} (a b : List α) : Prop :=
  ∃ (depth : ℕ) (x y : α), a[depth]? = some x ∧ b[depth]? = some y ∧ x ≠ y

/-- Two places branch if and only if neither is the other or above it. -/
theorem branch_iff {α : Type*} {a b : List α} : Branch a b ↔ ¬ a <+: b ∧ ¬ b <+: a := by
  constructor
  · rintro ⟨depth, x, y, hx, hy, hne⟩
    refine ⟨fun hab => hne ?_, fun hba => hne ?_⟩
    · obtain ⟨rest, rfl⟩ := hab
      rw [List.getElem?_append_left (List.getElem?_eq_some_iff.mp hx).1, hx] at hy
      exact Option.some.inj hy
    · obtain ⟨rest, rfl⟩ := hba
      rw [List.getElem?_append_left (List.getElem?_eq_some_iff.mp hy).1, hy] at hx
      exact (Option.some.inj hx).symm
  · intro h
    induction a generalizing b with
    | nil => exact absurd List.nil_prefix h.1
    | cons x a ih =>
        cases b with
        | nil => exact absurd List.nil_prefix h.2
        | cons y b =>
            by_cases hxy : x = y
            · -- the branching is further down
              subst hxy
              rw [List.cons_prefix_cons, List.cons_prefix_cons] at h
              obtain ⟨depth, x', y', hx, hy, hne⟩ :=
                ih ⟨fun hab => h.1 ⟨rfl, hab⟩, fun hba => h.2 ⟨rfl, hba⟩⟩
              exact ⟨depth + 1, x', y', hx, hy, hne⟩
            · exact ⟨0, x, y, rfl, rfl, hxy⟩

end PosixPath

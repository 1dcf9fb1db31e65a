import Mathlib.Data.List.Basic

/-!
# Lines joined to a text

Lines with a separator between them and one at the end.  The text has as many separators as
it has lines, one at least, if and only if no line has a separator in it (`count_joined_iff`).
-/

namespace Lines

variable {α : Type} [BEq α] [LawfulBEq α] {separator : α}

/-- The lines, each with a separator after it; of no lines one empty line. -/
def joined (separator : α) (lines : List (List α)) : List α :=
  [separator].intercalate lines ++ [separator]

/-- Every separator ends a line or is inside of one. -/
theorem count_joined (lines : List (List α)) :
    (joined separator lines).count separator =
      max 1 lines.length + lines.flatten.count separator := by
  unfold joined
  rw [List.count_append, List.count_singleton_self]
  induction lines with
  | nil => rfl
  | cons line rest ih =>
      rw [List.flatten_cons, List.count_append]
      cases rest with
      | nil =>
          rw [List.intercalate_singleton]
          simp only [List.length_cons, List.length_nil, List.flatten_nil, List.count_nil]
          omega
      | cons other rest =>
          rw [List.intercalate_cons_cons, List.count_append, List.count_append,
            List.count_singleton_self]
          simp only [List.length_cons] at ih ⊢
          omega

/-- **As many separators as lines.** -/
theorem count_joined_iff {lines : List (List α)} :
    (joined separator lines).count separator = max 1 lines.length ↔
      ∀ line ∈ lines, separator ∉ line := by
  rw [count_joined, Nat.add_eq_left, List.count_eq_zero, List.mem_flatten]
  constructor
  · intro hnone line hline hmem
    exact hnone ⟨line, hline, hmem⟩
  · rintro hall ⟨line, hline, hmem⟩
    exact hall line hline hmem

end Lines

import UltimateBBSBox.Library.Address
import UltimateBBSBox.Library.Hostname
import UltimateBBSBox.Library.Lines
import UltimateBBSBox.Library.Url

/-!
# Fields of daemon configurations

Texts that the patterns of the configurations accept have neither an end of line nor a
quotation mark in them.
-/

namespace UltimateBBSBox.Daemons

open CodePoint (ofChar)
open Url (Unicode)
open Address (decimal)
open Hostname (isIdentifier isLabel isLabelEnd withoutDots)

/-- The end of a line. -/
abbrev newline : CodePoint := ofChar '\n'

/-- The quotation mark. -/
abbrev quote : CodePoint := ofChar '"'

/-- What a rendered field is not to have in it. -/
inductive IsSeparator : CodePoint → Prop
  | newline : IsSeparator newline
  | quote : IsSeparator quote

/-- `'\n'.join(lines) + '\n'`. -/
abbrev render (lines : List Text) : Text := Lines.joined newline lines

/-- `str(n)`. -/
def integer (n : ℤ) : Text := if n < 0 then ofChar '-' :: decimal n.natAbs else decimal n.natAbs

/-- `str(ref).startswith('/')` with no line break. -/
def isExternal (ref : Text) : Bool :=
  ref.head? = some (ofChar '/') ∧ newline ∉ ref ∧ ofChar '\r' ∉ ref

/-- A text that is given, is not empty and does not pass. -/
def failsIfGiven (passes : Text → Bool) (text : Option Text) : Bool :=
  text.any fun text => text ≠ [] ∧ passes text = false

/-- A port. -/
def isPort (port : ℤ) : Bool := 1 ≤ port ∧ port ≤ 65535

variable {c : CodePoint} {text : Text}

theorem not_mem_append {front : Text} : c ∉ front ++ text ↔ c ∉ front ∧ c ∉ text := by
  rw [List.mem_append, not_or]

/-- A text after one without the character. -/
theorem not_mem_after {front : Text} (h : c ∉ front) : c ∉ front ++ text ↔ c ∉ text := by
  rw [not_mem_append, and_iff_right h]

/-- A text before one without the character. -/
theorem not_mem_before {back : Text} (h : c ∉ back) : c ∉ text ++ back ↔ c ∉ text := by
  rw [not_mem_append, and_iff_left h]

theorem not_mem_intercalate {separator : Text} {texts : List Text} (h : c ∉ separator) :
    c ∉ separator.intercalate texts ↔ ∀ text ∈ texts, c ∉ text := by
  induction texts with
  | nil => simp
  | cons text rest ih =>
      cases rest with
      | nil => simp
      | cons other rest =>
          rw [List.intercalate_cons_cons, List.append_assoc, not_mem_append, not_mem_after h, ih]
          exact (List.forall_mem_cons (p := fun text => c ∉ text)).symm

theorem newline_not_mem_of_isExternal {ref : Text} (h : isExternal ref = true) : newline ∉ ref :=
  (of_decide_eq_true h).2.1

theorem passes_of_failsIfGiven {passes : Text → Bool} {given : Option Text}
    (h : failsIfGiven passes given = false) (hgiven : given = some text) (hne : text ≠ []) :
    passes text = true := by
  unfold failsIfGiven at h
  rw [hgiven, Option.any_some, decide_eq_false_iff_not, not_and, Bool.not_eq_false] at h
  exact h hne

section Separators

variable (hc : IsSeparator c)

include hc

theorem IsSeparator.not_isLabelEnd : isLabelEnd c = false := by
  cases hc with
  | newline => decide
  | quote => decide

theorem IsSeparator.not_mem_of_isIdentifier (h : isIdentifier text = true) : c ∉ text := by
  intro hmem
  rcases (of_decide_eq_true h).2 c hmem with hend | rfl | rfl | rfl
  · rw [hc.not_isLabelEnd] at hend
    cases hend
  all_goals cases hc

theorem IsSeparator.not_mem_of_isLabel (h : isLabel text = true) : c ∉ text := by
  intro hmem
  rcases (of_decide_eq_true h).2.2.2 c hmem with hend | rfl
  · rw [hc.not_isLabelEnd] at hend
    cases hend
  · cases hc

theorem IsSeparator.not_mem_decimal (n : ℕ) : c ∉ decimal n := by
  intro hmem
  have hdigit := Address.isDigit_of_mem_decimal hmem
  cases hc with
  | newline => exact absurd hdigit (by decide)
  | quote => exact absurd hdigit (by decide)

theorem IsSeparator.not_mem_integer (n : ℤ) : c ∉ integer n := by
  unfold integer
  split
  · refine List.not_mem_cons_of_ne_of_not_mem ?_ (hc.not_mem_decimal _)
    rintro rfl
    cases hc
  · exact hc.not_mem_decimal _

/-- Texts of labels with dots between them. -/
theorem IsSeparator.not_mem_of_labels
    (h : ∀ label ∈ text.splitOn (ofChar '.'), isLabel label = true) : c ∉ text := by
  intro hmem
  rcases Address.mem_part_of_mem (ofChar '.') hmem with rfl | ⟨label, hlabel, hc'⟩
  · cases hc
  · exact hc.not_mem_of_isLabel (h label hlabel) hc'

theorem IsSeparator.mem_lower_iff (U : Unicode) : c ∈ U.lower text ↔ c ∈ text := by
  cases hc with
  | newline => exact U.mem_lower_iff (by decide) (by decide)
  | quote => exact U.mem_lower_iff (by decide) (by decide)

theorem IsSeparator.mem_withoutDots (h : c ∈ text) : c ∈ withoutDots text := by
  have hparts : withoutDots text ++ text.rtakeWhile (fun c => c = ofChar '.') = text :=
    List.rdropWhile_append_rtakeWhile
  rw [← hparts, List.mem_append] at h
  refine h.resolve_right fun hdot => ?_
  have heq : c = ofChar '.' := by simpa using List.mem_rtakeWhile_imp hdot
  cases hc with
  | newline => exact absurd heq (by decide)
  | quote => exact absurd heq (by decide)

/-- A text that is a domain in lower case and without the dots at its end. -/
theorem IsSeparator.not_mem_of_domain {U : Unicode}
    (h : ∀ label ∈ (withoutDots (U.lower text)).splitOn (ofChar '.'), isLabel label = true) :
    c ∉ text := by
  intro hmem
  exact hc.not_mem_of_labels h (hc.mem_withoutDots ((hc.mem_lower_iff U).mpr hmem))

end Separators

end UltimateBBSBox.Daemons

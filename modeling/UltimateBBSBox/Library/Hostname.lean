import UltimateBBSBox.Library.Text

/-!
# Labels and identifiers

The texts that the patterns for parts of host names and for identifiers match as a whole.
-/

namespace Hostname

open CodePoint (ofChar)

/-- A character of `[a-z0-9]`. -/
def isLabelEnd (c : CodePoint) : Bool := (ofChar 'a' ≤ c ∧ c ≤ ofChar 'z') ∨ c.isDigit

/-- `[a-z0-9](?:[a-z0-9-]{0,61}[a-z0-9])?`. -/
def isLabel (label : Text) : Bool :=
  label.length ≤ 63 ∧ label.head?.any isLabelEnd ∧ label.getLast?.any isLabelEnd ∧
    ∀ c ∈ label, isLabelEnd c = true ∨ c = ofChar '-'

/-- `[a-z0-9][a-z0-9._-]*`. -/
def isIdentifier (text : Text) : Bool :=
  text.head?.any isLabelEnd ∧
    ∀ c ∈ text, isLabelEnd c = true ∨ c = ofChar '.' ∨ c = ofChar '_' ∨ c = ofChar '-'

/-- The text without the dots at its end. -/
def withoutDots (text : Text) : Text := text.rdropWhile fun c => c = ofChar '.'

end Hostname

import Mathlib.Data.List.DropRight
import Mathlib.Data.String.Basic
import Mathlib.Tactic.Common

/-!
# Texts

A text is a list of code points.  Surrogates are code points like any other: a
text may hold them, and can then not be encoded in UTF-8.
-/

/-- A code point, which may be a surrogate. -/
abbrev CodePoint : Type := Fin 0x110000

/-- A text: its code points in their order. -/
abbrev Text : Type := List CodePoint

-- Looking for a code point or a text in a list finds these by name.
instance : LawfulBEq CodePoint := inferInstance
instance : LawfulBEq Text := inferInstance

namespace CodePoint

/-- The code point of a character. -/
def ofChar (c : Char) : CodePoint :=
  ⟨c.toNat, by
    have := c.valid
    simp only [UInt32.isValidChar, Nat.isValidChar] at this
    simp only [Char.toNat]
    omega⟩

theorem ofChar_injective : Function.Injective ofChar := by
  intro c d h
  have hval : c.val.toNat = d.val.toNat := by
    rw [Fin.ext_iff] at h
    exact h
  exact Char.ext (UInt32.toNat_inj.mp hval)

@[simp] theorem ofChar_inj {c d : Char} : ofChar c = ofChar d ↔ c = d := ofChar_injective.eq_iff

/-- Whitespace, as `str.strip` takes it. -/
def isSpace (c : CodePoint) : Bool :=
  c.val ∈ [9, 10, 11, 12, 13, 28, 29, 30, 31, 32, 133, 160, 5760, 8232, 8233, 8239, 8287, 12288] ∨
    (8192 ≤ c.val ∧ c.val ≤ 8202)

def isSurrogate (c : CodePoint) : Bool := 0xD800 ≤ c.val ∧ c.val ≤ 0xDFFF

def isAscii (c : CodePoint) : Bool := c.val < 128

/-- An ASCII digit. -/
def isDigit (c : CodePoint) : Bool := ofChar '0' ≤ c ∧ c ≤ ofChar '9'

/-- An ASCII letter. -/
def isLetter (c : CodePoint) : Bool :=
  (ofChar 'a' ≤ c ∧ c ≤ ofChar 'z') ∨ (ofChar 'A' ≤ c ∧ c ≤ ofChar 'Z')

/-- A hexadecimal digit. -/
def isHex (c : CodePoint) : Bool :=
  c.isDigit ∨ (ofChar 'a' ≤ c ∧ c ≤ ofChar 'f') ∨ (ofChar 'A' ≤ c ∧ c ≤ ofChar 'F')

/-- The lower case of ASCII letters, and nothing else. -/
def asciiLower (c : CodePoint) : CodePoint :=
  if h : ofChar 'A' ≤ c ∧ c ≤ ofChar 'Z' then
    ⟨c.val + 32, by
      have := h.2
      simp only [ofChar, Char.reduceToNat, Fin.le_def] at this
      omega⟩
  else c

/-- Upper case letters move by 32, and nothing else moves. -/
theorem val_asciiLower (c : CodePoint) :
    (65 ≤ c.val ∧ c.val ≤ 90 ∧ c.asciiLower.val = c.val + 32) ∨
      ((c.val < 65 ∨ 90 < c.val) ∧ c.asciiLower.val = c.val) := by
  unfold asciiLower
  split
  · rename_i h
    exact .inl ⟨h.1, h.2, rfl⟩
  · rename_i h
    simp only [ofChar, Char.reduceToNat, Fin.le_def] at h
    exact .inr ⟨by omega, rfl⟩

theorem isAscii_asciiLower (c : CodePoint) : c.asciiLower.isAscii = c.isAscii := by
  have hval := val_asciiLower c
  unfold isAscii
  rw [decide_eq_decide]
  omega

/-- Lowering leaves alone what is no letter, and makes letters of letters. -/
theorem asciiLower_eq_ofChar_iff {c : CodePoint} {d : Char} (h : (ofChar d).isLetter = false) :
    c.asciiLower = ofChar d ↔ c = ofChar d := by
  have hval := val_asciiLower c
  simp only [isLetter, Fin.le_def, ofChar, Char.reduceToNat, decide_eq_false_iff_not, Fin.ext_iff]
    at h hval ⊢
  omega

theorem isDigit_asciiLower (c : CodePoint) : c.asciiLower.isDigit = c.isDigit := by
  have hval := val_asciiLower c
  simp only [isDigit, ofChar, Char.reduceToNat, Fin.le_def]
  rw [decide_eq_decide]
  omega

theorem asciiLower_of_isDigit {c : CodePoint} (h : c.isDigit = true) : c.asciiLower = c := by
  have hval := val_asciiLower c
  simp only [isDigit, ofChar, Char.reduceToNat, Fin.le_def, decide_eq_true_eq] at h
  exact Fin.ext (by omega)

theorem isHex_asciiLower (c : CodePoint) : c.asciiLower.isHex = c.isHex := by
  have hval := val_asciiLower c
  simp only [isHex, isDigit, ofChar, Char.reduceToNat, Fin.le_def, decide_eq_true_eq]
  rw [decide_eq_decide]
  omega

theorem isLetter_asciiLower (c : CodePoint) : c.asciiLower.isLetter = c.isLetter := by
  have hval := val_asciiLower c
  simp only [isLetter, ofChar, Char.reduceToNat, Fin.le_def]
  rw [decide_eq_decide]
  omega

theorem isAscii_of_isLetter {c : CodePoint} (h : c.isLetter = true) : c.isAscii = true := by
  simp only [isLetter, isAscii, ofChar, Char.reduceToNat, Fin.le_def, decide_eq_true_eq] at h ⊢
  omega

theorem isHex_of_isDigit {c : CodePoint} (h : c.isDigit = true) : c.isHex = true :=
  decide_eq_true (.inl h)

theorem isAscii_of_isHex {c : CodePoint} (h : c.isHex = true) : c.isAscii = true := by
  simp only [isHex, isDigit, isAscii, ofChar, Char.reduceToNat, Fin.le_def, decide_eq_true_eq] at h ⊢
  omega

end CodePoint

namespace Text

section Decide

variable {p : CodePoint → Prop} [DecidablePred p]

/-- What is said of all characters of a text is decided along the text, not over all
code points. -/
instance (priority := 2000) (text : Text) : Decidable (∀ c ∈ text, p c) :=
  List.decidableBAll p text

instance (priority := 2000) (text : Text) : Decidable (∃ c ∈ text, p c) :=
  List.decidableBEx p text

end Decide

/-- The text of a string. -/
def of (s : String) : Text := s.toList.map CodePoint.ofChar

@[simp] theorem of_inj {s t : String} : of s = of t ↔ s = t := by
  unfold of
  rw [(List.map_injective_iff.mpr CodePoint.ofChar_injective).eq_iff]
  exact String.toList_inj

/-- The text can be encoded in UTF-8. -/
def Encodable (text : Text) : Prop := ∀ c ∈ text, c.isSurrogate = false

instance (text : Text) : Decidable text.Encodable := List.decidableBAll _ text

theorem encodable_append {s t : Text} : Encodable (s ++ t) ↔ s.Encodable ∧ t.Encodable := by
  simp only [Encodable, List.mem_append, or_imp, forall_and]

theorem encodable_nil : Encodable [] := fun _ hc => by cases hc

/-- A character of a string is no surrogate. -/
theorem encodable_of (s : String) : (of s).Encodable := by
  intro c hc
  obtain ⟨d, -, rfl⟩ := List.mem_map.mp hc
  have hvalid := d.valid
  simp only [UInt32.isValidChar, Nat.isValidChar] at hvalid
  unfold CodePoint.isSurrogate CodePoint.ofChar
  simp only [Char.toNat, decide_eq_false_iff_not]
  omega

theorem encodable_of_ascii {text : Text} (h : ∀ c ∈ text, c.isAscii = true) : text.Encodable := by
  intro c hc
  have hascii := h c hc
  unfold CodePoint.isAscii at hascii
  unfold CodePoint.isSurrogate
  simp only [decide_eq_true_eq, decide_eq_false_iff_not] at hascii ⊢
  omega

theorem encodable_intercalate {separator : Text} {parts : List Text} (hseparator : separator.Encodable)
    (hparts : ∀ part ∈ parts, part.Encodable) :
    Encodable (separator.intercalate parts) := by
  induction parts with
  | nil => exact encodable_nil
  | cons part rest ih =>
      have hpart := hparts part List.mem_cons_self
      have hrest := ih fun other hother => hparts other (List.mem_cons_of_mem _ hother)
      cases rest with
      | nil =>
          rw [List.intercalate_singleton]
          exact hpart
      | cons other rest =>
          rw [List.intercalate_cons_cons, encodable_append, encodable_append]
          exact ⟨⟨hpart, hseparator⟩, hrest⟩

/-! ## Stripping -/

/-- `str.strip`. -/
def strip (text : Text) : Text := (text.dropWhile CodePoint.isSpace).rdropWhile CodePoint.isSpace

theorem strip_infix (text : Text) : text.strip <:+: text :=
  (List.rdropWhile_prefix _ _).isInfix.trans (List.dropWhile_suffix _).isInfix

theorem length_strip_le (text : Text) : text.strip.length ≤ text.length :=
  text.strip_infix.length_le

theorem mem_of_mem_strip {text : Text} {c : CodePoint} (h : c ∈ text.strip) : c ∈ text :=
  text.strip_infix.subset h

theorem mem_strip {text : Text} {c : CodePoint} (h : c ∈ text) (hspace : c.isSpace = false) :
    c ∈ text.strip := by
  have hkept : ∀ {t : Text}, c ∈ t → c ∈ t.dropWhile CodePoint.isSpace := by
    intro t ht
    rw [← List.takeWhile_append_dropWhile (p := CodePoint.isSpace) (l := t), List.mem_append] at ht
    rcases ht with ht | ht
    · rw [List.mem_takeWhile_imp ht] at hspace
      cases hspace
    · exact ht
  unfold strip List.rdropWhile
  exact List.mem_reverse.mpr (hkept (List.mem_reverse.mpr (hkept h)))

/-- Only spaces are stripped. -/
theorem encodable_strip {text : Text} : text.strip.Encodable ↔ text.Encodable := by
  constructor
  · intro h c hc
    by_contra hsurrogate
    have hspace : c.isSpace = false := by
      unfold CodePoint.isSurrogate at hsurrogate
      unfold CodePoint.isSpace
      simp only [Bool.not_eq_false, decide_eq_true_eq] at hsurrogate
      simp only [List.mem_cons, List.not_mem_nil, or_false, decide_eq_false_iff_not]
      omega
    exact hsurrogate (h c (mem_strip hc hspace))
  · exact fun h c hc => h c (mem_of_mem_strip hc)

/-- There is nothing to strip from a text that neither starts nor ends with a space. -/
theorem strip_eq_self_iff {text : Text} :
    text.strip = text ↔
      (∀ c ∈ text.head?, c.isSpace = false) ∧ ∀ c ∈ text.getLast?, c.isSpace = false := by
  have hfirst : text.dropWhile CodePoint.isSpace = text ↔ ∀ c ∈ text.head?, c.isSpace = false := by
    cases text with
    | nil => simp
    | cons c rest => simp [List.dropWhile_eq_self_iff]
  have hlast : text.rdropWhile CodePoint.isSpace = text ↔
      ∀ c ∈ text.getLast?, c.isSpace = false := by
    rw [List.rdropWhile_eq_self_iff]
    constructor
    · intro h c hc
      obtain ⟨hne, rfl⟩ := List.mem_getLast?_eq_getLast hc
      exact Bool.eq_false_iff.mpr (h hne)
    · intro h hne
      exact Bool.eq_false_iff.mp (h _ (List.getLast_mem_getLast? hne))
  rw [← hfirst, ← hlast]
  constructor
  · intro h
    have hdrop : text.dropWhile CodePoint.isSpace = text := by
      refine (List.dropWhile_suffix _).eq_of_length (Nat.le_antisymm
        (List.dropWhile_suffix _).length_le ?_)
      calc text.length = text.strip.length := by rw [h]
        _ ≤ _ := (List.rdropWhile_prefix _ _).length_le
    exact ⟨hdrop, by rwa [strip, hdrop] at h⟩
  · intro ⟨hdrop, hrdrop⟩
    rw [strip, hdrop, hrdrop]

/-! ## Parts -/

/-- `text.rsplit(separator, 1)[-1]`. -/
def afterLast (separator : CodePoint) (text : Text) : Text := text.rtakeWhile (· ≠ separator)

theorem afterLast_eq_self {separator : CodePoint} {text : Text} (h : separator ∉ text) :
    text.afterLast separator = text := by
  rw [afterLast, List.rtakeWhile_eq_self_iff]
  intro c hc
  exact decide_eq_true fun heq => h (heq ▸ hc)

theorem not_mem_afterLast (separator : CodePoint) (text : Text) :
    separator ∉ text.afterLast separator := by
  intro hmem
  have := List.mem_rtakeWhile_imp hmem
  simp at this

theorem mem_of_mem_afterLast {separator c : CodePoint} {text : Text}
    (h : c ∈ text.afterLast separator) : c ∈ text :=
  (List.rtakeWhile_suffix _ _).subset h

/-- `text.partition(separator)[0]`. -/
def before (separator : CodePoint) (text : Text) : Text := text.takeWhile (· ≠ separator)

/-- `text.partition(separator)[2]`. -/
def after (separator : CodePoint) (text : Text) : Text := (text.dropWhile (· ≠ separator)).drop 1

theorem before_eq_self {separator : CodePoint} {text : Text} (h : separator ∉ text) :
    text.before separator = text := by
  rw [before, List.takeWhile_eq_self_iff]
  intro c hc
  exact decide_eq_true fun heq => h (heq ▸ hc)

theorem after_eq_nil {separator : CodePoint} {text : Text} (h : separator ∉ text) :
    text.after separator = [] := by
  have hdrop : text.dropWhile (· ≠ separator) = [] := by
    rw [List.dropWhile_eq_nil_iff]
    intro c hc
    exact decide_eq_true fun heq => h (heq ▸ hc)
  rw [after, hdrop, List.drop_nil]

theorem before_append_cons {separator : CodePoint} {front rest : Text} (h : separator ∉ front) :
    (front ++ separator :: rest).before separator = front := by
  have hfront : ∀ c ∈ front, decide (c ≠ separator) = true :=
    fun c hc => decide_eq_true fun heq => h (heq ▸ hc)
  rw [before, List.takeWhile_append_of_pos hfront,
    List.takeWhile_cons_of_neg (by simp), List.append_nil]

theorem after_append_cons {separator : CodePoint} {front rest : Text} (h : separator ∉ front) :
    (front ++ separator :: rest).after separator = rest := by
  have hfront : ∀ c ∈ front, decide (c ≠ separator) = true :=
    fun c hc => decide_eq_true fun heq => h (heq ▸ hc)
  rw [after, List.dropWhile_append_of_pos hfront, List.dropWhile_cons_of_neg (by simp),
    List.drop_one, List.tail_cons]

theorem not_mem_before (separator : CodePoint) (text : Text) :
    separator ∉ text.before separator := by
  intro hmem
  have := List.mem_takeWhile_imp hmem
  simp at this

theorem mem_of_mem_before {separator c : CodePoint} {text : Text} (h : c ∈ text.before separator) :
    c ∈ text := (List.takeWhile_prefix _).subset h

theorem mem_of_mem_after {separator c : CodePoint} {text : Text} (h : c ∈ text.after separator) :
    c ∈ text := (List.dropWhile_suffix _).subset (List.mem_of_mem_drop h)

end Text

import UltimateBBSBox.Library.Text

/-!
# Words of a text

What `str.split` without arguments makes of a text: its pieces between white space.  White
space at the ends and next to other white space leaves no word.
-/

namespace Text

open CodePoint (isSpace)

/-- `text.split()`. -/
def words (text : Text) : List Text := (text.splitOnP isSpace).filter fun word => word ≠ []

variable {text rest : Text} {c : CodePoint}

/-- Everything about words follows from this. -/
theorem words_append_cons (hc : c.isSpace = true) (text rest : Text) :
    words (text ++ c :: rest) = words text ++ words rest := by
  unfold words
  rw [List.splitOnP_append_cons text rest hc, List.filter_append]

theorem words_nil : words [] = [] := by
  simp [words, List.splitOnP_nil]

theorem words_of_solid (hne : text ≠ []) (h : ∀ c ∈ text, c.isSpace = false) :
    words text = [text] := by
  unfold words
  rw [List.splitOnP_eq_singleton h]
  exact List.filter_cons_of_pos (decide_eq_true hne)

/-- Induction along the white space of a text. -/
theorem induction_on_space {P : Text → Prop} (hsolid : ∀ text : Text, (∀ c ∈ text, c.isSpace = false) → P text)
    (hspace : ∀ (front back : Text) (c : CodePoint), c.isSpace = true →
      (∀ d ∈ front, d.isSpace = false) → P back → P (front ++ c :: back)) (text : Text) : P text := by
  -- what is to come is in front of a text that has no white space yet
  have hall : ∀ (rest front : Text), (∀ d ∈ front, d.isSpace = false) → P (front ++ rest) := by
    intro rest
    induction rest with
    | nil =>
        intro front hfront
        rw [List.append_nil]
        exact hsolid front hfront
    | cons c rest ih =>
        intro front hfront
        cases hc : c.isSpace with
        | true => exact hspace front rest c hc hfront (ih [] fun d hd => absurd hd List.not_mem_nil)
        | false =>
            rw [List.append_cons front c rest]
            refine ih (front ++ [c]) fun d hd => ?_
            rcases List.mem_append.mp hd with hd | hd
            · exact hfront d hd
            · rwa [List.mem_singleton.mp hd]
  exact hall text [] fun d hd => absurd hd List.not_mem_nil

theorem length_words_solid_le (h : ∀ c ∈ text, c.isSpace = false) : (words text).length ≤ 1 := by
  by_cases hne : text = []
  · rw [hne, words_nil]
    exact Nat.zero_le _
  · rw [words_of_solid hne h]
    rfl

/-- A word is between any two pieces of white space, at most. -/
theorem length_words_le (text : Text) : (words text).length ≤ text.countP isSpace + 1 := by
  induction text using induction_on_space with
  | hsolid text h => exact (length_words_solid_le h).trans (Nat.le_add_left _ _)
  | hspace front back c hc hfront ih =>
      have hfirst := length_words_solid_le hfront
      rw [words_append_cons hc, List.length_append, List.countP_append, List.countP_cons_of_pos hc]
      omega

/-- A character that is no white space is in a word. -/
theorem words_ne_nil (h : c ∈ text) (hc : c.isSpace = false) : words text ≠ [] := by
  induction text using induction_on_space with
  | hsolid text hsolid =>
      rw [words_of_solid (List.ne_nil_of_mem h) hsolid]
      exact List.cons_ne_nil _ _
  | hspace front back d hd hfront ih =>
      rw [words_append_cons hd]
      intro hnil
      obtain ⟨hfirst, hrest⟩ := List.append_eq_nil_iff.mp hnil
      rcases List.mem_append.mp h with hmem | hmem
      · rw [words_of_solid (List.ne_nil_of_mem hmem) hfront] at hfirst
        cases hfirst
      · rcases List.mem_cons.mp hmem with rfl | hmem
        · rw [hc] at hd
          cases hd
        · exact ih hmem hrest

/-- Words with a blank between them are read back. -/
theorem words_intercalate {parts : List Text}
    (h : ∀ part ∈ parts, part ≠ [] ∧ ∀ c ∈ part, c.isSpace = false) :
    words ((of " ").intercalate parts) = parts := by
  induction parts with
  | nil => exact words_nil
  | cons part rest ih =>
      obtain ⟨⟨hne, hsolid⟩, hrest⟩ := List.forall_mem_cons.mp h
      cases rest with
      | nil =>
          rw [List.intercalate_singleton]
          exact words_of_solid hne hsolid
      | cons other rest =>
          rw [List.intercalate_cons_cons, List.append_assoc]
          change words (part ++ CodePoint.ofChar ' ' :: (of " ").intercalate (other :: rest)) = _
          rw [words_append_cons (by decide), words_of_solid hne hsolid, ih hrest]
          rfl

end Text

import Mathlib.Data.List.TakeDrop
import UltimateBBSBox.Library.Text

/-!
# Files of lines

Records are appended to a file, one line each; of some lines only a part is written.  What is
torn runs into the next line, so that the last lines of the file are the last records while
the lines around them are whole (`lastLines_content`).
-/

namespace Text

/-- Where `str.splitlines` ends a line. -/
def isLineBreak (c : CodePoint) : Bool := c.val ∈ [10, 11, 12, 13, 28, 29, 30, 133, 8232, 8233]

/-- The newline character. -/
def newline : CodePoint := .ofChar '\n'

/-- Put a character before the first line. -/
def consFirst (c : CodePoint) : List Text → List Text
  | [] => [[c]]
  | line :: lines => (c :: line) :: lines

/-- `text.splitlines()`; a carriage return and a newline end one line. -/
def splitlines : Text → List Text
  | [] => []
  | c :: rest =>
      if c = .ofChar '\r' ∧ rest.head? = some newline then splitlines rest
      else if isLineBreak c then [] :: splitlines rest
      else consFirst c (splitlines rest)

theorem splitlines_newline (rest : Text) : splitlines (newline :: rest) = [] :: splitlines rest := by
  have hcarriage : newline ≠ .ofChar '\r' := by decide
  rw [splitlines, if_neg fun h => hcarriage h.1, if_pos (by decide)]

theorem consFirst_append {lines : List Text} (c : CodePoint) (more : List Text) (h : lines ≠ []) :
    consFirst c (lines ++ more) = consFirst c lines ++ more := by
  cases lines with
  | nil => exact absurd rfl h
  | cons line lines => rfl

theorem splitlines_ne_nil {text : Text} (h : text ≠ []) : splitlines text ≠ [] := by
  induction text with
  | nil => exact absurd rfl h
  | cons c rest ih =>
      rw [splitlines]
      split_ifs with hcarriage
      · apply ih
        rintro rfl
        cases hcarriage.2
      · exact List.cons_ne_nil _ _
      · cases splitlines rest <;> exact List.cons_ne_nil _ _

/-- A newline ends a line whatever is before it and after it. -/
theorem splitlines_append_newline (front rest : Text) :
    splitlines (front ++ newline :: rest) = splitlines (front ++ [newline]) ++ splitlines rest := by
  induction front with
  | nil =>
      rw [List.nil_append, List.nil_append, splitlines_newline, splitlines_newline]
      rfl
  | cons c front ih =>
      have hhead : (front ++ newline :: rest).head? = (front ++ [newline]).head? := by
        cases front <;> rfl
      have hne : splitlines (front ++ [newline]) ≠ [] := splitlines_ne_nil (by simp)
      rw [List.cons_append, List.cons_append, splitlines, splitlines, hhead, ih]
      split_ifs
      · rfl
      · rfl
      · exact consFirst_append c _ hne

/-- A text without line breaks, and what comes after it. -/
theorem splitlines_append_of_forall {text : Text} (h : ∀ c ∈ text, isLineBreak c = false) (rest : Text) :
    splitlines (text ++ newline :: rest) = text :: splitlines rest := by
  induction text with
  | nil => exact splitlines_newline rest
  | cons c text ih =>
      have hc := h c List.mem_cons_self
      have hcarriage : c ≠ .ofChar '\r' := by
        rintro rfl
        exact absurd hc (by decide)
      rw [List.cons_append, splitlines, if_neg fun hboth => hcarriage hboth.1, if_neg (by simp [hc]),
        ih fun d hd => h d (List.mem_cons_of_mem _ hd)]
      rfl

theorem splitlines_of_forall {text : Text} (h : ∀ c ∈ text, isLineBreak c = false) (hne : text ≠ []) :
    splitlines text = [text] := by
  induction text with
  | nil => exact absurd rfl hne
  | cons c text ih =>
      have hc := h c List.mem_cons_self
      have hcarriage : c ≠ .ofChar '\r' := by
        rintro rfl
        exact absurd hc (by decide)
      rw [splitlines, if_neg fun hboth => hcarriage hboth.1, if_neg (by simp [hc])]
      cases text with
      | nil => rfl
      | cons d text =>
          rw [ih (fun e he => h e (List.mem_cons_of_mem _ he)) (List.cons_ne_nil _ _)]
          rfl

end Text

namespace LineLog

open Text (newline splitlines isLineBreak)

/-- `lines[-n:]`: all lines for `n = 0`. -/
def lastLines (n : ℕ) (lines : List Text) : List Text :=
  if n = 0 then lines else lines.drop (lines.length - n)

/-- A record, and how many characters of its line were written. -/
structure Piece (R : Type) where
  record : R
  written : ℕ

variable {R : Type} (text : R → Text)

namespace Piece

/-- What was written. -/
def content (piece : Piece R) : Text := (text piece.record ++ [newline]).take piece.written

/-- The whole line was written. -/
def Whole (piece : Piece R) : Prop := (text piece.record).length < piece.written

/-- The record was written, with or without the end of its line. -/
def Complete (piece : Piece R) : Prop := (text piece.record).length ≤ piece.written

instance (piece : Piece R) : Decidable (piece.Complete text) :=
  inferInstanceAs (Decidable (_ ≤ _))

/-- Something was written. -/
def Started (piece : Piece R) : Prop := piece.written ≠ 0

instance (piece : Piece R) : Decidable piece.Started := inferInstanceAs (Decidable (_ ≠ _))

end Piece

/-- The file after some appends, the first one first. -/
def content (pieces : List (Piece R)) : Text := pieces.flatMap (Piece.content text)

/-- The records that were written, the last one first. -/
def records (pieces : List (Piece R)) : List R :=
  ((pieces.filter fun piece => piece.Complete text).reverse).map Piece.record

/-- The pieces that were started, the last one first. -/
def started (pieces : List (Piece R)) : List (Piece R) :=
  (pieces.filter fun piece => piece.Started).reverse

/-- The last `n + 1` pieces are whole, but for the end of the last line; for `n = 0` there are none. -/
structure Untorn (n : ℕ) (pieces : List (Piece R)) : Prop where
  none : n = 0 → started pieces = []
  last : ∀ piece ∈ (started pieces).head?, piece.Complete text
  whole : ∀ piece ∈ ((started pieces).take (n + 1)).tail, piece.Whole text

/-! ## The last lines -/

section Lines

variable {text} {piece : Piece R} {pieces newest : List (Piece R)} {n : ℕ}

theorem content_of_whole (h : piece.Whole text) : piece.content text = text piece.record ++ [newline] := by
  unfold Piece.content
  refine List.take_of_length_le ?_
  rw [List.length_append, List.length_singleton]
  exact h

/-- A record without the end of its line is the record itself. -/
theorem content_of_complete (h : piece.Complete text) (hnot : ¬ piece.Whole text) :
    piece.content text = text piece.record := by
  have hlength : piece.written = (text piece.record).length := Nat.le_antisymm (not_lt.mp hnot) h
  unfold Piece.content
  rw [hlength, List.take_left]

/-- Nothing is written of what is not started. -/
theorem content_filter_started (pieces : List (Piece R)) :
    content text (pieces.filter fun piece => piece.Started) = content text pieces := by
  induction pieces with
  | nil => rfl
  | cons piece pieces ih =>
      unfold content at ih ⊢
      by_cases hstarted : piece.Started
      · rw [List.filter_cons_of_pos (by simpa using hstarted), List.flatMap_cons, List.flatMap_cons, ih]
      · have hnothing : piece.content text = [] := by
          unfold Piece.content
          rw [not_not.mp hstarted, List.take_zero]
        rw [List.filter_cons_of_neg (by simpa using hstarted), List.flatMap_cons, ih, hnothing,
          List.nil_append]

variable (htext : ∀ r, text r ≠ [] ∧ ∀ c ∈ text r, isLineBreak c = false)
include htext

/-- Whole lines and a last one that need not end. -/
theorem splitlines_content (hlast : ∀ piece ∈ pieces.getLast?, piece.Complete text)
    (hwhole : ∀ piece ∈ pieces.dropLast, piece.Whole text) :
    splitlines (content text pieces) = pieces.map fun piece => text piece.record := by
  induction pieces with
  | nil => rfl
  | cons piece pieces ih =>
      obtain ⟨hne, hbreaks⟩ := htext piece.record
      cases pieces with
      | nil =>
          have hcomplete := hlast piece rfl
          show splitlines (piece.content text ++ []) = [text piece.record]
          rw [List.append_nil]
          by_cases hended : piece.Whole text
          · rw [content_of_whole hended, Text.splitlines_append_of_forall hbreaks]
            rfl
          · rw [content_of_complete hcomplete hended, Text.splitlines_of_forall hbreaks hne]
      | cons next pieces =>
          have hfirst := hwhole piece List.mem_cons_self
          have hrest := ih hlast fun other hother => hwhole other (List.mem_cons_of_mem _ hother)
          show splitlines (piece.content text ++ content text (next :: pieces)) = _
          rw [content_of_whole hfirst, List.append_assoc, List.singleton_append,
            Text.splitlines_append_of_forall hbreaks, hrest]
          rfl

/-- The complete records among those that were started. -/
theorem records_eq (pieces : List (Piece R)) :
    records text pieces =
      ((started pieces).filter fun piece => piece.Complete text).map Piece.record := by
  have hstarted : ∀ piece : Piece R, piece.Complete text → piece.Started := by
    intro piece hcomplete hzero
    unfold Piece.Complete at hcomplete
    rw [hzero] at hcomplete
    exact (htext piece.record).1 (List.length_eq_zero_iff.mp (Nat.le_zero.mp hcomplete))
  unfold records started
  rw [List.filter_reverse, List.filter_filter]
  congr 2
  refine List.filter_congr fun piece _ => ?_
  by_cases hcomplete : piece.Complete text
  · simp [hcomplete, hstarted piece hcomplete]
  · simp [hcomplete]

omit htext in
/-- Of an untorn file, what comes before the last pieces ends with a line. -/
theorem splitlines_append_recent (h : Untorn text n pieces) (hpos : n ≠ 0) (recent : Text) :
    splitlines (content text ((started pieces).drop n).reverse ++ recent) =
      splitlines (content text ((started pieces).drop n).reverse) ++ splitlines recent := by
  cases holder : (started pieces).drop n with
  | nil => rfl
  | cons piece older =>
      have hwhole : piece.Whole text := by
        apply h.whole
        have hget : (started pieces)[n]? = some piece := by
          rw [← List.head?_drop, holder, List.head?_cons]
        rw [← List.drop_one]
        refine List.mem_iff_getElem?.mpr ⟨n - 1, ?_⟩
        rw [List.getElem?_drop, Nat.add_sub_cancel' (Nat.one_le_iff_ne_zero.mpr hpos),
          List.getElem?_take_of_lt (Nat.lt_succ_self n), hget]
      have hends : content text (piece :: older).reverse =
          (content text older.reverse ++ text piece.record) ++ [newline] := by
        unfold content
        rw [List.reverse_cons, List.flatMap_append, List.flatMap_singleton, content_of_whole hwhole,
          List.append_assoc]
      rw [hends, List.append_assoc, List.singleton_append, Text.splitlines_append_newline]

omit htext in
/-- The last pieces are complete, and all but the last one are whole. -/
theorem complete_of_mem_take (h : Untorn text n pieces) (hmem : piece ∈ (started pieces).take n) :
    piece.Complete text := by
  cases hstarted : started pieces with
  | nil =>
      rw [hstarted, List.take_nil] at hmem
      cases hmem
  | cons first rest =>
      have hlast := h.last
      have hwhole := h.whole
      rw [hstarted] at hmem hlast hwhole
      cases n with
      | zero => cases hmem
      | succ n =>
          rw [List.take_succ_cons] at hmem hwhole
          rcases List.mem_cons.mp hmem with rfl | hmem
          · exact hlast _ rfl
          · have hsub := List.take_subset_take_left rest (Nat.le_succ n) hmem
            exact Nat.le_of_lt (hwhole piece hsub)

/-- The last pieces are the lines that they end with. -/
theorem splitlines_recent (h : Untorn text n pieces) :
    splitlines (content text ((started pieces).take n).reverse) =
      ((started pieces).take n).reverse.map fun piece => text piece.record := by
  refine splitlines_content htext (fun piece hlast => ?_) fun piece hmem => ?_
  · rw [List.getLast?_reverse] at hlast
    exact complete_of_mem_take h (List.mem_of_mem_head? hlast)
  · rw [List.dropLast_reverse, List.mem_reverse] at hmem
    apply h.whole
    cases hstarted : started pieces with
    | nil =>
        rw [hstarted, List.take_nil] at hmem
        cases hmem
    | cons first rest =>
        rw [hstarted] at hmem
        cases n with
        | zero => cases hmem
        | succ n =>
            rw [List.take_succ_cons, List.tail_cons] at hmem ⊢
            exact List.take_subset_take_left rest (Nat.le_succ n) hmem

/-- The last records. -/
theorem take_records (h : Untorn text n pieces) :
    (records text pieces).take n = ((started pieces).take n).map Piece.record := by
  have hall : ((started pieces).take n).filter (fun piece => piece.Complete text) =
      (started pieces).take n :=
    List.filter_eq_self.mpr fun piece hmem => decide_eq_true (complete_of_mem_take h hmem)
  rw [records_eq htext, ← List.map_take]
  congr 1
  nth_rewrite 1 [← List.take_append_drop n (started pieces)]
  rw [List.filter_append, hall]
  rcases le_or_gt n (started pieces).length with hle | hlt
  · rw [List.take_left' (List.length_take_of_le hle)]
  · rw [List.drop_eq_nil_of_le hlt.le, List.filter_nil, List.append_nil, List.take_take, min_self]

/-- **The last lines of an untorn file are its last records.** -/
theorem lastLines_content (h : Untorn text n pieces) :
    lastLines n (splitlines (content text pieces)) = (((records text pieces).take n).map text).reverse := by
  -- the file is the older pieces followed by the last `n`
  have hsplit : content text pieces = content text ((started pieces).drop n).reverse ++
      content text ((started pieces).take n).reverse := by
    rw [← content_filter_started pieces]
    unfold content
    rw [← List.flatMap_append, ← List.reverse_append, List.take_append_drop]
    unfold started
    rw [List.reverse_reverse]
  rw [take_records htext h, List.map_map, ← List.map_reverse, hsplit]
  by_cases hzero : n = 0
  · rw [h.none hzero, List.take_nil, List.drop_nil]
    unfold lastLines
    rw [if_pos hzero]
    rfl
  · rw [splitlines_append_recent h hzero, splitlines_recent htext h]
    unfold lastLines
    rw [if_neg hzero]
    rcases le_or_gt n (started pieces).length with hle | hlt
    · have hlength : (((started pieces).take n).reverse.map fun piece => text piece.record).length = n := by
        rw [List.length_map, List.length_reverse, List.length_take_of_le hle]
      rw [List.length_append, hlength, Nat.add_sub_cancel, List.drop_left]
      rfl
    · -- fewer lines than asked for: nothing is dropped
      rw [List.drop_eq_nil_of_le hlt.le, List.take_of_length_le hlt.le]
      have hshort : ((started pieces).reverse.map fun piece => text piece.record).length - n = 0 := by
        rw [List.length_map, List.length_reverse]
        omega
      show List.drop (List.length (_ ++ _) - n) _ = _
      rw [show splitlines (content text ([] : List (Piece R)).reverse) = [] from rfl, List.nil_append,
        hshort, List.drop_zero]
      rfl

end Lines

end LineLog

import UltimateBBSBox.Library.Text

/-!
# File names

`safe_filename` of `ubb_archive.py`, and when its result is a name that it keeps.
The name is stripped before NUL characters are taken out of it and before it is
cut to 255 characters, so that a name which is accepted may still start or end
with a space; such a name is not kept the next time.
-/

namespace UltimateBBSBox.Archive

/-- Classes of exceptions that are not raised by the archive itself. -/
inductive Foreign
  | attributeError
  | keyError
  | typeError
  | valueError
  | unicodeDecodeError
  | unicodeEncodeError
  | osError
  | fileExistsError
  | badZipFile
  | eofError
  | runtimeError
  | other
deriving DecidableEq

/-- An exception: `ArchiveError` and its subclasses with their texts, or another one. -/
inductive Exn
  | archiveError (message : Text)
  | duplicateArtifact (message : Text)
  | verificationError (message : Text)
  | foreign (cls : Foreign)
deriving DecidableEq

/-! ## `safe_filename` -/

section Parts

/-- `value.replace("\\", "/").rsplit("/", 1)[-1].strip().replace("\x00", "")`. -/
def baseName (value : Text) : Text :=
  let value : Text := value.map fun c => if c = .ofChar '\\' then .ofChar '/' else c
  (Text.afterLast (.ofChar '/') value).strip.filter (· ≠ .ofChar '\x00')

/-- `pathlib.PurePath(value).name`. -/
def purePathName (value : Text) : Text :=
  ((value.splitOn (.ofChar '/')).filter fun part => part ∉ [Text.of "", Text.of "."]).getLastD []

/-- `[A-Za-z0-9._+() -]`. -/
def isKept (c : CodePoint) : Bool :=
  (.ofChar 'A' ≤ c ∧ c ≤ .ofChar 'Z') ∨ (.ofChar 'a' ≤ c ∧ c ≤ .ofChar 'z') ∨
    (.ofChar '0' ≤ c ∧ c ≤ .ofChar '9') ∨ c ∈ ['.', '_', '+', '(', ')', ' ', '-'].map CodePoint.ofChar

/-- `re.sub(r"[^A-Za-z0-9._+() -]", "_", value)`. -/
def cleaned (value : Text) : Text := value.map fun c => if isKept c then c else .ofChar '_'

end Parts

/-- `safe_filename`. -/
def safeFilename (value : Text) : Except Exn Text := do
  let value := baseName value
  if value ∈ [Text.of "", Text.of ".", Text.of ".."] ∨ purePathName value ≠ value then
    throw (.archiveError (.of "unsafe or empty original filename"))
  let value := cleaned value
  if value ∈ [Text.of "", Text.of ".", Text.of ".."] then
    throw (.archiveError (.of "unsafe original filename"))
  return value.take 255

/-! ## What is kept of a name -/

section Cleaning

variable {value : Text} {c : CodePoint}

/-- All characters are kept. -/
def Clean (value : Text) : Prop := ∀ c ∈ value, isKept c = true

theorem clean_cleaned (value : Text) : Clean (cleaned value) := by
  intro c hc
  obtain ⟨d, _, rfl⟩ := List.mem_map.mp hc
  split
  · assumption
  · decide

theorem cleaned_eq_self (h : Clean value) : cleaned value = value := by
  unfold cleaned
  conv_rhs => rw [← List.map_id value]
  apply List.map_congr_left
  intro c hc
  exact if_pos (h c hc)

theorem length_cleaned (value : Text) : (cleaned value).length = value.length :=
  List.length_map _

/-- Of the characters that are kept, the space is the only whitespace. -/
theorem isSpace_iff_of_kept (h : isKept c = true) : c.isSpace = true ↔ c = .ofChar ' ' := by
  simp only [isKept, CodePoint.ofChar, Char.reduceToNat, Fin.le_def, List.map_cons, List.map_nil,
    List.mem_cons, List.not_mem_nil, or_false, Fin.ext_iff, decide_eq_true_eq] at h
  simp only [CodePoint.isSpace, CodePoint.ofChar, Char.reduceToNat, List.mem_cons, List.not_mem_nil,
    or_false, Fin.ext_iff, decide_eq_true_eq]
  omega

theorem not_kept {c : Char} (h : c ∈ ['/', '\\', '\x00']) : isKept (.ofChar c) = false := by
  have hall : ∀ c ∈ ['/', '\\', '\x00'], isKept (.ofChar c) = false :=
    List.forall_iff_forall_mem.mp (by decide)
  exact hall c h

/-- Cleaning leaves spaces and full stops where they are, and puts none elsewhere. -/
theorem clean_char_eq_iff {d : CodePoint} (hd : d ∈ [CodePoint.ofChar ' ', .ofChar '.']) :
    (if isKept c then c else CodePoint.ofChar '_') = d ↔ c = d := by
  have hkept : isKept d = true ∧ CodePoint.ofChar '_' ≠ d := by
    rw [List.mem_cons, List.mem_singleton] at hd
    rcases hd with rfl | rfl <;> exact ⟨by decide, by simp⟩
  obtain ⟨hkept, hne⟩ := hkept
  split
  · rfl
  · rename_i hc
    constructor
    · intro h
      exact absurd h hne
    · intro h
      exact absurd (h ▸ hkept) hc

theorem cleaned_eq_dots_iff {dots : Text} (hdots : ∀ d ∈ dots, d = .ofChar '.') :
    cleaned value = dots ↔ value = dots := by
  unfold cleaned
  induction value generalizing dots with
  | nil => rfl
  | cons c rest ih =>
      cases dots with
      | nil => simp
      | cons d dots =>
          have hd := hdots d List.mem_cons_self
          rw [List.map_cons, List.cons.injEq, List.cons.injEq,
            ih fun e he => hdots e (List.mem_cons_of_mem _ he),
            clean_char_eq_iff (by rw [hd]; decide)]

end Cleaning

/-! ## Names that are kept -/

section Names

variable {value name : Text}

theorem of_dots {dots : String} (h : dots ∈ ["", ".", ".."]) :
    ∀ d ∈ Text.of dots, d = .ofChar '.' := by
  simp only [List.mem_cons, List.not_mem_nil, or_false] at h
  rcases h with rfl | rfl | rfl <;> simp [Text.of]

/-- Cleaning makes no name one of those that are refused. -/
theorem cleaned_mem_refused_iff :
    cleaned value ∈ [Text.of "", Text.of ".", Text.of ".."] ↔
      value ∈ [Text.of "", Text.of ".", Text.of ".."] := by
  simp only [List.mem_cons, List.not_mem_nil, or_false,
    cleaned_eq_dots_iff (of_dots (by decide : "" ∈ ["", ".", ".."])),
    cleaned_eq_dots_iff (of_dots (by decide : "." ∈ ["", ".", ".."])),
    cleaned_eq_dots_iff (of_dots (by decide : ".." ∈ ["", ".", ".."]))]

/-- The check of the path's name lets through what the one before it does. -/
theorem purePathName_eq_self (hsep : .ofChar '/' ∉ value)
    (h : value ∉ [Text.of "", Text.of ".", Text.of ".."]) : purePathName value = value := by
  have hsplit : value.splitOn (.ofChar '/') = [value] := by
    apply List.splitOnP_eq_singleton
    intro c hc
    exact beq_eq_false_iff_ne.mpr fun heq => hsep (heq ▸ hc)
  simp only [List.mem_cons, List.not_mem_nil, or_false, not_or] at h
  simp [purePathName, hsplit, h.1, h.2.1]

theorem not_mem_baseName (value : Text) : .ofChar '/' ∉ baseName value := by
  intro h
  exact Text.not_mem_afterLast _ _ (Text.mem_of_mem_strip (List.mem_of_mem_filter h))

/-- **When a name is accepted**, and what it becomes. -/
theorem safeFilename_eq (value : Text) :
    safeFilename value =
      if baseName value ∈ [Text.of "", Text.of ".", Text.of ".."] then
        .error (.archiveError (.of "unsafe or empty original filename"))
      else .ok ((cleaned (baseName value)).take 255) := by
  unfold safeFilename
  by_cases h : baseName value ∈ [Text.of "", Text.of ".", Text.of ".."]
  · simp only [h, true_or, if_true]
    rfl
  · have hname : purePathName (baseName value) = baseName value :=
      purePathName_eq_self (not_mem_baseName value) h
    have hcleaned := cleaned_mem_refused_iff.not.mpr h
    simp only [h, hname, hcleaned, ne_eq, not_true_eq_false, or_self, if_false]
    rfl

/-- What a name may be under which a payload is put into a directory. -/
structure Sound (name : Text) : Prop where
  nonempty : name ≠ []
  bounded : name.length ≤ 255
  clean : Clean name
  undotted : name ∉ [Text.of ".", Text.of ".."]

theorem Sound.not_mem {c : Char} (h : Sound name) (hc : c ∈ ['/', '\\', '\x00']) :
    .ofChar c ∉ name := by
  intro hmem
  have hkept := h.clean _ hmem
  rw [not_kept hc] at hkept
  cases hkept

/-- Every accepted name is sound. -/
theorem sound_of_safeFilename (h : safeFilename value = .ok name) : Sound name := by
  rw [safeFilename_eq] at h
  split at h
  · cases h
  · rename_i hbase
    rw [Except.ok.injEq] at h
    subst h
    simp only [List.mem_cons, List.not_mem_nil, or_false, not_or] at hbase
    refine ⟨?_, List.length_take_le _ _, fun c hc => clean_cleaned _ c (List.mem_of_mem_take hc), ?_⟩
    · intro hnil
      rw [List.take_eq_nil_iff] at hnil
      rcases hnil with h255 | hnil
      · cases h255
      · exact hbase.1 (List.map_eq_nil_iff.mp hnil)
    · have hshort : ∀ dots : Text, dots.length < 255 →
          (cleaned (baseName value)).take 255 = dots → cleaned (baseName value) = dots := by
        intro dots hlength htake
        have hlt : (cleaned (baseName value)).length < 255 := by
          have := congrArg List.length htake
          rw [List.length_take] at this
          omega
        rwa [List.take_of_length_le hlt.le] at htake
      simp only [List.mem_cons, List.not_mem_nil, or_false, not_or]
      constructor
      · intro heq
        have hdot := hshort _ (by simp [Text.of]) heq
        exact hbase.2.1 ((cleaned_eq_dots_iff (of_dots (by simp))).mp hdot)
      · intro heq
        have hdots := hshort _ (by simp [Text.of]) heq
        exact hbase.2.2 ((cleaned_eq_dots_iff (of_dots (by simp))).mp hdots)

/-- Of a clean name only the spaces around it are taken away. -/
theorem baseName_of_clean (h : Clean name) : baseName name = name.strip := by
  have hne : ∀ c ∈ ['/', '\\', '\x00'], CodePoint.ofChar c ∉ name := by
    intro c hc hmem
    have hkept := h _ hmem
    rw [not_kept hc] at hkept
    cases hkept
  have hfolded : (name.map fun c => if c = CodePoint.ofChar '\\' then .ofChar '/' else c) = name := by
    conv_rhs => rw [← List.map_id name]
    apply List.map_congr_left
    intro c hc
    refine if_neg fun heq => hne '\\' (by simp) ?_
    rwa [heq] at hc
  unfold baseName
  dsimp only
  rw [hfolded, Text.afterLast_eq_self (hne '/' (by simp)), List.filter_eq_self]
  intro c hc
  refine decide_eq_true fun heq => hne '\x00' (by simp) ?_
  exact heq ▸ Text.mem_of_mem_strip hc

/-- A sound name is kept exactly if there is no space around it. -/
theorem safeFilename_eq_self_iff (h : Sound name) :
    safeFilename name = .ok name ↔
      name.head? ≠ some (.ofChar ' ') ∧ name.getLast? ≠ some (.ofChar ' ') := by
  have hspace : name.strip = name ↔
      name.head? ≠ some (.ofChar ' ') ∧ name.getLast? ≠ some (.ofChar ' ') := by
    have hkept : ∀ c ∈ name, c.isSpace = false ↔ c ≠ .ofChar ' ' := by
      intro c hc
      rw [Bool.eq_false_iff]
      exact (isSpace_iff_of_kept (h.clean c hc)).not
    rw [Text.strip_eq_self_iff]
    refine and_congr ⟨fun hall heq => ?_, fun hne c hc => ?_⟩ ⟨fun hall heq => ?_, fun hne c hc => ?_⟩
    · exact (hkept _ (List.mem_of_mem_head? heq)).mp (hall _ heq) rfl
    · exact (hkept _ (List.mem_of_mem_head? hc)).mpr fun heq => hne (heq ▸ hc)
    · exact (hkept _ (List.mem_of_getLast? heq)).mp (hall _ heq) rfl
    · exact (hkept _ (List.mem_of_getLast? hc)).mpr fun heq => hne (heq ▸ hc)
  rw [← hspace, safeFilename_eq, baseName_of_clean h.clean]
  constructor
  · intro hok
    split at hok
    · cases hok
    · rw [Except.ok.injEq] at hok
      refine name.strip_infix.eq_of_length (Nat.le_antisymm name.length_strip_le ?_)
      calc name.length = ((cleaned name.strip).take 255).length := by rw [hok]
        _ ≤ name.strip.length := by rw [← length_cleaned name.strip]; exact List.length_take_le' _ _
  · intro hstrip
    have hrefused : name ∉ [Text.of "", Text.of ".", Text.of ".."] := by
      rw [List.mem_cons, not_or]
      exact ⟨by simpa [Text.of] using h.nonempty, h.undotted⟩
    rw [hstrip, if_neg hrefused, cleaned_eq_self h.clean, List.take_of_length_le h.bounded]

end Names

/-! ## Stability -/

/-- The name that is returned for a text is sound, and kept when it is checked again. -/
def Stable (value : Text) : Prop :=
  ∀ name, safeFilename value = .ok name →
    name ≠ [] ∧ name.length ≤ 255 ∧ (∀ c ∈ ['/', '\\', '\x00'], .ofChar c ∉ name) ∧
      name ∉ [Text.of ".", Text.of ".."] ∧ safeFilename name = .ok name

/-- **A sanitized name is stable** exactly if the text is refused, or its last component,
stripped and without NUL characters, neither starts with a space nor has one as the last of
its first 255 characters. -/
theorem safeFilename_stable_iff (value : Text) :
    Stable value ↔
      baseName value ∈ [Text.of "", Text.of ".", Text.of ".."] ∨
        ((baseName value).head? ≠ some (.ofChar ' ') ∧
          ((baseName value).take 255).getLast? ≠ some (.ofChar ' ')) := by
  have heq := safeFilename_eq value
  by_cases hrefused : baseName value ∈ [Text.of "", Text.of ".", Text.of ".."]
  · rw [if_pos hrefused] at heq
    refine iff_of_true (fun name hok => ?_) (.inl hrefused)
    rw [heq] at hok
    cases hok
  · rw [if_neg hrefused] at heq
    have hsound := sound_of_safeFilename heq
    have hfirst : ((cleaned (baseName value)).take 255).head? = some (.ofChar ' ') ↔
        (baseName value).head? = some (.ofChar ' ') := by
      cases hbase : baseName value with
      | nil => simp [cleaned]
      | cons c rest => simp [cleaned, clean_char_eq_iff]
    have hlast : ((cleaned (baseName value)).take 255).getLast? = some (.ofChar ' ') ↔
        ((baseName value).take 255).getLast? = some (.ofChar ' ') := by
      rw [cleaned, ← List.map_take, List.getLast?_map]
      cases ((baseName value).take 255).getLast? with
      | none => simp
      | some c => simp [clean_char_eq_iff]
    have hself := safeFilename_eq_self_iff hsound
    rw [ne_eq, ne_eq, hfirst, hlast] at hself
    constructor
    · intro hstable
      exact .inr (hself.mp (hstable _ heq).2.2.2.2)
    · intro hspaces name hok
      rw [heq, Except.ok.injEq] at hok
      subst hok
      refine ⟨hsound.nonempty, hsound.bounded, fun c hc => hsound.not_mem hc, hsound.undotted, ?_⟩
      exact hself.mpr (hspaces.resolve_left hrefused)

/-- A name of 256 characters that is cut after a space: `safe_filename` returns it with
the space and, asked again, without it. -/
theorem safeFilename_unstable_when_cut :
    ¬ Stable (List.replicate 254 (.ofChar 'a') ++ [.ofChar ' ', .ofChar 'b']) := by
  intro hstable
  have ha : isKept (.ofChar 'a') = true := by decide
  have hspace : isKept (.ofChar ' ') = true := by decide
  have hb : isKept (.ofChar 'b') = true := by decide
  have hlength : (List.replicate 254 (CodePoint.ofChar 'a')).length = 254 := List.length_replicate
  have has : ∀ c ∈ List.replicate 254 (CodePoint.ofChar 'a'), c = .ofChar 'a' :=
    fun c hc => List.eq_of_mem_replicate hc
  -- only the length and the letters of the beginning matter
  generalize List.replicate 254 (CodePoint.ofChar 'a') = as at hstable hlength has
  have hclean : Clean (as ++ [.ofChar ' ', .ofChar 'b']) := by
    intro c hc
    rw [List.mem_append, List.mem_cons, List.mem_singleton] at hc
    rcases hc with hc | rfl | rfl
    · exact has c hc ▸ ha
    · exact hspace
    · exact hb
  have hbase : baseName (as ++ [.ofChar ' ', .ofChar 'b']) = as ++ [.ofChar ' ', .ofChar 'b'] := by
    rw [baseName_of_clean hclean, Text.strip_eq_self_iff]
    constructor
    · intro c hc
      obtain ⟨first, rest, rfl⟩ := List.exists_cons_of_length_eq_add_one hlength
      rw [List.cons_append, List.head?_cons, Option.mem_some_iff] at hc
      rw [← hc, has first List.mem_cons_self]
      decide
    · intro c hc
      rw [List.getLast?_append, Option.mem_def, List.getLast?_cons_cons, List.getLast?_singleton,
        Option.some_or, Option.some.injEq] at hc
      rw [← hc]
      decide
  have hrefused : as ++ [.ofChar ' ', .ofChar 'b'] ∉ [Text.of "", Text.of ".", Text.of ".."] := by
    intro hmem
    simp only [List.mem_cons, List.not_mem_nil, or_false] at hmem
    rcases hmem with h | h | h <;>
      exact absurd (congrArg List.length h) (by simp [Text.of, hlength])
  have hok : safeFilename (as ++ [.ofChar ' ', .ofChar 'b']) = .ok (as ++ [.ofChar ' ']) := by
    rw [safeFilename_eq, hbase, cleaned_eq_self hclean, if_neg hrefused, List.take_append, hlength,
      List.take_of_length_le (by omega)]
    rfl
  have hkept := (hstable _ hok).2.2.2.2
  rw [safeFilename_eq_self_iff (sound_of_safeFilename hok)] at hkept
  exact hkept.2 (by rw [List.getLast?_append]; rfl)

end UltimateBBSBox.Archive

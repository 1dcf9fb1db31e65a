import Mathlib.Data.List.Chain
import UltimateBBSBox.Archive.Values

/-!
# Texts of JSON values

What `json.dumps` writes of a `dict` of texts, and what `json.loads` reads.  The text that is
written is printable ASCII (`printable_dumps`), and reads back as the same `dict`
(`loads_dumps`).

The number that `float` makes of a literal is a parameter.  The limit on the depth of nested
values is left out.
-/

namespace UltimateBBSBox.Archive.JsonText

open CodePoint (ofChar isDigit)

/-! ## Writing -/

/-- A hexadecimal digit, in lower case. -/
def hexDigit (n : ℕ) : CodePoint := ofChar (Nat.digitChar n)

/-- `\uXXXX`. -/
def unicodeEscape (n : ℕ) : Text :=
  [ofChar '\\', ofChar 'u', hexDigit (n / 4096 % 16), hexDigit (n / 256 % 16), hexDigit (n / 16 % 16),
    hexDigit (n % 16)]

/-- The characters with an escape of two characters, and the second of them. -/
def shortEscapes : List (Char × Char) :=
  [('"', '"'), ('\\', '\\'), ('\n', 'n'), ('\r', 'r'), ('\t', 't'), ('\x0c', 'f'), ('\x08', 'b')]

/-- A character in a JSON string, as `ensure_ascii` has it. -/
def escape (c : CodePoint) : Text :=
  match shortEscapes.find? fun entry => ofChar entry.1 = c with
  | some entry => [ofChar '\\', ofChar entry.2]
  | none =>
      if 0x20 ≤ c.val ∧ c.val ≤ 0x7E then [c]
      else if c.val < 0x10000 then unicodeEscape c.val
      else unicodeEscape (0xD800 + (c.val - 0x10000) / 1024) ++
        unicodeEscape (0xDC00 + (c.val - 0x10000) % 1024)

/-- A JSON string. -/
def quoted (text : Text) : Text := ofChar '"' :: text.flatMap escape ++ [ofChar '"']

/-- The fields between the braces. -/
def dumpsFields : List (Text × Text) → Text
  | [] => []
  | [(key, value)] => quoted key ++ ofChar ':' :: quoted value
  | (key, value) :: rest => quoted key ++ ofChar ':' :: (quoted value ++ ofChar ',' :: dumpsFields rest)

/-- `json.dumps(fields, separators=(",", ":"))`, in the order of the fields. -/
def dumps (fields : List (Text × Text)) : Text := ofChar '{' :: dumpsFields fields ++ [ofChar '}']

/-! ## Reading -/

/-- The value of a hexadecimal digit. -/
def hexValue (c : CodePoint) : Option ℕ :=
  if ofChar '0' ≤ c ∧ c ≤ ofChar '9' then some (c.val - 48)
  else if ofChar 'a' ≤ c ∧ c ≤ ofChar 'f' then some (c.val - 87)
  else if ofChar 'A' ≤ c ∧ c ≤ ofChar 'F' then some (c.val - 55)
  else none

/-- Four hexadecimal digits. -/
def scanHex : Text → Option (ℕ × Text)
  | a :: b :: c :: d :: rest => do
      return ((← hexValue a) * 4096 + (← hexValue b) * 256 + (← hexValue c) * 16 + (← hexValue d), rest)
  | _ => none

/-- The code point of a number. -/
def codePoint (n : ℕ) : CodePoint := Fin.ofNat _ n

/-- The low surrogate after a high one, which joins it. -/
def scanLow (high : ℕ) (text : Text) : Option (CodePoint × Text) :=
  match text with
  | b :: u :: rest =>
      if b = ofChar '\\' ∧ u = ofChar 'u' then do
        let (low, rest) ← scanHex rest
        if 0xDC00 ≤ low ∧ low ≤ 0xDFFF then
          return (codePoint (0x10000 + (high - 0xD800) * 1024 + (low - 0xDC00)), rest)
        else return (codePoint high, text)
      else some (codePoint high, text)
  | _ => some (codePoint high, text)

/-- The character of an escape, after its backslash. -/
def scanEscape : Text → Option (CodePoint × Text)
  | [] => none
  | e :: rest =>
      if e = ofChar 'u' then do
        let (n, rest) ← scanHex rest
        if 0xD800 ≤ n ∧ n ≤ 0xDBFF then scanLow n rest else return (codePoint n, rest)
      else
        match (('/', '/') :: shortEscapes).find? fun entry => ofChar entry.2 = e with
        | some entry => some (ofChar entry.1, rest)
        | none => none

/-- A character of a string. -/
def scanChar (c : CodePoint) (rest : Text) : Option (CodePoint × Text) :=
  if c.val < 0x20 then none
  else if c = ofChar '\\' then scanEscape rest
  else some (c, rest)

/-- A string of at most `fuel` characters, after its quotation mark. -/
def scanString : ℕ → Text → Option (Text × Text)
  | 0, _ | _, [] => none
  | fuel + 1, c :: rest =>
      if c = ofChar '"' then some ([], rest)
      else do
        let (d, rest) ← scanChar c rest
        let (ds, rest) ← scanString fuel rest
        return (d :: ds, rest)

/-- Spaces between tokens. -/
def skipSpace (text : Text) : Text :=
  text.dropWhile fun c => c ∈ [' ', '\t', '\n', '\r'].map ofChar

/-- A character that has to come next. -/
def expect (c : Char) : Text → Option Text
  | [] => none
  | d :: rest => if d = ofChar c then some rest else none

/-- The fields of an object, up to its brace, where `scan` reads their values. -/
def scanFields (scan : Text → Option (Value × Text)) : ℕ → Text → Option (Fields × Text)
  | 0, _ => none
  | fuel + 1, text => do
      let text ← expect '"' text
      let (key, text) ← scanString text.length text
      let text ← expect ':' (skipSpace text)
      let (value, text) ← scan (skipSpace text)
      match skipSpace text with
      | [] => none
      | c :: text =>
          if c = ofChar '}' then return ([(key, value)], text)
          else if c = ofChar ',' then do
            let (fields, text) ← scanFields scan fuel (skipSpace text)
            return ((key, value) :: fields, text)
          else none

/-- The items of an array, up to its bracket. -/
def scanItems (scan : Text → Option (Value × Text)) : ℕ → Text → Option (List Value × Text)
  | 0, _ => none
  | fuel + 1, text => do
      let (value, text) ← scan text
      match skipSpace text with
      | [] => none
      | c :: text =>
          if c = ofChar ']' then return ([value], text)
          else if c = ofChar ',' then do
            let (items, text) ← scanItems scan fuel (skipSpace text)
            return (value :: items, text)
          else none

/-- The digits that come next. -/
def digits (text : Text) : Text := text.takeWhile isDigit

/-- `\.\d+`, if it comes next. -/
def fraction : Text → Text
  | [] => []
  | c :: rest => if c = ofChar '.' ∧ digits rest ≠ [] then c :: digits rest else []

/-- `[eE][-+]?\d+`, if it comes next. -/
def exponent : Text → Text
  | [] => []
  | c :: rest =>
      let sign := rest.takeWhile fun d => d = ofChar '+' ∨ d = ofChar '-'
      let power := digits (rest.drop sign.length)
      if (c = ofChar 'e' ∨ c = ofChar 'E') ∧ sign.length ≤ 1 ∧ power ≠ [] then c :: sign ++ power else []

/-- A number; an integer has at most 4300 digits. -/
def scanNumber (float : Text → Number) (text : Text) : Option (Value × Text) :=
  let sign := text.take (if text.head? = some (ofChar '-') then 1 else 0)
  let text := text.drop sign.length
  let whole := if text.head? = some (ofChar '0') then text.take 1 else digits text
  let text := text.drop whole.length
  let part := fraction text
  let text := text.drop part.length
  let power := exponent text
  let text := text.drop power.length
  if whole = [] then none
  else if part = [] ∧ power = [] then
    if 4300 < whole.length then none
    else
      let n : ℤ := whole.foldl (fun n c => n * 10 + (c.val - 48)) 0
      some (.number (.int (if sign = [] then n else -n)), text)
  else some (.number (float (sign ++ whole ++ part ++ power)), text)

/-- The constants. -/
def constants : List (String × Value) :=
  [("null", .null), ("true", .bool true), ("false", .bool false), ("NaN", .number .nan),
    ("Infinity", .number .infinity), ("-Infinity", .number .negInfinity)]

/-- A value that is nested at most `depth` deep. -/
def scanValue (float : Text → Number) : ℕ → Text → Option (Value × Text)
  | 0, _ | _, [] => none
  | depth + 1, c :: rest =>
      if c = ofChar '"' then do
        let (value, rest) ← scanString rest.length rest
        return (.text value, rest)
      else if c = ofChar '{' then
        match expect '}' (skipSpace rest) with
        | some rest => some (.object [], rest)
        | none => do
            let (fields, rest) ← scanFields (scanValue float depth) rest.length (skipSpace rest)
            return (.object (Dict.ofList fields).entries, rest)
      else if c = ofChar '[' then
        match expect ']' (skipSpace rest) with
        | some rest => some (.array [], rest)
        | none => do
            let (items, rest) ← scanItems (scanValue float depth) rest.length (skipSpace rest)
            return (.array items, rest)
      else
        match constants.find? fun constant => (Text.of constant.1).isPrefixOf (c :: rest) with
        | some (name, value) => some (value, (c :: rest).drop name.length)
        | none => scanNumber float (c :: rest)

/-- `json.loads(text)`: a byte order mark at the start and anything after the value are refused. -/
def loads (float : Text → Number) (text : Text) : Except Exn Value :=
  if text.head? = some (codePoint 0xFEFF) then .error (.foreign .valueError)
  else
    match scanValue float text.length (skipSpace text) with
    | some (value, rest) => if skipSpace rest = [] then .ok value else .error (.foreign .valueError)
    | none => .error (.foreign .valueError)

/-! ## Reading back a string -/

section Strings

variable {c : CodePoint} {text rest : Text} {n : ℕ}

theorem hexValue_hexDigit : ∀ d < 16, hexValue (hexDigit d) = some d := by decide

theorem scanHex_hexDigits (h : n < 0x10000) :
    scanHex (hexDigit (n / 4096 % 16) :: hexDigit (n / 256 % 16) :: hexDigit (n / 16 % 16) ::
      hexDigit (n % 16) :: rest) = some (n, rest) := by
  have hsum : n / 4096 % 16 * 4096 + n / 256 % 16 * 256 + n / 16 % 16 * 16 + n % 16 = n := by omega
  unfold scanHex
  simp only [hexValue_hexDigit _ (Nat.mod_lt _ (by decide)), Option.pure_def, Option.bind_eq_bind,
    Option.bind_some, hsum]

theorem codePoint_val (c : CodePoint) : codePoint c.val = c := by
  unfold codePoint
  exact Fin.ext (Nat.mod_eq_of_lt c.isLt)

/-- A high surrogate. -/
def IsHigh (c : CodePoint) : Prop := 0xD800 ≤ c.val ∧ c.val ≤ 0xDBFF

/-- A low surrogate. -/
def IsLow (c : CodePoint) : Prop := 0xDC00 ≤ c.val ∧ c.val ≤ 0xDFFF

/-- An escaped code point that is no high surrogate is read as itself. -/
theorem scanEscape_unicodeEscape (h : n < 0xD800 ∨ 0xDBFF < n) (hsmall : n < 0x10000) :
    scanEscape ((unicodeEscape n).tail ++ rest) = some (codePoint n, rest) := by
  unfold unicodeEscape scanEscape
  simp only [List.tail_cons, List.cons_append, List.nil_append, if_true, scanHex_hexDigits hsmall,
    Option.bind_eq_bind, Option.bind_some]
  rw [if_neg (by omega)]
  rfl

/-- After a high surrogate the low one is read. -/
theorem scanEscape_high (h : 0xD800 ≤ n ∧ n ≤ 0xDBFF) :
    scanEscape ((unicodeEscape n).tail ++ rest) = scanLow n rest := by
  unfold unicodeEscape scanEscape
  simp only [List.tail_cons, List.cons_append, List.nil_append, if_true,
    scanHex_hexDigits (show n < 0x10000 by omega), Option.bind_eq_bind, Option.bind_some]
  rw [if_pos h]

theorem scanLow_unicodeEscape {high : ℕ} (h : 0xDC00 ≤ n ∧ n ≤ 0xDFFF) :
    scanLow high (unicodeEscape n ++ rest) =
      some (codePoint (0x10000 + (high - 0xD800) * 1024 + (n - 0xDC00)), rest) := by
  unfold unicodeEscape scanLow
  simp only [List.cons_append, List.nil_append, and_self, if_true,
    scanHex_hexDigits (show n < 0x10000 by omega), Option.bind_eq_bind, Option.bind_some]
  rw [if_pos h]
  rfl

/-- A pair of surrogates is read as the code point that it stands for. -/
theorem scanEscape_pair (hlow : 0x10000 ≤ n) (hhigh : n < 0x110000) :
    scanEscape ((unicodeEscape (0xD800 + (n - 0x10000) / 1024)).tail ++
      (unicodeEscape (0xDC00 + (n - 0x10000) % 1024) ++ rest)) = some (codePoint n, rest) := by
  have hjoined : 0x10000 + (0xD800 + (n - 0x10000) / 1024 - 0xD800) * 1024 +
      (0xDC00 + (n - 0x10000) % 1024 - 0xDC00) = n := by omega
  rw [scanEscape_high (by omega), scanLow_unicodeEscape (by omega), hjoined]

/-- Nothing but an escape joins a high surrogate. -/
theorem scanLow_of_ne {high : ℕ} (h : c ≠ ofChar '\\') :
    scanLow high (c :: rest) = some (codePoint high, c :: rest) := by
  unfold scanLow
  cases rest with
  | nil => rfl
  | cons d rest => simp only [h, false_and, if_false]

theorem scanLow_of_ne_letter {high : ℕ} {e : CodePoint} (h : e ≠ ofChar 'u') :
    scanLow high (ofChar '\\' :: e :: rest) = some (codePoint high, ofChar '\\' :: e :: rest) := by
  unfold scanLow
  simp only [h, and_false, if_false]

theorem scanLow_unicodeEscape_other {high : ℕ} (h : n < 0xDC00 ∨ 0xDFFF < n) (hsmall : n < 0x10000) :
    scanLow high (unicodeEscape n ++ rest) = some (codePoint high, unicodeEscape n ++ rest) := by
  unfold unicodeEscape scanLow
  simp only [List.cons_append, List.nil_append, and_self, if_true, scanHex_hexDigits hsmall,
    Option.bind_eq_bind, Option.bind_some]
  rw [if_neg (by omega)]
  rfl

/-- How a character is written: in short, as it is, or by its number. -/
theorem escape_cases (c : CodePoint) :
    (∃ entry ∈ shortEscapes, ofChar entry.1 = c ∧ escape c = [ofChar '\\', ofChar entry.2]) ∨
      (c ≠ ofChar '"' ∧ c ≠ ofChar '\\' ∧ 0x20 ≤ c.val ∧ escape c = [c]) ∨
      (c.val < 0x10000 ∧ escape c = unicodeEscape c.val) ∨
      (0x10000 ≤ c.val ∧ escape c = unicodeEscape (0xD800 + (c.val - 0x10000) / 1024) ++
        unicodeEscape (0xDC00 + (c.val - 0x10000) % 1024)) := by
  unfold escape
  split
  · rename_i entry hfind
    exact .inl ⟨entry, List.mem_of_find?_eq_some hfind, by simpa using List.find?_some hfind, rfl⟩
  · rename_i hnone
    right
    split_ifs with hprintable hsmall
    · refine .inl ⟨?_, ?_, hprintable.1, rfl⟩
      · rintro rfl
        exact absurd hnone (by decide)
      · rintro rfl
        exact absurd hnone (by decide)
    · exact .inr (.inl ⟨hsmall, rfl⟩)
    · exact .inr (.inr ⟨Nat.le_of_not_lt hsmall, rfl⟩)

/-- What is written for a character that is no low surrogate does not join a high one. -/
theorem scanLow_escape {high : ℕ} (h : ¬ IsLow c) (rest : Text) :
    scanLow high (escape c ++ rest) = some (codePoint high, escape c ++ rest) := by
  unfold IsLow at h
  rcases escape_cases c with ⟨entry, hmem, -, heq⟩ | ⟨-, hplain, -, heq⟩ | ⟨hsmall, heq⟩ | ⟨hlarge, heq⟩
  · have hletter : ∀ entry ∈ shortEscapes, ofChar entry.2 ≠ ofChar 'u' := by decide
    rw [heq]
    exact scanLow_of_ne_letter (hletter entry hmem)
  · rw [heq]
    exact scanLow_of_ne hplain
  · rw [heq]
    exact scanLow_unicodeEscape_other (by omega) hsmall
  · rw [heq, List.append_assoc]
    exact scanLow_unicodeEscape_other (by omega) (by omega)

/-- What is read first of a character that was written, if what follows does not join it. -/
theorem scanChar_escape (h : IsHigh c → scanLow c.val rest = some (codePoint c.val, rest)) :
    ∃ first more, escape c = first :: more ∧ first ≠ ofChar '"' ∧
      scanChar first (more ++ rest) = some (c, rest) := by
  have hescape : ∀ more, scanChar (ofChar '\\') more = scanEscape more := fun more => rfl
  rcases escape_cases c with ⟨entry, hmem, hkey, heq⟩ | ⟨hquote, hplain, hlow, heq⟩ | ⟨hsmall, heq⟩ |
    ⟨hlarge, heq⟩
  · refine ⟨_, _, heq, by decide, ?_⟩
    have hback : ∀ entry ∈ shortEscapes, ofChar entry.2 ≠ ofChar 'u' ∧
        ((('/', '/') :: shortEscapes).find? fun entry' => ofChar entry'.2 = ofChar entry.2) =
          some entry := by decide
    obtain ⟨hletter, hfound⟩ := hback entry hmem
    rw [hescape, ← hkey]
    show scanEscape (ofChar entry.2 :: rest) = _
    unfold scanEscape
    simp only [hletter, if_false, hfound]
  · refine ⟨c, [], heq, hquote, ?_⟩
    unfold scanChar
    rw [if_neg (by omega), if_neg hplain]
    rfl
  · refine ⟨_, _, heq, by decide, ?_⟩
    rw [hescape]
    -- only after a high surrogate is there a look at what follows
    by_cases hhigh : IsHigh c
    · have hread : scanEscape ((unicodeEscape c.val).tail ++ rest) = scanLow c.val rest :=
        scanEscape_high hhigh
      rw [h hhigh, codePoint_val] at hread
      exact hread
    · have hread : scanEscape ((unicodeEscape c.val).tail ++ rest) = some (codePoint c.val, rest) := by
        unfold IsHigh at hhigh
        exact scanEscape_unicodeEscape (by omega) hsmall
      rw [codePoint_val] at hread
      exact hread
  · refine ⟨ofChar '\\', (unicodeEscape (0xD800 + (c.val - 0x10000) / 1024)).tail ++
      unicodeEscape (0xDC00 + (c.val - 0x10000) % 1024), heq, by decide, ?_⟩
    rw [hescape, List.append_assoc, scanEscape_pair hlarge c.isLt, codePoint_val]

theorem escape_ne_nil (c : CodePoint) : escape c ≠ [] := by
  unfold escape
  split
  · simp
  · split_ifs <;> simp [unicodeEscape]

/-- A text is no longer than it is written. -/
theorem length_le_length_escaped (text : Text) : text.length ≤ (text.flatMap escape).length := by
  induction text with
  | nil => exact Nat.zero_le _
  | cons c rest ih =>
      have hpos := List.length_pos_iff.mpr (escape_ne_nil c)
      rw [List.flatMap_cons, List.length_append, List.length_cons]
      omega

instance (c : CodePoint) : Decidable (IsHigh c) := inferInstanceAs (Decidable (_ ∧ _))

instance (c : CodePoint) : Decidable (IsLow c) := inferInstanceAs (Decidable (_ ∧ _))

/-- The code point that a high and a low surrogate stand for. -/
def pair (high low : CodePoint) : CodePoint :=
  codePoint (0x10000 + (high.val - 0xD800) * 1024 + (low.val - 0xDC00))

/-- A text as it is read back: a high surrogate with a low one after it is one character. -/
def joined : Text → Text
  | [] => []
  | [c] => [c]
  | c :: d :: rest =>
      if IsHigh c ∧ IsLow d then pair c d :: joined rest else c :: joined (d :: rest)

/-- A surrogate is written by its number. -/
theorem escape_surrogate (h : 0xD800 ≤ c.val ∧ c.val ≤ 0xDFFF) : escape c = unicodeEscape c.val := by
  have hsmall : ∀ entry ∈ shortEscapes, (ofChar entry.1).val < 0xD800 := by decide
  have hlong : (shortEscapes.find? fun entry => ofChar entry.1 = c) = none := by
    refine List.find?_eq_none.mpr fun entry hentry heq => ?_
    have hc := hsmall entry hentry
    rw [of_decide_eq_true heq] at hc
    omega
  unfold escape
  rw [hlong]
  dsimp only
  rw [if_neg (by omega), if_pos (by omega)]

/-- A pair of surrogates that was written is read as the code point that it stands for. -/
theorem scanChar_pair {d : CodePoint} (hhigh : IsHigh c) (hlow : IsLow d) :
    ∃ first more, escape c = first :: more ∧ first ≠ ofChar '"' ∧
      scanChar first (more ++ (escape d ++ rest)) = some (pair c d, rest) := by
  unfold IsHigh at hhigh
  unfold IsLow at hlow
  refine ⟨ofChar '\\', (unicodeEscape c.val).tail, ?_, by decide, ?_⟩
  · rw [escape_surrogate (by omega)]
    rfl
  · have hescape : ∀ more, scanChar (ofChar '\\') more = scanEscape more := fun more => rfl
    rw [hescape, escape_surrogate (by omega : 0xD800 ≤ d.val ∧ d.val ≤ 0xDFFF), scanEscape_high hhigh,
      scanLow_unicodeEscape hlow]
    rfl

/-- A string that was written reads back, with its pairs of surrogates joined. -/
theorem scanString_escaped {fuel : ℕ} (hfuel : text.length < fuel) :
    scanString fuel (text.flatMap escape ++ ofChar '"' :: rest) = some (joined text, rest) := by
  induction text using joined.induct generalizing fuel with
  | case1 =>
      obtain ⟨fuel, rfl⟩ := Nat.exists_eq_succ_of_ne_zero (Nat.ne_of_gt hfuel)
      exact if_pos rfl
  | case2 c =>
      obtain ⟨fuel, rfl⟩ := Nat.exists_eq_succ_of_ne_zero (Nat.ne_of_gt (Nat.zero_lt_of_lt hfuel))
      obtain ⟨fuel, rfl⟩ := Nat.exists_eq_succ_of_ne_zero
        (Nat.ne_of_gt (Nat.lt_of_succ_lt_succ hfuel))
      -- the closing quote does not join a high surrogate
      have halone : IsHigh c → scanLow c.val (ofChar '"' :: rest) =
          some (codePoint c.val, ofChar '"' :: rest) := fun _ => scanLow_of_ne (by decide)
      obtain ⟨first, more, hfirst, hquote, hread⟩ := scanChar_escape halone
      rw [List.flatMap_cons, List.flatMap_nil, List.append_nil, hfirst, List.cons_append, scanString,
        if_neg hquote, hread]
      rfl
  | case3 c d text hpair ih =>
      obtain ⟨fuel, rfl⟩ := Nat.exists_eq_succ_of_ne_zero (Nat.ne_of_gt (Nat.zero_lt_of_lt hfuel))
      obtain ⟨first, more, hfirst, hquote, hread⟩ := scanChar_pair hpair.1 hpair.2
      rw [List.flatMap_cons, List.flatMap_cons, hfirst, List.append_assoc, List.append_assoc,
        List.cons_append, scanString, if_neg hquote, hread]
      have hrest := @ih fuel (by simp only [List.length_cons] at hfuel; omega)
      simp only [Option.bind_eq_bind, Option.bind_some, hrest, joined, hpair, and_self, if_true]
      rfl
  | case4 c d text hpair ih =>
      obtain ⟨fuel, rfl⟩ := Nat.exists_eq_succ_of_ne_zero (Nat.ne_of_gt (Nat.zero_lt_of_lt hfuel))
      have halone : IsHigh c → scanLow c.val ((d :: text).flatMap escape ++ ofChar '"' :: rest) =
          some (codePoint c.val, (d :: text).flatMap escape ++ ofChar '"' :: rest) := by
        intro hhigh
        rw [List.flatMap_cons, List.append_assoc]
        exact scanLow_escape (fun hlow => hpair ⟨hhigh, hlow⟩) _
      obtain ⟨first, more, hfirst, hquote, hread⟩ := scanChar_escape halone
      rw [List.flatMap_cons, hfirst, List.append_assoc, List.cons_append, scanString, if_neg hquote,
        hread]
      have hrest := ih (Nat.lt_of_succ_lt_succ hfuel)
      simp only [Option.bind_eq_bind, Option.bind_some, hrest, joined, hpair, if_false]
      rfl

/-- No high surrogate is followed by a low one. -/
def Unpaired (text : Text) : Prop := text.IsChain fun c d => IsHigh c → ¬ IsLow d

instance (text : Text) : Decidable (Unpaired text) :=
  inferInstanceAs (Decidable (text.IsChain fun c d => IsHigh c → ¬ IsLow d))

/-- A text that can be encoded has no surrogates at all. -/
theorem unpaired_of_encodable (h : text.Encodable) : Unpaired text := by
  induction text with
  | nil => exact .nil
  | cons c text ih =>
      have hrest := ih fun d hd => h d (List.mem_cons_of_mem _ hd)
      have hc := h c List.mem_cons_self
      cases text with
      | nil => exact .singleton _
      | cons d text =>
          refine List.isChain_cons_cons.mpr ⟨fun hhigh => ?_, hrest⟩
          unfold CodePoint.isSurrogate at hc
          unfold IsHigh at hhigh
          simp only [decide_eq_false_iff_not] at hc
          omega

theorem joined_eq_self (h : Unpaired text) : joined text = text := by
  induction text using joined.induct with
  | case1 => rfl
  | case2 c => rfl
  | case3 c d text hpair ih => exact absurd hpair.2 ((List.isChain_cons_cons.mp h).1 hpair.1)
  | case4 c d text hpair ih =>
      rw [joined, if_neg hpair, ih (List.isChain_cons_cons.mp h).2]

/-- The two surrogates of a pair are no longer there. -/
theorem pair_val {d : CodePoint} (hhigh : IsHigh c) (hlow : IsLow d) : 0x10000 ≤ (pair c d).val := by
  unfold IsHigh at hhigh
  unfold IsLow at hlow
  unfold pair codePoint
  rw [Fin.val_ofNat, Nat.mod_eq_of_lt (by omega)]
  omega

theorem unpaired_joined (text : Text) : Unpaired (joined text) := by
  have hcons : ∀ {c : CodePoint} {text : Text}, Unpaired text →
      (IsHigh c → ∀ d ∈ text.head?, ¬ IsLow d) → Unpaired (c :: text) := by
    intro c text htext hhead
    cases text with
    | nil => exact .singleton _
    | cons d text => exact List.isChain_cons_cons.mpr ⟨fun hhigh => hhead hhigh d rfl, htext⟩
  induction text using joined.induct with
  | case1 => exact .nil
  | case2 c => exact .singleton _
  | case3 c d text hpair ih =>
      rw [joined, if_pos hpair]
      refine hcons ih fun hhigh => ?_
      have hval := pair_val hpair.1 hpair.2
      unfold IsHigh at hhigh
      omega
  | case4 c d text hpair ih =>
      rw [joined, if_neg hpair]
      refine hcons ih fun hhigh e he hlow => ?_
      -- the next character is the next of the text, or a pair, which is no low surrogate
      cases text with
      | nil =>
          obtain rfl := Option.some.inj he
          exact hpair ⟨hhigh, hlow⟩
      | cons f text =>
          rw [joined] at he
          split at he
          · rename_i hnext
            obtain rfl := Option.some.inj he
            have hval := pair_val hnext.1 hnext.2
            unfold IsLow at hlow
            omega
          · obtain rfl := Option.some.inj he
            exact hpair ⟨hhigh, hlow⟩

end Strings

/-! ## Reading back an object -/

section Objects

variable {float : Text → Number} {key value text rest : Text} {fields : List (Text × Text)}

theorem quoted_append (text rest : Text) :
    quoted text ++ rest = ofChar '"' :: (text.flatMap escape ++ ofChar '"' :: rest) := by
  unfold quoted
  rw [List.append_assoc, List.cons_append, List.singleton_append]

theorem skipSpace_quoted (text rest : Text) : skipSpace (quoted text ++ rest) = quoted text ++ rest := by
  rw [quoted_append]
  exact List.dropWhile_cons_of_neg (by decide)

theorem expect_self (c : Char) (rest : Text) : expect c (ofChar c :: rest) = some rest := by
  unfold expect
  simp only [if_true]

theorem expect_quoted (text rest : Text) :
    expect '"' (quoted text ++ rest) = some (text.flatMap escape ++ ofChar '"' :: rest) := by
  rw [quoted_append, expect_self]

/-- With as much fuel as there is text, a string that was written reads back. -/
theorem scanString_length (text rest : Text) :
    scanString (text.flatMap escape ++ ofChar '"' :: rest).length
      (text.flatMap escape ++ ofChar '"' :: rest) = some (joined text, rest) := by
  refine scanString_escaped ?_
  have hlength := length_le_length_escaped text
  rw [List.length_append, List.length_cons]
  omega

theorem scanValue_quoted (text : Text) (depth : ℕ) (rest : Text) :
    scanValue float (depth + 1) (quoted text ++ rest) = some (.text (joined text), rest) := by
  rw [quoted_append, scanValue, if_pos rfl, scanString_length]
  rfl

/-- The values of written fields. -/
def valuesOf (fields : List (Text × Text)) : Fields := fields.map fun field => (field.1, .text field.2)

/-- The texts of the fields can be read back. -/
def FieldsUnpaired (fields : List (Text × Text)) : Prop :=
  ∀ field ∈ fields, Unpaired field.1 ∧ Unpaired field.2

/-- What is read of one field, up to what comes after it. -/
theorem scanFields_field {fuel depth : ℕ} (hkey : Unpaired key) (hvalue : Unpaired value)
    (c : CodePoint) (hc : skipSpace (c :: rest) = c :: rest) :
    scanFields (scanValue float (depth + 1)) (fuel + 1)
        (quoted key ++ ofChar ':' :: (quoted value ++ c :: rest)) =
      if c = ofChar '}' then some ([(key, .text value)], rest)
      else if c = ofChar ',' then
        (scanFields (scanValue float (depth + 1)) fuel (skipSpace rest)).map fun result =>
          ((key, .text value) :: result.1, result.2)
      else none := by
  have hcolon : skipSpace (ofChar ':' :: (quoted value ++ c :: rest)) =
      ofChar ':' :: (quoted value ++ c :: rest) := List.dropWhile_cons_of_neg (by decide)
  rw [scanFields, expect_quoted]
  simp only [Option.bind_eq_bind, Option.bind_some, scanString_length, joined_eq_self hkey, hcolon,
    expect_self, skipSpace_quoted, scanValue_quoted, joined_eq_self hvalue, hc]
  split_ifs with hbrace hcomma
  · rfl
  · cases scanFields (scanValue float (depth + 1)) fuel (skipSpace rest) with
    | none => rfl
    | some result => rfl
  · rfl

theorem dumpsFields_cons_cons (field next : Text × Text) (fields : List (Text × Text)) :
    dumpsFields (field :: next :: fields) =
      quoted field.1 ++ ofChar ':' :: (quoted field.2 ++ ofChar ',' :: dumpsFields (next :: fields)) := by
  rw [dumpsFields]
  simp

/-- Fields start with a key. -/
theorem skipSpace_dumpsFields (field : Text × Text) (fields : List (Text × Text)) (rest : Text) :
    skipSpace (dumpsFields (field :: fields) ++ rest) = dumpsFields (field :: fields) ++ rest := by
  cases fields with
  | nil =>
      rw [dumpsFields, List.append_assoc]
      exact skipSpace_quoted _ _
  | cons next fields =>
      rw [dumpsFields_cons_cons, List.append_assoc]
      exact skipSpace_quoted _ _

theorem expect_dumpsFields (field : Text × Text) (fields : List (Text × Text)) (rest : Text) :
    expect '}' (dumpsFields (field :: fields) ++ rest) = none := by
  cases fields with
  | nil =>
      rw [dumpsFields, List.append_assoc, quoted_append, expect, if_neg (by decide)]
  | cons next fields =>
      rw [dumpsFields_cons_cons, List.append_assoc, quoted_append, expect, if_neg (by decide)]

/-- Fields that were written read back. -/
theorem scanFields_dumpsFields {fuel depth : ℕ} (h : FieldsUnpaired fields) (hne : fields ≠ [])
    (hfuel : fields.length ≤ fuel) (rest : Text) :
    scanFields (scanValue float (depth + 1)) fuel (dumpsFields fields ++ ofChar '}' :: rest) =
      some (valuesOf fields, rest) := by
  induction fields generalizing fuel with
  | nil => exact absurd rfl hne
  | cons field fields ih =>
      obtain ⟨fuel, rfl⟩ := Nat.exists_eq_succ_of_ne_zero (Nat.ne_of_gt (Nat.zero_lt_of_lt hfuel))
      obtain ⟨hkey, hvalue⟩ := h field List.mem_cons_self
      cases fields with
      | nil =>
          have hbrace : skipSpace (ofChar '}' :: rest) = ofChar '}' :: rest :=
            List.dropWhile_cons_of_neg (by decide)
          rw [dumpsFields, List.append_assoc, List.cons_append, scanFields_field hkey hvalue _ hbrace]
          rfl
      | cons next fields =>
          have hrest := ih (fun other hother => h other (List.mem_cons_of_mem _ hother))
            (List.cons_ne_nil _ _) (Nat.le_of_succ_le_succ hfuel)
          have hcomma : ∀ more, skipSpace (ofChar ',' :: more) = ofChar ',' :: more := fun more =>
            List.dropWhile_cons_of_neg (by decide)
          rw [dumpsFields_cons_cons, List.append_assoc, List.cons_append, List.append_assoc,
            List.cons_append, scanFields_field hkey hvalue _ (hcomma _), if_neg (by decide), if_pos rfl,
            skipSpace_dumpsFields, hrest]
          rfl

theorem length_le_length_dumpsFields (fields : List (Text × Text)) :
    fields.length ≤ (dumpsFields fields).length := by
  induction fields with
  | nil => exact Nat.zero_le _
  | cons field fields ih =>
      cases fields with
      | nil =>
          rw [dumpsFields, List.length_append, List.length_cons, List.length_cons]
          exact Nat.le_add_left_of_le (Nat.succ_le_succ (Nat.zero_le _))
      | cons next fields =>
          rw [List.length_cons, dumpsFields_cons_cons]
          simp only [List.length_append, List.length_cons] at ih ⊢
          omega

/-- **A `dict` of texts that was written reads back.** -/
theorem loads_dumps (float : Text → Number) (fields : List (Text × Text)) (h : FieldsUnpaired fields)
    (hkeys : (fields.map Prod.fst).Nodup) :
    loads float (dumps fields) = .ok (.object (valuesOf fields)) := by
  have hstart : skipSpace (dumps fields) = dumps fields := List.dropWhile_cons_of_neg (by decide)
  have hvalue : scanValue float (dumps fields).length (dumps fields) =
      some (.object (valuesOf fields), []) := by
    unfold dumps
    rw [List.cons_append, List.length_cons, List.length_append, List.length_singleton, scanValue,
      if_neg (by decide), if_pos rfl]
    cases fields with
    | nil => rfl
    | cons field fields =>
        -- no key comes twice, so none of the fields is overwritten
        have hdict : (Dict.ofList (valuesOf (field :: fields))).entries = valuesOf (field :: fields) := by
          have hnodup : ((valuesOf (field :: fields)).map Prod.fst).Nodup := by
            unfold valuesOf
            rw [List.map_map]
            exact hkeys
          rw [show Dict.ofList (valuesOf (field :: fields)) = ⟨_, hnodup⟩ from
            Dict.ofList_entries ⟨valuesOf (field :: fields), hnodup⟩]
        have hfuel : (field :: fields).length ≤ (dumpsFields (field :: fields) ++ [ofChar '}']).length := by
          rw [List.length_append]
          exact (length_le_length_dumpsFields _).trans (Nat.le_add_right _ _)
        rw [skipSpace_dumpsFields, expect_dumpsFields]
        simp only [scanFields_dumpsFields h (List.cons_ne_nil _ _) hfuel [], Option.bind_eq_bind,
          Option.bind_some, hdict]
        rfl
  unfold loads
  rw [hstart, hvalue]
  rfl

end Objects

/-! ## What is written -/

section Printable

variable {c : CodePoint} {text : Text} {fields : List (Text × Text)}

/-- `[ -~]`. -/
def Printable (c : CodePoint) : Prop := 0x20 ≤ c.val ∧ c.val ≤ 0x7E

instance (c : CodePoint) : Decidable (Printable c) := inferInstanceAs (Decidable (_ ∧ _))

theorem printable_hexDigit : ∀ d < 16, Printable (hexDigit d) := by decide

theorem printable_unicodeEscape (n : ℕ) : ∀ c ∈ unicodeEscape n, Printable c := by
  have hdigit : ∀ m, Printable (hexDigit (m % 16)) := fun m =>
    printable_hexDigit _ (Nat.mod_lt _ (by decide))
  unfold unicodeEscape
  simp only [List.forall_mem_cons, List.not_mem_nil, false_imp_iff, implies_true, and_true]
  exact ⟨by decide, by decide, hdigit _, hdigit _, hdigit _, hdigit _⟩

theorem printable_escape (c : CodePoint) : ∀ d ∈ escape c, Printable d := by
  unfold escape
  split
  · rename_i entry hfind
    have hshort : ∀ entry ∈ shortEscapes, ∀ d ∈ [ofChar '\\', ofChar entry.2], Printable d := by decide
    exact hshort entry (List.mem_of_find?_eq_some hfind)
  · split_ifs with hprintable hsmall
    · intro d hd
      rw [List.mem_singleton.mp hd]
      exact hprintable
    · exact printable_unicodeEscape _
    · intro d hd
      rcases List.mem_append.mp hd with hd | hd
      · exact printable_unicodeEscape _ d hd
      · exact printable_unicodeEscape _ d hd

theorem printable_quoted (text : Text) : ∀ c ∈ quoted text, Printable c := by
  unfold quoted
  rw [List.forall_mem_append, List.forall_mem_cons, List.forall_mem_singleton]
  refine ⟨⟨by decide, fun c hc => ?_⟩, by decide⟩
  obtain ⟨d, -, hd⟩ := List.mem_flatMap.mp hc
  exact printable_escape d c hd

theorem printable_dumpsFields (fields : List (Text × Text)) : ∀ c ∈ dumpsFields fields, Printable c := by
  induction fields with
  | nil => exact fun c hc => by cases hc
  | cons field fields ih =>
      cases fields with
      | nil =>
          rw [dumpsFields, List.forall_mem_append, List.forall_mem_cons]
          exact ⟨printable_quoted _, by decide, printable_quoted _⟩
      | cons next fields =>
          rw [dumpsFields_cons_cons, List.forall_mem_append, List.forall_mem_cons, List.forall_mem_append,
            List.forall_mem_cons]
          exact ⟨printable_quoted _, by decide, printable_quoted _, by decide, ih⟩

/-- What is written is printable ASCII. -/
theorem printable_dumps (fields : List (Text × Text)) : ∀ c ∈ dumps fields, Printable c := by
  unfold dumps
  rw [List.forall_mem_append, List.forall_mem_cons, List.forall_mem_singleton]
  exact ⟨⟨by decide, printable_dumpsFields _⟩, by decide⟩

end Printable

end UltimateBBSBox.Archive.JsonText

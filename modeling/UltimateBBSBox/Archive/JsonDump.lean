import UltimateBBSBox.Archive.JsonText
import UltimateBBSBox.Archive.SortedKeys
import UltimateBBSBox.Library.Address

/-!
# JSON documents

What `json.dump(value, handle, indent=2, sort_keys=True)` writes of any value, and what
`json.loads` makes of it (`loads_dump`): the value with the keys of its objects sorted and the
pairs of surrogates in its texts joined.  Where no text has such a pair nothing else is changed
(`joinedValue_eq_self`), and what is read back has none (`unpaired_joinedValue`).

What `repr` writes of a float is a parameter (`FloatFormat`).  An integer of more than 4300
digits cannot be written.
-/

namespace UltimateBBSBox.Archive.JsonText

open Address (decimal decimalValue)
open CodePoint (ofChar isDigit)

/-! ## Numbers -/

/-- `0|[1-9]\d*`. -/
def IsWhole (whole : Text) : Prop :=
  whole ≠ [] ∧ (∀ c ∈ whole, isDigit c = true) ∧ (whole.head? = some (ofChar '0') → whole.length = 1)

/-- `(\.\d+)?`. -/
def IsFraction (part : Text) : Prop :=
  part = [] ∨ ∃ ds, part = ofChar '.' :: ds ∧ ds ≠ [] ∧ ∀ c ∈ ds, isDigit c = true

/-- `([eE][-+]?\d+)?`. -/
def IsExponent (power : Text) : Prop :=
  power = [] ∨ ∃ e sign ds, power = e :: (sign ++ ds) ∧ (e = ofChar 'e' ∨ e = ofChar 'E') ∧
    (sign = [] ∨ sign = [ofChar '+'] ∨ sign = [ofChar '-']) ∧ ds ≠ [] ∧ ∀ c ∈ ds, isDigit c = true

/-- A literal that `float` is asked to read: it has a fraction or an exponent. -/
def IsFloatLiteral (text : Text) : Prop :=
  ∃ sign whole part power, text = sign ++ (whole ++ (part ++ power)) ∧
    (sign = [] ∨ sign = [ofChar '-']) ∧ IsWhole whole ∧ IsFraction part ∧ IsExponent power ∧
    ¬ (part = [] ∧ power = [])

/-- The floats, and what `repr` and `float` make of them. -/
structure FloatFormat where
  IsFloat : ℚ → Prop
  repr : ℚ → Text
  parse : Text → Number
  literal : ∀ q, IsFloat q → IsFloatLiteral (repr q)
  parse_repr : ∀ q, IsFloat q → parse (repr q) = .float q

/-- A number as it is written. -/
def dumpsNumber (F : FloatFormat) : Number → Text
  | .int n => (if n < 0 then [ofChar '-'] else []) ++ decimal n.natAbs
  | .float q => F.repr q
  | .infinity => .of "Infinity"
  | .negInfinity => .of "-Infinity"
  | .nan => .of "NaN"

/-! ## Writing -/

/-- A new line, indented. -/
def newlineIndent (level : ℕ) : Text := ofChar '\n' :: List.replicate (2 * level) (ofChar ' ')

mutual

/-- A value at a level of indentation. -/
def dumpsValue (F : FloatFormat) (level : ℕ) : Value → Text
  | .null => .of "null"
  | .bool true => .of "true"
  | .bool false => .of "false"
  | .number n => dumpsNumber F n
  | .text text => quoted text
  | .array [] => .of "[]"
  | .array (item :: items) =>
      ofChar '[' :: (newlineIndent (level + 1) ++ dumpsValue F (level + 1) item ++
        dumpsItems F (level + 1) items ++ newlineIndent level ++ [ofChar ']'])
  | .object [] => .of "{}"
  | .object ((key, value) :: fields) =>
      ofChar '{' :: (newlineIndent (level + 1) ++ quoted key ++ Text.of ": " ++
        dumpsValue F (level + 1) value ++ dumpsMore F (level + 1) fields ++ newlineIndent level ++
        [ofChar '}'])

/-- The items after the first. -/
def dumpsItems (F : FloatFormat) (level : ℕ) : List Value → Text
  | [] => []
  | item :: items =>
      ofChar ',' :: (newlineIndent level ++ dumpsValue F level item ++ dumpsItems F level items)

/-- The fields after the first. -/
def dumpsMore (F : FloatFormat) (level : ℕ) : Fields → Text
  | [] => []
  | (key, value) :: fields =>
      ofChar ',' :: (newlineIndent level ++ quoted key ++ Text.of ": " ++ dumpsValue F level value ++
        dumpsMore F level fields)

end

/-- An integer is not too long for `int.__repr__`. -/
def isShort : Value → Bool
  | .number (.int n) => (decimal n.natAbs).length ≤ 4300
  | _ => true

/-- No integer in the value is too long. -/
abbrev Dumpable : Value → Prop := Value.Everywhere (isShort · = true) fun _ => True

/-- `json.dump(value, handle, indent=2, sort_keys=True); handle.write("\n")`. -/
def dump (F : FloatFormat) (value : Value) : Except Exn Text :=
  if Dumpable value then .ok (dumpsValue F 0 value.sortKeys ++ [ofChar '\n'])
  else .error (.foreign .valueError)

/-! ## Reading back a number -/

section Numbers

variable {F : FloatFormat} {float : Text → Number} {sign whole part power ds rest : Text} {c : CodePoint}

/-- What comes after a number does not go on with it. -/
def Ends (rest : Text) : Prop :=
  ∀ c ∈ rest.head?, isDigit c = false ∧ c ≠ ofChar '.' ∧ c ≠ ofChar 'e' ∧ c ≠ ofChar 'E'

theorem digits_append (hds : ∀ c ∈ ds, isDigit c = true) (hrest : ∀ c ∈ rest.head?, isDigit c = false) :
    digits (ds ++ rest) = ds := by
  unfold digits
  rw [List.takeWhile_append_of_pos hds]
  cases rest with
  | nil => exact List.append_nil _
  | cons c rest =>
      rw [List.takeWhile_cons_of_neg (by rw [hrest c rfl]; decide), List.append_nil]

theorem not_isDigit_head (hpower : IsExponent power) (hrest : Ends rest) :
    ∀ c ∈ (power ++ rest).head?, isDigit c = false ∧ c ≠ ofChar '.' := by
  obtain rfl | ⟨e, sign, ds, rfl, he, -⟩ := hpower
  · exact fun c hc => ⟨(hrest c hc).1, (hrest c hc).2.1⟩
  · intro c hc
    obtain rfl := Option.some.inj hc
    rcases he with rfl | rfl
    · decide
    · decide

theorem fraction_append (hpart : IsFraction part) (hpower : IsExponent power) (hrest : Ends rest) :
    fraction (part ++ (power ++ rest)) = part := by
  have hhead := not_isDigit_head hpower hrest
  obtain rfl | ⟨ds, rfl, hne, hds⟩ := hpart
  · rw [List.nil_append]
    cases htext : power ++ rest with
    | nil => rfl
    | cons c text =>
        have hc := hhead c (by rw [htext]; rfl)
        exact if_neg fun h => hc.2 h.1
  · have hdigits := digits_append hds fun c hc => (hhead c hc).1
    rw [List.cons_append, fraction, hdigits, if_pos ⟨rfl, hne⟩]

theorem exponent_append (hpower : IsExponent power) (hrest : Ends rest) :
    exponent (power ++ rest) = power := by
  obtain rfl | ⟨e, sign, ds, rfl, he, hsign, hne, hds⟩ := hpower
  · rw [List.nil_append]
    cases rest with
    | nil => rfl
    | cons c rest =>
        obtain ⟨-, -, he, hE⟩ := hrest c rfl
        exact if_neg fun h => h.1.elim he hE
  · obtain ⟨d, ds, rfl⟩ := List.exists_cons_of_ne_nil hne
    have hd : ¬ (d = ofChar '+' ∨ d = ofChar '-') := by
      have hdigit := hds d List.mem_cons_self
      rintro (rfl | rfl)
      · exact absurd hdigit (by decide)
      · exact absurd hdigit (by decide)
    have htake : (sign ++ (d :: ds ++ rest)).takeWhile
        (fun d => d = ofChar '+' ∨ d = ofChar '-') = sign := by
      rw [List.takeWhile_append_of_pos]
      · rw [List.cons_append, List.takeWhile_cons_of_neg (by simpa using hd), List.append_nil]
      · intro c hc
        rcases hsign with rfl | rfl | rfl
        · cases hc
        · rw [List.mem_singleton.mp hc]
          decide
        · rw [List.mem_singleton.mp hc]
          decide
    have hdigits := digits_append hds fun c hc => (hrest c hc).1
    have hlength : sign.length ≤ 1 := by
      rcases hsign with rfl | rfl | rfl <;> simp
    rw [List.cons_append, List.append_assoc, exponent, htake, List.drop_left, hdigits,
      if_pos ⟨he, hlength, hne⟩]
    rfl

/-- A number is read up to where it ends. -/
theorem scanNumber_append (hsign : sign = [] ∨ sign = [ofChar '-']) (hwhole : IsWhole whole)
    (hpart : IsFraction part) (hpower : IsExponent power) (hrest : Ends rest) :
    scanNumber float (sign ++ (whole ++ (part ++ (power ++ rest)))) =
      if part = [] ∧ power = [] then
        if 4300 < whole.length then none
        else
          let n : ℤ := whole.foldl (fun n c => n * 10 + (c.val - 48)) 0
          some (.number (.int (if sign = [] then n else -n)), rest)
      else some (.number (float (sign ++ whole ++ part ++ power)), rest) := by
  obtain ⟨hne, hdigits, hzero⟩ := hwhole
  obtain ⟨d, ds, rfl⟩ := List.exists_cons_of_ne_nil hne
  have hminus : d ≠ ofChar '-' := by
    rintro rfl
    exact absurd (hdigits _ List.mem_cons_self) (by decide)
  have htake : (sign ++ (d :: ds ++ (part ++ (power ++ rest)))).take
      (if (sign ++ (d :: ds ++ (part ++ (power ++ rest)))).head? = some (ofChar '-') then 1 else 0) =
        sign := by
    rcases hsign with rfl | rfl
    · rw [if_neg]
      · rfl
      · exact fun h => hminus (Option.some.inj h)
    · rfl
  have htail : ∀ c ∈ (part ++ (power ++ rest)).head?, isDigit c = false := by
    obtain rfl | ⟨ds, rfl, -⟩ := hpart
    · exact fun c hc => (not_isDigit_head hpower hrest c hc).1
    · intro c hc
      obtain rfl := Option.some.inj hc
      decide
  have hwhole : (if (d :: ds ++ (part ++ (power ++ rest))).head? = some (ofChar '0') then
      (d :: ds ++ (part ++ (power ++ rest))).take 1 else
      digits (d :: ds ++ (part ++ (power ++ rest)))) = d :: ds := by
    split
    · rename_i h
      have hnil : ds = [] := List.length_eq_zero_iff.mp (Nat.succ.inj (hzero h))
      rw [hnil]
      rfl
    · exact digits_append hdigits htail
  unfold scanNumber
  simp only [htake, List.drop_left, hwhole, fraction_append hpart hpower hrest,
    exponent_append hpower hrest, List.cons_ne_nil, if_false]

theorem head?_decimal {n : ℕ} (h : (decimal n).head? = some (ofChar '0')) : (decimal n).length = 1 := by
  by_cases hn : n = 0
  · rw [hn]
    rfl
  · have hne : Nat.digits 10 n ≠ [] := Nat.digits_ne_nil_iff_ne_zero.mpr hn
    rw [decimal, if_neg hn, List.head?_map, List.head?_reverse,
      List.getLast?_eq_getLast_of_ne_nil hne] at h
    have hone : ∀ d < 10, d ≠ 0 → ofChar d.digitChar ≠ ofChar '0' := by decide
    have hlt : (Nat.digits 10 n).getLast hne < 10 :=
      Nat.digits_lt_base (by decide) (List.getLast_mem hne)
    exact absurd (Option.some.inj h) (hone _ hlt (Nat.getLast_digit_ne_zero 10 hn))

theorem isWhole_decimal (n : ℕ) : IsWhole (decimal n) :=
  ⟨Address.decimal_ne_nil n, fun _ => Address.isDigit_of_mem_decimal, head?_decimal⟩

/-- Digits are read from the left. -/
theorem foldl_decimal (n : ℕ) :
    (decimal n).foldl (fun (n : ℤ) c => n * 10 + (c.val - 48)) 0 = n := by
  have hfold : ∀ ds : Text, (∀ c ∈ ds, isDigit c = true) →
      ds.foldl (fun (n : ℤ) c => n * 10 + (c.val - 48)) 0 = (decimalValue ds : ℤ) := by
    intro ds hds
    induction ds using List.reverseRecOn with
    | nil => rfl
    | append_singleton ds d ih =>
        have hd := hds d (List.mem_append_right _ List.mem_cons_self)
        simp only [isDigit, ofChar, Char.reduceToNat, Fin.le_def, decide_eq_true_eq] at hd
        rw [List.foldl_concat, ih fun c hc => hds c (List.mem_append_left _ hc)]
        unfold decimalValue
        rw [List.reverse_append, List.reverse_singleton, List.singleton_append, List.map_cons,
          Nat.ofDigits_cons]
        push_cast
        omega
  rw [hfold _ fun _ => Address.isDigit_of_mem_decimal, Address.decimalValue_decimal]

end Numbers

/-! ## What a value is read back as -/

mutual

/-- The value with the pairs of surrogates in its texts joined. -/
def joinedValue : Value → Value
  | .text text => .text (joined text)
  | .array items => .array (joinedItems items)
  | .object fields => .object (Dict.ofList (joinedFields fields)).entries
  | value => value

def joinedItems : List Value → List Value
  | [] => []
  | item :: items => joinedValue item :: joinedItems items

def joinedFields : Fields → Fields
  | [] => []
  | (key, value) :: fields => (joined key, joinedValue value) :: joinedFields fields

end

/-- A number that is a float or a whole number: `NaN` is none of JSON. -/
def IsNumeric (F : FloatFormat) : Value → Prop
  | .number (.float q) => F.IsFloat q
  | .number .nan => False
  | _ => True

/-- What JSON can represent of the values of Python, where an object has no key twice. -/
def Representable (F : FloatFormat) : Value → Prop := Value.Everywhere (IsNumeric F) List.Nodup

theorem Representable.sortKeys {F : FloatFormat} {value : Value} (h : Representable F value) :
    Representable F value.sortKeys :=
  Value.Everywhere.sortKeys (fun _ _ hks hnodup => hks.nodup_iff.mp hnodup) value h

/-! ## Reading back -/

section Values

variable {F : FloatFormat} {level depth : ℕ} {rest : Text}

theorem skipSpace_newlineIndent (level : ℕ) (rest : Text) :
    skipSpace (newlineIndent level ++ rest) = skipSpace rest := by
  have hspaces : ∀ n, skipSpace (List.replicate n (ofChar ' ') ++ rest) = skipSpace rest := by
    intro n
    induction n with
    | zero => rfl
    | succ n ih => exact ih
  exact hspaces (2 * level)

/-- A value does not start with a space, with what ends a list of values or with the mark of a
byte order. -/
def Starts (text : Text) : Prop :=
  ∃ c rest, text = c :: rest ∧ (c ∉ [' ', '\t', '\n', '\r'].map ofChar) ∧ c ≠ ofChar ']' ∧
    c ≠ codePoint 0xFEFF

theorem Starts.skipSpace {text : Text} (h : Starts text) (rest : Text) :
    JsonText.skipSpace (text ++ rest) = text ++ rest := by
  obtain ⟨c, text, rfl, hc, -⟩ := h
  exact List.dropWhile_cons_of_neg (by simpa using hc)

theorem Starts.expect {text : Text} (h : Starts text) (rest : Text) :
    JsonText.expect ']' (text ++ rest) = none := by
  obtain ⟨c, text, rfl, -, hc, -⟩ := h
  exact if_neg hc

theorem Starts.length {text : Text} (h : Starts text) : 0 < text.length := by
  obtain ⟨c, text, rfl, -⟩ := h
  exact Nat.succ_pos _

theorem ne_ofChar_of_isDigit {d : CodePoint} {c : Char} (hd : isDigit d = true)
    (hc : isDigit (ofChar c) = false) : d ≠ ofChar c := by
  rintro rfl
  rw [hd] at hc
  cases hc

/-- No constant starts with a digit, nor with a minus sign and a digit. -/
theorem find?_constants {text : Text} {d : CodePoint} (hd : isDigit d = true) :
    (constants.find? fun constant => (Text.of constant.1).isPrefixOf (d :: text)) = none ∧
      (constants.find? fun constant => (Text.of constant.1).isPrefixOf (ofChar '-' :: d :: text)) = none := by
  have hne : ∀ c : Char, isDigit (ofChar c) = false → (ofChar c == d) = false := by
    intro c hc
    exact beq_eq_false_iff_ne.mpr (ne_ofChar_of_isDigit hd hc).symm
  simp only [constants, List.find?_eq_none, List.forall_mem_cons, Text.of, String.reduceToList, List.map_cons,
    List.map_nil, List.isPrefixOf]
  refine ⟨?_, ?_⟩ <;> simp [hne _ (by decide : isDigit (ofChar 'n') = false),
    hne _ (by decide : isDigit (ofChar 't') = false), hne _ (by decide : isDigit (ofChar 'f') = false),
    hne _ (by decide : isDigit (ofChar 'N') = false), hne _ (by decide : isDigit (ofChar 'I') = false),
    hne _ (by decide : isDigit (ofChar '-') = false)]

/-- What starts with a digit, or with a minus sign and a digit, is read as a number. -/
theorem scanValue_number {float : Text → Number} {sign whole : Text}
    (hsign : sign = [] ∨ sign = [ofChar '-']) (hwhole : IsWhole whole) (rest : Text) :
    scanValue float (depth + 1) (sign ++ (whole ++ rest)) = scanNumber float (sign ++ (whole ++ rest)) := by
  obtain ⟨hne, hdigits, -⟩ := hwhole
  obtain ⟨d, ds, rfl⟩ := List.exists_cons_of_ne_nil hne
  have hd := hdigits d List.mem_cons_self
  rcases hsign with rfl | rfl
  · rw [List.nil_append, List.cons_append, scanValue,
      if_neg (ne_ofChar_of_isDigit (c := '"') hd (by decide)),
      if_neg (ne_ofChar_of_isDigit (c := '{') hd (by decide)),
      if_neg (ne_ofChar_of_isDigit (c := '[') hd (by decide)), (find?_constants hd).1]
  · rw [List.singleton_append, List.cons_append, scanValue, if_neg (by decide), if_neg (by decide),
      if_neg (by decide), (find?_constants hd).2]

/-- A number that was written reads back. -/
theorem scanValue_dumpsNumber {n : Number} (hn : Representable F (.number n))
    (hdumpable : Dumpable (.number n)) (hrest : Ends rest) :
    scanValue F.parse (depth + 1) (dumpsNumber F n ++ rest) = some (.number n, rest) := by
  cases n with
  | int n =>
      have hsign : (if n < 0 then [ofChar '-'] else []) = [] ∨
          (if n < 0 then [ofChar '-'] else []) = [ofChar '-'] := by
        split
        · exact .inr rfl
        · exact .inl rfl
      have hlength : ¬ 4300 < (decimal n.natAbs).length := by
        simpa [isShort, Value.Everywhere] using hdumpable
      have hread := @scanNumber_append F.parse _ _ [] [] rest hsign (isWhole_decimal n.natAbs)
        (.inl rfl) (.inl rfl) hrest
      rw [List.nil_append, List.nil_append] at hread
      rw [dumpsNumber, List.append_assoc, scanValue_number hsign (isWhole_decimal _), hread]
      simp only [and_self, if_true, hlength, if_false, foldl_decimal]
      congr 4
      split
      · rename_i hneg
        rw [if_neg (List.cons_ne_nil _ _)]
        omega
      · rw [if_pos rfl]
        omega
  | float q =>
      obtain ⟨sign, whole, part, power, htext, hsign, hwhole, hpart, hpower, hne⟩ := F.literal q hn
      have hread := @scanNumber_append F.parse _ _ _ _ rest hsign hwhole hpart hpower hrest
      have hlist : dumpsNumber F (.float q) ++ rest =
          sign ++ (whole ++ (part ++ (power ++ rest))) := by
        simp only [dumpsNumber, htext, List.append_assoc]
      have hrepr : sign ++ whole ++ part ++ power = F.repr q := by
        simp only [htext, List.append_assoc]
      rw [hlist, scanValue_number hsign hwhole, hread, if_neg hne, hrepr, F.parse_repr q hn]
  | infinity => rfl
  | negInfinity => rfl
  | nan => exact hn.elim

/-- A digit starts a value. -/
theorem starts_of_isWhole {text : Text} (h : IsWhole text) (rest : Text) : Starts (text ++ rest) := by
  obtain ⟨d, ds, rfl⟩ := List.exists_cons_of_ne_nil h.1
  have hd := h.2.1 d List.mem_cons_self
  refine ⟨d, ds ++ rest, rfl, ?_, ne_ofChar_of_isDigit hd (by decide), ?_⟩
  · intro hmem
    obtain ⟨c, hc, rfl⟩ := List.mem_map.mp hmem
    simp only [List.mem_cons, List.not_mem_nil, or_false] at hc
    rcases hc with rfl | rfl | rfl | rfl <;> cases hd
  · rintro rfl
    cases hd

/-- So does a minus sign. -/
theorem starts_signed {sign whole : Text} (hsign : sign = [] ∨ sign = [ofChar '-'])
    (hwhole : IsWhole whole) (rest : Text) : Starts (sign ++ (whole ++ rest)) := by
  rcases hsign with rfl | rfl
  · exact starts_of_isWhole hwhole rest
  · exact ⟨ofChar '-', whole ++ rest, rfl, by decide, by decide, by decide⟩

/-- A value starts as one. -/
theorem starts_dumpsValue {value : Value} (hvalue : Representable F value) :
    Starts (dumpsValue F level value) := by
  cases value with
  | null => exact ⟨_, _, rfl, by decide, by decide, by decide⟩
  | bool value => cases value <;> exact ⟨_, _, rfl, by decide, by decide, by decide⟩
  | text text => exact ⟨_, _, rfl, by decide, by decide, by decide⟩
  | array items =>
      cases items with
      | nil => exact ⟨_, _, rfl, by decide, by decide, by decide⟩
      | cons item items => exact ⟨_, _, by rw [dumpsValue], by decide, by decide, by decide⟩
  | object fields =>
      cases fields with
      | nil => exact ⟨_, _, rfl, by decide, by decide, by decide⟩
      | cons field fields => exact ⟨_, _, by rw [dumpsValue], by decide, by decide, by decide⟩
  | number n =>
      cases n with
      | int n =>
          have hwhole := isWhole_decimal n.natAbs
          rw [dumpsValue, dumpsNumber, ← List.append_nil (decimal n.natAbs)]
          split
          · exact starts_signed (.inr rfl) hwhole []
          · exact starts_signed (.inl rfl) hwhole []
      | float q =>
          obtain ⟨sign, whole, part, power, htext, hsign, hwhole, -⟩ := F.literal q hvalue
          rw [dumpsValue, dumpsNumber, htext]
          exact starts_signed hsign hwhole _
      | infinity => exact ⟨_, _, rfl, by decide, by decide, by decide⟩
      | negInfinity => exact ⟨_, _, rfl, by decide, by decide, by decide⟩
      | nan => exact hvalue.elim

/-! ### Step by step -/

theorem ends_newlineIndent (level : ℕ) (rest : Text) : Ends (newlineIndent level ++ rest) := by
  intro c hc
  obtain rfl := Option.some.inj hc
  decide

theorem ends_comma (rest : Text) : Ends (ofChar ',' :: rest) := by
  intro c hc
  obtain rfl := Option.some.inj hc
  decide

section Steps

variable {scan : Text → Option (Value × Text)} {fuel : ℕ} {key text more : Text} {value : Value}
  {items : List Value} {fields : Fields}

/-- The last item of an array. -/
theorem scanItems_last (hread : ∀ rest, Ends rest → scan (text ++ rest) = some (value, rest))
    (level : ℕ) (rest : Text) :
    scanItems scan (fuel + 1) (text ++ (newlineIndent level ++ ofChar ']' :: rest)) =
      some ([value], rest) := by
  have hskip : skipSpace (newlineIndent level ++ ofChar ']' :: rest) = ofChar ']' :: rest := by
    rw [skipSpace_newlineIndent]
    exact List.dropWhile_cons_of_neg (by decide)
  rw [scanItems, hread _ (ends_newlineIndent level _)]
  simp only [Option.bind_eq_bind, Option.bind_some, hskip, if_true]
  rfl

/-- An item with others behind it. -/
theorem scanItems_cons (hread : ∀ rest, Ends rest → scan (text ++ rest) = some (value, rest))
    (hmore : scanItems scan fuel (skipSpace more) = some (items, rest)) :
    scanItems scan (fuel + 1) (text ++ ofChar ',' :: more) = some (value :: items, rest) := by
  have hskip : skipSpace (ofChar ',' :: more) = ofChar ',' :: more :=
    List.dropWhile_cons_of_neg (by decide)
  rw [scanItems, hread _ (ends_comma more)]
  simp only [Option.bind_eq_bind, Option.bind_some, hskip, hmore]
  rw [if_neg (by decide)]
  rfl

/-- What is read of a field in front of its value. -/
theorem scanFields_key (hstart : ∀ rest, skipSpace (text ++ rest) = text ++ rest) (rest : Text) :
    scanFields scan (fuel + 1) (quoted key ++ (Text.of ": " ++ (text ++ rest))) =
      (do
        let (value, text) ← scan (text ++ rest)
        match skipSpace text with
        | [] => none
        | c :: text =>
            if c = ofChar '}' then return ([(joined key, value)], text)
            else if c = ofChar ',' then do
              let (fields, text) ← scanFields scan fuel (skipSpace text)
              return ((joined key, value) :: fields, text)
            else none) := by
  have hcolon : skipSpace (Text.of ": " ++ (text ++ rest)) =
      ofChar ':' :: (ofChar ' ' :: (text ++ rest)) := List.dropWhile_cons_of_neg (by decide)
  have hspace : skipSpace (ofChar ' ' :: (text ++ rest)) = text ++ rest := hstart rest
  rw [scanFields, expect_quoted]
  simp only [Option.bind_eq_bind, Option.bind_some, scanString_length, hcolon, expect_self, hspace]
    <;> rfl

/-- The last field of an object. -/
theorem scanFields_last (hstart : ∀ rest, skipSpace (text ++ rest) = text ++ rest)
    (hread : ∀ rest, Ends rest → scan (text ++ rest) = some (value, rest)) (level : ℕ) (rest : Text) :
    scanFields scan (fuel + 1)
        (quoted key ++ (Text.of ": " ++ (text ++ (newlineIndent level ++ ofChar '}' :: rest)))) =
      some ([(joined key, value)], rest) := by
  have hskip : skipSpace (newlineIndent level ++ ofChar '}' :: rest) = ofChar '}' :: rest := by
    rw [skipSpace_newlineIndent]
    exact List.dropWhile_cons_of_neg (by decide)
  rw [scanFields_key hstart, hread _ (ends_newlineIndent level _)]
  simp only [Option.bind_eq_bind, Option.bind_some, hskip, if_true]
  rfl

/-- A field with others behind it. -/
theorem scanFields_cons (hstart : ∀ rest, skipSpace (text ++ rest) = text ++ rest)
    (hread : ∀ rest, Ends rest → scan (text ++ rest) = some (value, rest))
    (hmore : scanFields scan fuel (skipSpace more) = some (fields, rest)) :
    scanFields scan (fuel + 1) (quoted key ++ (Text.of ": " ++ (text ++ ofChar ',' :: more))) =
      some ((joined key, value) :: fields, rest) := by
  have hskip : skipSpace (ofChar ',' :: more) = ofChar ',' :: more :=
    List.dropWhile_cons_of_neg (by decide)
  rw [scanFields_key hstart, hread _ (ends_comma more)]
  simp only [Option.bind_eq_bind, Option.bind_some, hskip, hmore]
  rw [if_neg (by decide)]
  rfl

end Steps

/-! ### Values -/

theorem length_le_length_dumpsItems (F : FloatFormat) (level : ℕ) (items : List Value) :
    items.length ≤ (dumpsItems F level items).length := by
  induction items with
  | nil => exact Nat.zero_le _
  | cons item items ih =>
      simp only [dumpsItems, List.length_cons, List.length_append]
      omega

theorem length_le_length_dumpsMore (F : FloatFormat) (level : ℕ) (fields : Fields) :
    fields.length ≤ (dumpsMore F level fields).length := by
  induction fields with
  | nil => exact Nat.zero_le _
  | cons field fields ih =>
      obtain ⟨key, value⟩ := field
      simp only [dumpsMore, List.length_cons, List.length_append]
      omega

mutual

/-- **A value that was written reads back**, with its texts joined. -/
theorem scanValue_dumpsValue (value : Value) (level depth : ℕ) (hvalue : Representable F value)
    (hdumpable : Dumpable value) (hdepth : (dumpsValue F level value).length ≤ depth) :
    ∀ rest, Ends rest →
      scanValue F.parse depth (dumpsValue F level value ++ rest) = some (joinedValue value, rest) := by
  intro rest hrest
  obtain ⟨depth, rfl⟩ := Nat.exists_eq_succ_of_ne_zero (Nat.ne_of_gt
    (Nat.lt_of_lt_of_le (starts_dumpsValue hvalue).length hdepth))
  cases value with
  | null => rfl
  | bool value => cases value <;> rfl
  | number n => exact scanValue_dumpsNumber hvalue hdumpable hrest
  | text text => exact scanValue_quoted text depth rest
  | array items =>
      cases items with
      | nil => rfl
      | cons item items =>
          obtain ⟨hitem, hitems⟩ := hvalue
          obtain ⟨hfirst, hothers⟩ := hdumpable
          simp only [dumpsValue, List.length_cons, List.length_append] at hdepth
          have hstarts : Starts (dumpsValue F (level + 1) item) := starts_dumpsValue hitem
          have hlength := length_le_length_dumpsItems F (level + 1) items
          have hread := scanItems_dumpsItems items (level + 1) level depth hitems hothers (by omega)
            (dumpsValue F (level + 1) item) (joinedValue item)
            (scanValue_dumpsValue item (level + 1) depth hitem hfirst (by omega)) rest
          rw [dumpsValue, List.cons_append, scanValue, if_neg (by decide), if_neg (by decide), if_pos rfl]
          simp only [List.append_assoc, List.singleton_append, skipSpace_newlineIndent, hstarts.skipSpace,
            hstarts.expect]
          rw [hread _ (by simp only [List.length_append, List.length_cons]; omega)]
          rfl
  | object fields =>
      cases fields with
      | nil => rfl
      | cons field fields =>
          obtain ⟨key, value⟩ := field
          obtain ⟨-, hvalue, hfields⟩ := hvalue
          obtain ⟨-, hfirst, hothers⟩ := hdumpable
          simp only [dumpsValue, List.length_cons, List.length_append] at hdepth
          have hstarts : Starts (dumpsValue F (level + 1) value) := starts_dumpsValue hvalue
          have hlength := length_le_length_dumpsMore F (level + 1) fields
          have hread := scanFields_dumpsMore fields (level + 1) level depth hfields hothers (by omega)
            key (dumpsValue F (level + 1) value) (joinedValue value) hstarts.skipSpace
            (scanValue_dumpsValue value (level + 1) depth hvalue hfirst (by omega)) rest
          have hbrace : ∀ more, expect '}' (quoted key ++ more) = none := by
            intro more
            rw [quoted_append, expect, if_neg (by decide)]
          rw [dumpsValue, List.cons_append, scanValue, if_neg (by decide), if_pos rfl]
          simp only [List.append_assoc, List.singleton_append, skipSpace_newlineIndent, skipSpace_quoted,
            hbrace]
          rw [hread _ (by simp only [List.length_append, List.length_cons]; omega)]
          rfl

theorem scanItems_dumpsItems (items : List Value) (level level' depth : ℕ)
    (hitems : Value.EverywhereItems (IsNumeric F) List.Nodup items)
    (hdumpable : Value.EverywhereItems (isShort · = true) (fun _ => True) items)
    (hdepth : (dumpsItems F level items).length ≤ depth) (text : Text) (value : Value)
    (hread : ∀ rest, Ends rest → scanValue F.parse depth (text ++ rest) = some (value, rest))
    (rest : Text) (fuel : ℕ) (hfuel : items.length < fuel) :
    scanItems (scanValue F.parse depth) fuel
        (text ++ (dumpsItems F level items ++ (newlineIndent level' ++ ofChar ']' :: rest))) =
      some (value :: joinedItems items, rest) := by
  obtain ⟨fuel, rfl⟩ := Nat.exists_eq_succ_of_ne_zero (Nat.ne_of_gt (Nat.zero_lt_of_lt hfuel))
  cases items with
  | nil => exact scanItems_last hread level' rest
  | cons item items =>
      obtain ⟨hitem, hitems⟩ := hitems
      obtain ⟨hfirst, hothers⟩ := hdumpable
      simp only [dumpsItems, List.length_cons, List.length_append] at hdepth
      have hmore := scanItems_dumpsItems items level level' depth hitems hothers (by omega)
        (dumpsValue F level item) (joinedValue item)
        (scanValue_dumpsValue item level depth hitem hfirst (by omega)) rest fuel
        (Nat.lt_of_succ_lt_succ hfuel)
      rw [dumpsItems, List.cons_append]
      refine scanItems_cons hread ?_
      simp only [List.append_assoc, skipSpace_newlineIndent, (starts_dumpsValue hitem).skipSpace]
      exact hmore

theorem scanFields_dumpsMore (fields : Fields) (level level' depth : ℕ)
    (hfields : Value.EverywhereFields (IsNumeric F) List.Nodup fields)
    (hdumpable : Value.EverywhereFields (isShort · = true) (fun _ => True) fields)
    (hdepth : (dumpsMore F level fields).length ≤ depth) (key text : Text) (value : Value)
    (hstart : ∀ rest, skipSpace (text ++ rest) = text ++ rest)
    (hread : ∀ rest, Ends rest → scanValue F.parse depth (text ++ rest) = some (value, rest))
    (rest : Text) (fuel : ℕ) (hfuel : fields.length < fuel) :
    scanFields (scanValue F.parse depth) fuel (quoted key ++ (Text.of ": " ++ (text ++
        (dumpsMore F level fields ++ (newlineIndent level' ++ ofChar '}' :: rest))))) =
      some ((joined key, value) :: joinedFields fields, rest) := by
  obtain ⟨fuel, rfl⟩ := Nat.exists_eq_succ_of_ne_zero (Nat.ne_of_gt (Nat.zero_lt_of_lt hfuel))
  cases fields with
  | nil => exact scanFields_last hstart hread level' rest
  | cons field fields =>
      obtain ⟨key', value'⟩ := field
      obtain ⟨hvalue', hfields⟩ := hfields
      obtain ⟨hfirst, hothers⟩ := hdumpable
      simp only [dumpsMore, List.length_cons, List.length_append] at hdepth
      have hmore := scanFields_dumpsMore fields level level' depth hfields hothers (by omega) key'
        (dumpsValue F level value') (joinedValue value') (starts_dumpsValue hvalue').skipSpace
        (scanValue_dumpsValue value' level depth hvalue' hfirst (by omega)) rest fuel
        (Nat.lt_of_succ_lt_succ hfuel)
      rw [dumpsMore, List.cons_append]
      refine scanFields_cons hstart hread ?_
      simp only [List.append_assoc, skipSpace_newlineIndent, skipSpace_quoted]
      exact hmore

end

/-- A text with one value in it is read as that value. -/
theorem loads_dumpsValue {value : Value} (hvalue : Representable F value)
    (hdumpable : Dumpable value) :
    loads F.parse (dumpsValue F 0 value ++ [ofChar '\n']) = .ok (joinedValue value) := by
  have hstarts : Starts (dumpsValue F 0 value) := starts_dumpsValue hvalue
  have hends : Ends [ofChar '\n'] := ends_newlineIndent 0 []
  have hread := scanValue_dumpsValue value 0 (dumpsValue F 0 value ++ [ofChar '\n']).length hvalue
    hdumpable (by rw [List.length_append]; exact Nat.le_add_right _ _) [ofChar '\n'] hends
  unfold loads
  rw [if_neg, hstarts.skipSpace, hread]
  · rfl
  · obtain ⟨c, rest, htext, -, -, hc⟩ := hstarts
    rw [htext]
    exact fun h => hc (Option.some.inj h)

/-- **A document that was written reads back**, with its keys sorted and its texts joined. -/
theorem loads_dump {value : Value} {text : Text} (hvalue : Representable F value)
    (h : dump F value = .ok text) : loads F.parse text = .ok (joinedValue value.sortKeys) := by
  unfold dump at h
  split at h
  · rename_i hdumpable
    obtain rfl := Except.ok.inj h
    exact loads_dumpsValue hvalue.sortKeys (hdumpable.sortKeys (fun _ _ _ _ => trivial) value)
  · cases h

end Values

/-! ## Pairs of surrogates -/

section Pairs

/-- The text has no pair of surrogates, if the value is one. -/
def IsUnpaired : Value → Prop
  | .text text => Unpaired text
  | _ => True

instance : DecidablePred IsUnpaired
  | .text text => inferInstanceAs (Decidable (Unpaired text))
  | .null | .bool _ | .number _ | .array _ | .object _ => isTrue trivial

/-- No text and no key has a pair of surrogates. -/
def UnpairedValue : Value → Prop := Value.Everywhere IsUnpaired fun keys => ∀ key ∈ keys, Unpaired key

instance (value : Value) : Decidable (UnpairedValue value) :=
  inferInstanceAs (Decidable (Value.Everywhere IsUnpaired (fun keys => ∀ key ∈ keys, Unpaired key) value))

/-- The order of fields is of no account. -/
theorem unpairedValue_of_same {fields fields' : Fields} (h : Value.SameFields fields fields')
    (h' : UnpairedValue (.object fields')) : UnpairedValue (.object fields) := by
  have hperm : ∀ ks ks' : List Text, ks.Perm ks' →
      ((∀ key ∈ ks, Unpaired key) ↔ ∀ key ∈ ks', Unpaired key) := fun _ _ hks =>
    forall_congr' fun _ => imp_congr_left hks.mem_iff
  exact (Value.Same.everywhere hperm (.object h)).mpr h'

theorem UnpairedValue.sortKeys {value : Value} (h : UnpairedValue value) :
    UnpairedValue value.sortKeys :=
  Value.Everywhere.sortKeys (fun _ _ hks hkeys key hkey => hkeys key (hks.mem_iff.mpr hkey)) value h

theorem mem_of_mem_ofList {fields : Fields} {field : Text × Value}
    (h : field ∈ (Dict.ofList fields).entries) : field ∈ fields :=
  Dict.mem_of_get?_ofList (Dict.get?_of_mem_entries h)

mutual

/-- What is read back has no pairs. -/
theorem unpaired_joinedValue (value : Value) : UnpairedValue (joinedValue value) := by
  cases value with
  | text text => exact unpaired_joined text
  | array items => exact Value.everywhereItems_iff.mpr (unpaired_joinedItems items)
  | object fields =>
      refine ⟨fun key hkey => ?_, Value.everywhereFields_iff.mpr fun field hfield => ?_⟩
      · obtain ⟨field, hfield, rfl⟩ := List.mem_map.mp hkey
        exact (unpaired_joinedFields fields field (mem_of_mem_ofList hfield)).1
      · exact (unpaired_joinedFields fields field (mem_of_mem_ofList hfield)).2
  | _ => trivial

theorem unpaired_joinedItems (items : List Value) :
    ∀ item ∈ joinedItems items, UnpairedValue item := by
  cases items with
  | nil => exact fun _ h => (by cases h)
  | cons item items =>
      exact List.forall_mem_cons.mpr ⟨unpaired_joinedValue item, unpaired_joinedItems items⟩

theorem unpaired_joinedFields (fields : Fields) :
    ∀ field ∈ joinedFields fields, Unpaired field.1 ∧ UnpairedValue field.2 := by
  cases fields with
  | nil => exact fun _ h => (by cases h)
  | cons field fields =>
      exact List.forall_mem_cons.mpr
        ⟨⟨unpaired_joined field.1, unpaired_joinedValue field.2⟩, unpaired_joinedFields fields⟩

end

variable {F : FloatFormat}

mutual

/-- Without pairs nothing is joined. -/
theorem joinedValue_eq_self (value : Value) (hvalue : Representable F value)
    (h : UnpairedValue value) : joinedValue value = value := by
  cases value with
  | text text => exact congrArg _ (joined_eq_self h)
  | array items => exact congrArg _ (joinedItems_eq_self items hvalue h)
  | object fields =>
      have hfields := joinedFields_eq_self fields hvalue.2 h.1 h.2
      have hdict : Dict.ofList fields = ⟨fields, hvalue.1⟩ := Dict.ofList_entries ⟨fields, hvalue.1⟩
      rw [joinedValue, hfields, hdict]
  | _ => rfl

theorem joinedItems_eq_self (items : List Value)
    (hitems : Value.EverywhereItems (IsNumeric F) List.Nodup items)
    (h : Value.EverywhereItems IsUnpaired (fun keys => ∀ key ∈ keys, Unpaired key) items) :
    joinedItems items = items := by
  cases items with
  | nil => rfl
  | cons item items =>
      rw [joinedItems, joinedValue_eq_self item hitems.1 h.1, joinedItems_eq_self items hitems.2 h.2]

theorem joinedFields_eq_self (fields : Fields)
    (hfields : Value.EverywhereFields (IsNumeric F) List.Nodup fields)
    (hkeys : ∀ key ∈ fields.map Prod.fst, Unpaired key)
    (h : Value.EverywhereFields IsUnpaired (fun keys => ∀ key ∈ keys, Unpaired key) fields) :
    joinedFields fields = fields := by
  cases fields with
  | nil => rfl
  | cons field fields =>
      obtain ⟨key, value⟩ := field
      obtain ⟨hkey, hothers⟩ := List.forall_mem_cons.mp hkeys
      rw [joinedFields, joined_eq_self hkey, joinedValue_eq_self value hfields.1 h.1,
        joinedFields_eq_self fields hfields.2 hothers h.2]

end

end Pairs

end UltimateBBSBox.Archive.JsonText

import Mathlib.Data.Nat.Digits.Lemmas
import UltimateBBSBox.Library.Text

/-!
# Texts of IP addresses

What `ipaddress` takes for an IPv4 and for an IPv6 address, with a scope after a
per cent sign in the latter.  Upper and lower case make no difference.
-/

namespace Address

open CodePoint (ofChar isDigit isHex)

/-! ## Definitions -/

/-- The number that decimal digits write. -/
def decimalValue (digits : Text) : ℕ := Nat.ofDigits 10 (digits.reverse.map fun c => c.val - 48)

/-- `_parse_octet` succeeds: no empty text, at most three ASCII digits, no leading
zero, at most 255. -/
def isOctet (part : Text) : Bool :=
  part ≠ [] ∧ (∀ c ∈ part, isDigit c = true) ∧ part.length ≤ 3 ∧
    (part = Text.of "0" ∨ part.head? ≠ some (ofChar '0')) ∧ decimalValue part ≤ 255

/-- `IPv4Address(text)` succeeds. -/
def isIPv4 (text : Text) : Bool :=
  (text.splitOn (ofChar '.')).length = 4 ∧ ∀ part ∈ text.splitOn (ofChar '.'), isOctet part = true

/-- `_parse_hextet` succeeds. -/
def isHextet (part : Text) : Bool :=
  part ≠ [] ∧ (∀ c ∈ part, isHex c = true) ∧ part.length ≤ 4

/-- The parts of an IPv6 address, with an IPv4 address at the end made two of them:
which two makes no difference. -/
def hexParts (parts : List Text) : Option (List Text) :=
  let last := parts.getLastD []
  if ofChar '.' ∈ last then
    if isIPv4 last then some (parts.dropLast ++ [Text.of "0", Text.of "0"]) else none
  else some parts

/-- The positions of empty parts, the first and the last part apart. -/
def skips (parts : List Text) : List ℕ :=
  (List.range parts.length).filter fun i =>
    1 ≤ i ∧ i + 1 < parts.length ∧ parts[i]? = some []

/-- Half of an address with `::`: nothing but the empty part beside it, or hextets. -/
def isHalf (parts : List Text) : Bool := parts = [[]] ∨ ∀ part ∈ parts, isHextet part = true

/-- How many hextets a half has. -/
def halfLength (parts : List Text) : ℕ := if parts = [[]] then 0 else parts.length

/-- What `_ip_int_from_string` asks of the parts. -/
def areParts (parts : List Text) : Bool :=
  match skips parts with
  | [] => parts.length = 8 ∧ ∀ part ∈ parts, isHextet part = true
  | [i] =>
      parts.length ≤ 9 ∧ isHalf (parts.take i) ∧ isHalf (parts.drop (i + 1)) ∧
        halfLength (parts.take i) + halfLength (parts.drop (i + 1)) < 8
  | _ => false

/-- `_ip_int_from_string` succeeds. -/
def isIPv6Number (text : Text) : Bool :=
  3 ≤ (text.splitOn (ofChar ':')).length ∧
    (hexParts (text.splitOn (ofChar ':'))).any areParts

/-- `IPv6Address(text)` succeeds. -/
def isIPv6 (text : Text) : Bool :=
  ofChar '/' ∉ text ∧
    (ofChar '%' ∈ text → Text.after (ofChar '%') text ≠ [] ∧
      ofChar '%' ∉ Text.after (ofChar '%') text) ∧
    isIPv6Number (Text.before (ofChar '%') text)

/-! ## Case -/

/-- The ASCII lower case of a text. -/
def lowered (text : Text) : Text := text.map CodePoint.asciiLower

section Lowered

variable {text part : Text} {parts : List Text} {c : CodePoint}

theorem mem_lowered_iff {d : Char} (h : (ofChar d).isLetter = false) :
    ofChar d ∈ lowered text ↔ ofChar d ∈ text := by
  unfold lowered
  simp only [List.mem_map, CodePoint.asciiLower_eq_ofChar_iff h, exists_eq_right]

theorem lowered_eq_nil : lowered text = [] ↔ text = [] := List.map_eq_nil_iff

/-- Splitting at what is no letter and lowering commute. -/
theorem splitOn_lowered {d : Char} (h : (ofChar d).isLetter = false) (text : Text) :
    (lowered text).splitOn (ofChar d) = (text.splitOn (ofChar d)).map lowered := by
  induction text with
  | nil => rfl
  | cons c rest ih =>
      have hrest : lowered (c :: rest) = c.asciiLower :: lowered rest := rfl
      rw [hrest, List.splitOn_cons_eq_if_modifyHead, List.splitOn_cons_eq_if_modifyHead, ih]
      by_cases hc : c = ofChar d
      · rw [hc, (CodePoint.asciiLower_eq_ofChar_iff h).mpr rfl, beq_self_eq_true, if_pos rfl,
          if_pos rfl]
        rfl
      · have hlower : c.asciiLower ≠ ofChar d :=
          fun heq => hc ((CodePoint.asciiLower_eq_ofChar_iff h).mp heq)
        rw [if_neg (by simpa using hlower), if_neg (by simpa using hc)]
        cases rest.splitOn (ofChar d) with
        | nil => rfl
        | cons first others => rfl

theorem isHextet_lowered (part : Text) : isHextet (lowered part) = isHextet part := by
  unfold isHextet lowered
  simp only [ne_eq, List.map_eq_nil_iff, List.mem_map, forall_exists_index, and_imp,
    forall_apply_eq_imp_iff₂, CodePoint.isHex_asciiLower, List.length_map]

theorem isOctet_lowered (part : Text) : isOctet (lowered part) = isOctet part := by
  by_cases hdigits : ∀ c ∈ part, isDigit c = true
  · have hsame : lowered part = part := by
      conv_rhs => rw [← List.map_id part]
      exact List.map_congr_left fun c hc => CodePoint.asciiLower_of_isDigit (hdigits c hc)
    rw [hsame]
  · have hlowered : ¬ ∀ c ∈ lowered part, isDigit c = true := by
      simpa [lowered, CodePoint.isDigit_asciiLower] using hdigits
    unfold isOctet
    simp only [hdigits, hlowered, false_and, and_false, decide_false]

theorem isIPv4_lowered (text : Text) : isIPv4 (lowered text) = isIPv4 text := by
  unfold isIPv4
  rw [splitOn_lowered (by decide)]
  simp only [List.length_map, List.mem_map, forall_exists_index, and_imp,
    forall_apply_eq_imp_iff₂, isOctet_lowered]

theorem hexParts_map_lowered (parts : List Text) :
    hexParts (parts.map lowered) = (hexParts parts).map fun parts => parts.map lowered := by
  have hlast : (parts.map lowered).getLastD [] = lowered (parts.getLastD []) := by
    rw [List.getLastD_eq_getLast?, List.getLastD_eq_getLast?, List.getLast?_map]
    cases parts.getLast? <;> rfl
  unfold hexParts
  simp only [hlast, mem_lowered_iff (d := '.') (by decide), isIPv4_lowered]
  split
  · split
    · rw [Option.map_some, List.map_append, List.map_dropLast]
      rfl
    · rfl
  · rfl

theorem skips_map_lowered (parts : List Text) : skips (parts.map lowered) = skips parts := by
  unfold skips
  rw [List.length_map]
  apply List.filter_congr
  intro i _
  rw [List.getElem?_map, decide_eq_decide]
  refine and_congr_right fun _ => and_congr_right fun _ => ?_
  cases parts[i]? with
  | none => simp
  | some part => simp [lowered_eq_nil]

theorem map_lowered_eq_iff {parts : List Text} : parts.map lowered = [[]] ↔ parts = [[]] := by
  simp [List.map_eq_singleton_iff, lowered_eq_nil]

theorem isHalf_map_lowered (parts : List Text) : isHalf (parts.map lowered) = isHalf parts := by
  unfold isHalf
  simp only [map_lowered_eq_iff, List.mem_map, forall_exists_index, and_imp,
    forall_apply_eq_imp_iff₂, isHextet_lowered]

theorem halfLength_map_lowered (parts : List Text) :
    halfLength (parts.map lowered) = halfLength parts := by
  unfold halfLength
  simp only [map_lowered_eq_iff, List.length_map]

theorem areParts_map_lowered (parts : List Text) :
    areParts (parts.map lowered) = areParts parts := by
  unfold areParts
  rw [skips_map_lowered]
  cases skips parts with
  | nil =>
      simp only [List.length_map, List.mem_map, forall_exists_index, and_imp,
        forall_apply_eq_imp_iff₂, isHextet_lowered]
  | cons i rest =>
      cases rest with
      | nil =>
          simp only [List.length_map, ← List.map_take, ← List.map_drop, isHalf_map_lowered,
            halfLength_map_lowered]
      | cons j rest => rfl

/-- Case makes no difference to an IPv6 address. -/
theorem isIPv6Number_lowered (text : Text) : isIPv6Number (lowered text) = isIPv6Number text := by
  unfold isIPv6Number
  rw [splitOn_lowered (by decide), List.length_map, hexParts_map_lowered]
  cases hexParts (text.splitOn (ofChar ':')) with
  | none => rfl
  | some parts => simp [areParts_map_lowered]

end Lowered

/-! ## Characters -/

/-- An address has a colon. -/
theorem colon_mem_of_isIPv6Number {text : Text} (h : isIPv6Number text = true) :
    ofChar ':' ∈ text := by
  by_contra hcolon
  unfold isIPv6Number at h
  rw [List.splitOn_eq_singleton hcolon] at h
  simp at h

/-- A character of a text separates its parts or is in one of them. -/
theorem mem_part_of_mem (separator : CodePoint) {c : CodePoint} {text : Text} (h : c ∈ text) :
    c = separator ∨ ∃ part ∈ text.splitOn separator, c ∈ part := by
  induction text with
  | nil => cases h
  | cons first rest ih =>
      rw [List.splitOn_cons_eq_if_modifyHead]
      by_cases hfirst : first = separator
      · rw [if_pos (by simpa using hfirst)]
        obtain rfl | hrest := List.mem_cons.mp h
        · exact .inl hfirst
        · refine (ih hrest).imp_right fun ⟨part, hpart, hc⟩ => ?_
          exact ⟨part, List.mem_cons_of_mem _ hpart, hc⟩
      · rw [if_neg (by simpa using hfirst)]
        obtain ⟨part, others, hparts⟩ :=
          List.exists_cons_of_ne_nil (List.splitOn_ne_nil separator rest)
        rw [hparts, List.modifyHead_cons]
        obtain rfl | hrest := List.mem_cons.mp h
        · exact .inr ⟨c :: part, List.mem_cons_self, List.mem_cons_self⟩
        · refine (ih hrest).imp_right fun ⟨other, hother, hc⟩ => ?_
          rw [hparts] at hother
          obtain rfl | hother := List.mem_cons.mp hother
          · exact ⟨first :: other, List.mem_cons_self, List.mem_cons_of_mem _ hc⟩
          · exact ⟨other, List.mem_cons_of_mem _ hother, hc⟩

/-- A character that an address without a scope may have. -/
def IsAddressChar (c : CodePoint) : Prop := isHex c = true ∨ c = ofChar ':' ∨ c = ofChar '.'

theorem IsAddressChar.isAscii {c : CodePoint} (h : IsAddressChar c) : c.isAscii = true := by
  obtain h | rfl | rfl := h
  · exact CodePoint.isAscii_of_isHex h
  · decide
  · decide

theorem isAddressChar_of_isHextet {part : Text} (h : isHextet part = true) :
    ∀ c ∈ part, IsAddressChar c := by
  simp only [isHextet, decide_eq_true_eq] at h
  exact fun c hc => .inl (h.2.1 c hc)

theorem isAddressChar_of_isIPv4 {text : Text} (h : isIPv4 text = true) :
    ∀ c ∈ text, IsAddressChar c := by
  simp only [isIPv4, decide_eq_true_eq] at h
  intro c hc
  obtain rfl | ⟨part, hpart, hc⟩ := mem_part_of_mem (ofChar '.') hc
  · exact .inr (.inr rfl)
  · have hoctet := h.2 part hpart
    simp only [isOctet, decide_eq_true_eq] at hoctet
    exact .inl (CodePoint.isHex_of_isDigit (hoctet.2.1 c hc))

theorem isAddressChar_of_isHalf {parts : List Text} (h : isHalf parts = true) :
    ∀ part ∈ parts, ∀ c ∈ part, IsAddressChar c := by
  simp only [isHalf, decide_eq_true_eq] at h
  obtain rfl | h := h
  · simp
  · exact fun part hpart => isAddressChar_of_isHextet (h part hpart)

theorem isAddressChar_of_areParts {parts : List Text} (h : areParts parts = true) :
    ∀ part ∈ parts, ∀ c ∈ part, IsAddressChar c := by
  unfold areParts at h
  split at h
  · simp only [decide_eq_true_eq] at h
    exact fun part hpart => isAddressChar_of_isHextet (h.2 part hpart)
  · rename_i i hskips
    simp only [decide_eq_true_eq] at h
    obtain ⟨-, hfront, hrest, -⟩ := h
    have hi : i ∈ skips parts := hskips ▸ List.mem_cons_self
    simp only [skips, List.mem_filter, decide_eq_true_eq] at hi
    intro part hpart
    rw [← List.take_append_drop i parts, List.mem_append] at hpart
    obtain hpart | hpart := hpart
    · exact isAddressChar_of_isHalf hfront part hpart
    · -- the part at `i` itself is empty
      obtain ⟨hlt, hempty⟩ := List.getElem?_eq_some_iff.mp hi.2.2.2
      rw [List.drop_eq_getElem_cons hlt, List.mem_cons, hempty] at hpart
      obtain rfl | hpart := hpart
      · simp
      · exact isAddressChar_of_isHalf hrest part hpart
  · cases h

theorem isAddressChar_of_hexParts {parts parts' : List Text} (h : hexParts parts = some parts')
    (hparts' : ∀ part ∈ parts', ∀ c ∈ part, IsAddressChar c) :
    ∀ part ∈ parts, ∀ c ∈ part, IsAddressChar c := by
  simp only [hexParts] at h
  split at h
  · split at h
    · rename_i hipv4
      obtain rfl := Option.some.inj h
      intro part hpart
      cases parts using List.reverseRecOn with
      | nil => cases hpart
      | append_singleton front last =>
          rw [List.getLastD_concat] at hipv4
          obtain hpart | hpart := List.mem_append.mp hpart
          · refine hparts' part (List.mem_append_left _ ?_)
            rw [List.dropLast_concat]
            exact hpart
          · rw [List.mem_singleton.mp hpart]
            exact isAddressChar_of_isIPv4 hipv4
    · cases h
  · obtain rfl := Option.some.inj h
    exact hparts'

/-- An address is of hexadecimal digits, colons and full stops. -/
theorem isAddressChar_of_isIPv6Number {text : Text} (h : isIPv6Number text = true) :
    ∀ c ∈ text, IsAddressChar c := by
  simp only [isIPv6Number, decide_eq_true_eq, Option.any_eq_true] at h
  obtain ⟨-, parts, hparts, hare⟩ := h
  intro c hc
  obtain rfl | ⟨part, hpart, hc⟩ := mem_part_of_mem (ofChar ':') hc
  · exact .inr (.inl rfl)
  · exact isAddressChar_of_hexParts hparts (isAddressChar_of_areParts hare) part hpart c hc

/-! ## Decimal numbers -/

/-- `str(n)`. -/
def decimal (n : ℕ) : Text :=
  if n = 0 then Text.of "0" else (Nat.digits 10 n).reverse.map fun d => ofChar d.digitChar

theorem digitChar_spec {d : ℕ} (h : d < 10) :
    isDigit (ofChar d.digitChar) = true ∧ (ofChar d.digitChar).val - 48 = d := by
  have hall : ∀ d < 10, isDigit (ofChar d.digitChar) = true ∧ (ofChar d.digitChar).val - 48 = d := by
    decide
  exact hall d h

theorem decimal_ne_nil (n : ℕ) : decimal n ≠ [] := by
  unfold decimal
  split
  · simp [Text.of]
  · rename_i hn
    simpa using Nat.digits_ne_nil_iff_ne_zero.mpr hn

theorem isDigit_of_mem_decimal {n : ℕ} {c : CodePoint} (h : c ∈ decimal n) : isDigit c = true := by
  unfold decimal at h
  split at h
  · simp only [Text.of, String.reduceToList, List.map_cons, List.map_nil, List.mem_singleton] at h
    rw [h]
    decide
  · obtain ⟨d, hd, rfl⟩ := List.mem_map.mp h
    exact (digitChar_spec (Nat.digits_lt_base (by omega) (List.mem_reverse.mp hd))).1

/-- A number is what its decimal digits write. -/
theorem decimalValue_decimal (n : ℕ) : decimalValue (decimal n) = n := by
  unfold decimal
  split
  · rename_i hn
    rw [hn]
    rfl
  · have hdigits : ((Nat.digits 10 n).map fun d => (ofChar d.digitChar).val - 48) = Nat.digits 10 n := by
      conv_rhs => rw [← List.map_id (Nat.digits 10 n)]
      apply List.map_congr_left
      intro d hd
      exact (digitChar_spec (Nat.digits_lt_base (by omega) hd)).2
    unfold decimalValue
    rw [← List.map_reverse, List.reverse_reverse, List.map_map]
    calc _ = Nat.ofDigits 10 (Nat.digits 10 n) := congrArg _ hdigits
      _ = n := Nat.ofDigits_digits 10 n

theorem length_decimal_le {n k : ℕ} (hn : n < 10 ^ k) (hk : 0 < k) : (decimal n).length ≤ k := by
  unfold decimal
  split
  · exact hk
  · rw [List.length_map, List.length_reverse]
    exact (Nat.digits_length_le_iff (by omega) n).mpr hn

/-! ## Canonical texts -/

/-- The value of a hexadecimal digit. -/
def hexDigit (c : CodePoint) : ℕ :=
  if isDigit c then c.val - 48 else (c.asciiLower).val - 87

/-- The number that hexadecimal digits write. -/
def hexValue (digits : Text) : ℕ := Nat.ofDigits 16 (digits.reverse.map hexDigit)

/-- `"%x" % n`, for a number that has digits. -/
def hexText (n : ℕ) : Text :=
  if n = 0 then .of "0" else (Nat.digits 16 n).reverse.map fun d => ofChar d.digitChar

/-- The two hextets of an IPv4 address at the end. -/
def ipv4Hextets (text : Text) : List ℕ :=
  match (text.splitOn (ofChar '.')).map decimalValue with
  | [a, b, c, d] => [a * 256 + b, c * 256 + d]
  | _ => []

/-- The hextets of the parts of an address, or of half of one. -/
def hextetsOf (parts : List Text) : List ℕ :=
  if parts = [[]] then []
  else parts.flatMap fun part =>
    if ofChar '.' ∈ part then ipv4Hextets part else [hexValue part]

/-- The eight hextets of an IPv6 address. -/
def hextets (text : Text) : List ℕ :=
  let parts := text.splitOn (ofChar ':')
  match skips parts with
  | [i] =>
      let high := hextetsOf (parts.take i)
      let low := hextetsOf (parts.drop (i + 1))
      high ++ List.replicate (8 - high.length - low.length) 0 ++ low
  | _ => hextetsOf parts

/-- How many zeros there are from a position on. -/
def zerosFrom (hextets : List ℕ) (start : ℕ) : ℕ := ((hextets.drop start).takeWhile (· = 0)).length

/-- Where the first of the longest runs of zeros starts. -/
def longestZeros (hextets : List ℕ) : ℕ :=
  (List.range hextets.length).foldl
    (fun best start => if zerosFrom hextets best < zerosFrom hextets start then start else best) 0

/-- `_string_from_ip_int`: the longest run of two or more zeros is left out. -/
def ipv6Text (hextets : List ℕ) : Text :=
  let join (hextets : List ℕ) : Text := List.intercalate (Text.of ":") (hextets.map hexText)
  let start := longestZeros hextets
  let zeros := zerosFrom hextets start
  if zeros ≤ 1 then join hextets
  else join (hextets.take start) ++ .of "::" ++ join (hextets.drop (start + zeros))

/-- `str(ipaddress.ip_address(v))`, if it succeeds. -/
def ipAddress (v : Text) : Option Text :=
  if isIPv4 v then some v
  else if isIPv6 v then
    some (ipv6Text (hextets (v.before (ofChar '%'))) ++ v.dropWhile fun c => c ≠ ofChar '%')
  else none

/-! ## Networks -/

/-- A number of bits in front. -/
def isPrefixLength (bits : ℕ) (mask : Text) : Bool :=
  mask ≠ [] ∧ (∀ c ∈ mask, isDigit c = true) ∧ decimalValue mask ≤ bits

/-- A netmask or a host mask of IPv4. -/
def isNetmask (mask : Text) : Bool :=
  isIPv4 mask ∧
    let value := Nat.ofDigits 256 (((mask.splitOn (ofChar '.')).map decimalValue).reverse)
    ∃ bits ≤ 32, value = 2 ^ 32 - 2 ^ bits ∨ value = 2 ^ bits - 1

/-- `ipaddress.ip_network(v, strict=False)` succeeds. -/
def isNetwork (v : Text) : Bool :=
  match v.splitOn (ofChar '/') with
  | [address] => isIPv4 address ∨ isIPv6 address
  | [address, mask] =>
      (isIPv4 address ∧ (isPrefixLength 32 mask ∨ isNetmask mask)) ∨
        (isIPv6 address ∧ isPrefixLength 128 mask)
  | _ => false

end Address

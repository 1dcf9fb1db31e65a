import UltimateBBSBox.Library.Address

/-!
# The texts of networks

`str(ipaddress.ip_network(v, strict=False))`: the bits of the host are cleared, and with them a
scope goes.  It is there for the networks of `Address.isNetwork` and no others
(`isSome_ipNetwork`).
-/

namespace Address

open CodePoint (ofChar)

/-- The number of an IPv4 address. -/
def ipv4Value (text : Text) : ℕ :=
  Nat.ofDigits 256 ((text.splitOn (ofChar '.')).map decimalValue).reverse

/-- The text of an IPv4 address. -/
def ipv4Text (value : ℕ) : Text :=
  (Text.of ".").intercalate
    ([value / 2 ^ 24, value / 2 ^ 16 % 256, value / 2 ^ 8 % 256, value % 256].map decimal)

/-- `_prefix_from_ip_string`: how many bits a netmask, or else a host mask, leaves to the host. -/
def netmaskHostBits (mask : Text) : Option ℕ :=
  if isIPv4 mask then
    ((List.range 33).find? fun bits => ipv4Value mask = 2 ^ 32 - 2 ^ bits).or
      ((List.range 33).find? fun bits => ipv4Value mask = 2 ^ bits - 1)
  else none

/-- `_make_netmask` of IPv4: how many bits the mask leaves to the host. -/
def ipv4HostBits (mask : Text) : Option ℕ :=
  if isPrefixLength 32 mask then some (32 - decimalValue mask) else netmaskHostBits mask

/-- An IPv4 network with so many bits for the host. -/
def ipv4Network (address : Text) (hostBits : ℕ) : Text :=
  ipv4Text (ipv4Value address / 2 ^ hostBits * 2 ^ hostBits) ++ .of "/" ++ decimal (32 - hostBits)

/-- An IPv6 network with so many bits for the host: the scope stays if none of them is set. -/
def ipv6Network (address : Text) (hostBits : ℕ) : Text :=
  let value := Nat.ofDigits 65536 (hextets (address.before (ofChar '%'))).reverse
  let cleared := value / 2 ^ hostBits * 2 ^ hostBits
  let scope := if cleared = value then address.dropWhile fun c => c ≠ ofChar '%' else []
  let digits := (List.range 8).reverse.map fun i => cleared / 65536 ^ i % 65536
  ipv6Text digits ++ scope ++ .of "/" ++ decimal (128 - hostBits)

/-- `str(ipaddress.ip_network(v, strict=False))`, if it succeeds. -/
def ipNetwork (v : Text) : Option Text :=
  match v.splitOn (ofChar '/') with
  | [address] =>
      if isIPv4 address then some (ipv4Network address 0)
      else if isIPv6 address then some (ipv6Network address 0)
      else none
  | [address, mask] =>
      match if isIPv4 address then ipv4HostBits mask else none with
      | some hostBits => some (ipv4Network address hostBits)
      | none =>
          if isIPv6 address ∧ isPrefixLength 128 mask then
            some (ipv6Network address (128 - decimalValue mask))
          else none
  | _ => none

theorem isSome_netmaskHostBits (mask : Text) :
    (netmaskHostBits mask).isSome = isNetmask mask := by
  unfold netmaskHostBits isNetmask
  by_cases hmask : isIPv4 mask = true
  · rw [if_pos hmask, Option.isSome_or, Bool.eq_iff_iff, Bool.or_eq_true, List.find?_isSome,
      List.find?_isSome]
    simp only [hmask, ipv4Value, List.mem_range, decide_eq_true_eq, true_and]
    constructor
    · rintro (⟨bits, hbits, h⟩ | ⟨bits, hbits, h⟩)
      · exact ⟨bits, by omega, .inl (of_decide_eq_true h)⟩
      · exact ⟨bits, by omega, .inr (of_decide_eq_true h)⟩
    · rintro ⟨bits, hbits, h | h⟩
      · exact .inl ⟨bits, by omega, decide_eq_true h⟩
      · exact .inr ⟨bits, by omega, decide_eq_true h⟩
  · rw [if_neg hmask]
    simp [hmask]

/-- What is taken for a network has a text. -/
theorem isSome_ipNetwork (v : Text) : (ipNetwork v).isSome = isNetwork v := by
  unfold ipNetwork isNetwork
  cases v.splitOn (ofChar '/') with
  | nil => rfl
  | cons address rest =>
      cases rest with
      | nil =>
          dsimp only
          by_cases h4 : isIPv4 address = true
          · simp [h4]
          · by_cases h6 : isIPv6 address = true
            · simp [h4, h6]
            · simp [h4, h6]
      | cons mask others =>
          cases others with
          | cons other others => rfl
          | nil =>
              have hbits : (ipv4HostBits mask).isSome = true ↔
                  isPrefixLength 32 mask = true ∨ isNetmask mask = true := by
                unfold ipv4HostBits
                rw [← isSome_netmaskHostBits]
                by_cases h32 : isPrefixLength 32 mask = true
                · simp [h32]
                · simp [h32]
              dsimp only
              by_cases h4 : isIPv4 address = true
              · rw [if_pos h4]
                cases hhost : ipv4HostBits mask with
                | some hostBits =>
                    have hmask := hbits.mp (by rw [hhost]; rfl)
                    simp [h4, hmask]
                | none =>
                    have hmask := mt hbits.mpr (by rw [hhost]; simp)
                    by_cases h6 : isIPv6 address = true ∧ isPrefixLength 128 mask = true
                    · simp [hmask, h6]
                    · simp [hmask, h6]
              · rw [if_neg h4]
                by_cases h6 : isIPv6 address = true ∧ isPrefixLength 128 mask = true
                · simp [h4, h6]
                · simp [h4, h6]

end Address

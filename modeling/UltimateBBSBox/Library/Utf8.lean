import UltimateBBSBox.Library.PrefixCode
import UltimateBBSBox.Library.Text

/-!
# UTF-8

`str.encode`: the bytes of the code points, one after the other; a text with a
surrogate has none.  The code is prefix-free, so that a text is known from its
bytes (`Text.encode_inj`), and only the null character has a zero byte.
-/

open PrefixCode

namespace CodePoint

/-- The bytes of a code point. -/
def utf8 (c : CodePoint) : List UInt8 :=
  if c.val < 0x80 then [.ofNat c.val]
  else if c.val < 0x800 then [.ofNat (0xC0 + c.val / 0x40), .ofNat (0x80 + c.val % 0x40)]
  else if c.val < 0x10000 then
    [.ofNat (0xE0 + c.val / 0x1000), .ofNat (0x80 + c.val / 0x40 % 0x40),
      .ofNat (0x80 + c.val % 0x40)]
  else
    [.ofNat (0xF0 + c.val / 0x40000), .ofNat (0x80 + c.val / 0x1000 % 0x40),
      .ofNat (0x80 + c.val / 0x40 % 0x40), .ofNat (0x80 + c.val % 0x40)]

theorem utf8_ne_nil (c : CodePoint) : c.utf8 ≠ [] := by
  unfold utf8
  split_ifs <;> exact List.cons_ne_nil _ _

theorem ofNat_inj {m n : ℕ} (hm : m < 256) (hn : n < 256) :
    UInt8.ofNat m = UInt8.ofNat n ↔ m = n := by
  rw [← UInt8.toNat_inj, UInt8.toNat_ofNat_of_lt' hm, UInt8.toNat_ofNat_of_lt' hn]

/-- The first byte says how many there are, and together they say which code point it is. -/
theorem prefixFreeOn_utf8 : PrefixFreeOn utf8 Set.univ := by
  intro c _ d _ hbegins
  have hc := c.isLt
  have hd := d.isLt
  apply Fin.ext
  unfold utf8 at hbegins
  split_ifs at hbegins <;>
    simp only [List.cons_prefix_cons, List.nil_prefix, and_true] at hbegins <;>
    simp (disch := omega) only [ofNat_inj] at hbegins <;> omega

theorem zero_mem_utf8 {c : CodePoint} : 0 ∈ c.utf8 ↔ c = ofChar '\x00' := by
  have hc := c.isLt
  have hzero : (0 : UInt8) = .ofNat 0 := rfl
  have hnull : c = ofChar '\x00' ↔ c.val = 0 := Fin.ext_iff
  rw [hnull, hzero]
  unfold utf8
  split_ifs <;> simp (disch := omega) only [List.mem_cons, List.not_mem_nil, ofNat_inj, or_false] <;>
    omega

end CodePoint

namespace Text

/-- `text.encode()`, where the text has no surrogates. -/
def encode (text : Text) : List UInt8 := text.flatMap CodePoint.utf8

theorem encode_injective : Function.Injective encode := by
  intro text text' heq
  exact CodePoint.prefixFreeOn_utf8.flatMap_injOn (fun c _ => c.utf8_ne_nil)
    (fun _ _ => Set.mem_univ _) (fun _ _ => Set.mem_univ _) heq

theorem zero_mem_encode {text : Text} : 0 ∈ text.encode ↔ .ofChar '\x00' ∈ text := by
  unfold encode
  simp only [List.mem_flatMap, CodePoint.zero_mem_utf8]
  constructor
  · rintro ⟨c, hc, rfl⟩
    exact hc
  · exact fun h => ⟨_, h, rfl⟩

end Text

import UltimateBBSBox.Library.Url

/-!
# Authorities that are put together again

A host in lower case and a port are written as an authority again: in brackets
where the host has a colon.  The accessors read them back, and the checks of
`urlsplit` let the authority through if they let the first one through, unless a
bracket is left in a host that has no colon.
-/

namespace Url

open CodePoint (ofChar)

variable {U : Unicode} {name host digits netloc : Text}

/-! ## Hosts in lower case -/

theorem lowerHost_def (U : Unicode) (name : Text) :
    lowerHost U name = U.lower (name.before (ofChar '%')) ++ name.dropWhile (· ≠ ofChar '%') := rfl

theorem before_append_dropWhile (name : Text) :
    name.before (ofChar '%') ++ name.dropWhile (· ≠ ofChar '%') = name :=
  List.takeWhile_append_dropWhile

/-- Lowering leaves alone the ASCII characters that are no letters. -/
theorem mem_lowerHost_iff {d : Char} (hascii : (ofChar d).isAscii = true)
    (hletter : (ofChar d).isLetter = false) :
    ofChar d ∈ lowerHost U name ↔ ofChar d ∈ name := by
  conv_rhs => rw [← before_append_dropWhile name]
  rw [lowerHost_def, List.mem_append, List.mem_append, U.mem_lower_iff hascii hletter]

theorem percent_not_mem_lower (U : Unicode) (name : Text) :
    ofChar '%' ∉ U.lower (name.before (ofChar '%')) := by
  rw [U.mem_lower_iff (by decide) (by decide)]
  exact Text.not_mem_before _ _

theorem dropWhile_percent_eq (name : Text) :
    name.dropWhile (· ≠ ofChar '%') = [] ∨
      name.dropWhile (· ≠ ofChar '%') = ofChar '%' :: name.after (ofChar '%') := by
  unfold Text.after
  have hhead := List.head?_dropWhile_not (fun c => decide (c ≠ ofChar '%')) name
  cases hdrop : name.dropWhile (· ≠ ofChar '%') with
  | nil => exact .inl rfl
  | cons c rest =>
      right
      rw [hdrop, List.head?_cons] at hhead
      have hc : c = ofChar '%' := by simpa using hhead
      rw [hc]
      rfl

theorem before_lowerHost (U : Unicode) (name : Text) :
    (lowerHost U name).before (ofChar '%') = U.lower (name.before (ofChar '%')) := by
  rw [lowerHost_def]
  obtain hnil | hcons := dropWhile_percent_eq name
  · rw [hnil, List.append_nil, Text.before_eq_self (percent_not_mem_lower U name)]
  · rw [hcons, Text.before_append_cons (percent_not_mem_lower U name)]

theorem dropWhile_lowerHost (U : Unicode) (name : Text) :
    (lowerHost U name).dropWhile (· ≠ ofChar '%') = name.dropWhile (· ≠ ofChar '%') := by
  have hsplit := before_append_dropWhile (lowerHost U name)
  rw [before_lowerHost] at hsplit
  conv at hsplit => rhs; rw [lowerHost_def]
  exact List.append_cancel_left hsplit

/-- Lowering once is enough. -/
theorem lowerHost_lowerHost (U : Unicode) (name : Text) :
    lowerHost U (lowerHost U name) = lowerHost U name := by
  rw [lowerHost_def, before_lowerHost, dropWhile_lowerHost, U.lower_lower]
  rfl

theorem lowerHost_eq_nil_iff : lowerHost U name = [] ↔ name = [] := by
  conv_rhs => rw [← before_append_dropWhile name]
  rw [lowerHost_def, List.append_eq_nil_iff, List.append_eq_nil_iff, U.lower_eq_nil_iff]

/-! ## Writing and reading an authority -/

/-- A host and the digits of a port, as `sanitized_url` and others write them. -/
def authority (host digits : Text) : Text :=
  (if ofChar ':' ∈ host then ofChar '[' :: host ++ [ofChar ']'] else host) ++
    joined (ofChar ':') digits

/-- The host is read back from an authority: it needs a colon for its brackets. -/
structure Readable (host : Text) : Prop where
  at_not_mem : ofChar '@' ∉ host
  bracketed : ofChar ':' ∈ host → ofChar ']' ∉ host
  bare : ofChar ':' ∉ host → ofChar '[' ∉ host

theorem not_mem_joined_digits (hdigits : ∀ c ∈ digits, c.isDigit = true) {d : Char}
    (hd : d ∈ ['@', '[', ']', '/', '?', '#']) : ofChar d ∉ joined (ofChar ':') digits := by
  have hchars : ∀ d ∈ ['@', '[', ']', '/', '?', '#'],
      ofChar d ≠ ofChar ':' ∧ (ofChar d).isDigit = false :=
    List.forall_iff_forall_mem.mp (by decide)
  intro hmem
  obtain heq | hmem := mem_joined hmem
  · exact (hchars d hd).1 heq
  · exact Bool.false_ne_true ((hchars d hd).2.symm.trans (hdigits _ hmem))

theorem authority_of_colon (h : ofChar ':' ∈ host) (digits : Text) :
    authority host digits =
      ofChar '[' :: (host ++ ofChar ']' :: joined (ofChar ':') digits) := by
  rw [authority, if_pos h]
  simp

theorem authority_of_not_colon (h : ofChar ':' ∉ host) (digits : Text) :
    authority host digits = host ++ joined (ofChar ':') digits := by
  rw [authority, if_neg h]

/-- A character of an authority is of the host, or of what is around it. -/
theorem mem_authority {c : CodePoint} (h : c ∈ authority host digits) :
    c ∈ host ∨ c = ofChar '[' ∨ c = ofChar ']' ∨ c ∈ joined (ofChar ':') digits := by
  by_cases hcolon : ofChar ':' ∈ host
  · rw [authority_of_colon hcolon] at h
    simp only [List.mem_cons, List.mem_append] at h
    tauto
  · rw [authority_of_not_colon hcolon, List.mem_append] at h
    tauto

theorem before_cons (separator : CodePoint) (rest : Text) :
    Text.before separator (separator :: rest) = [] := Text.before_append_cons List.not_mem_nil

theorem after_cons (separator : CodePoint) (rest : Text) :
    Text.after separator (separator :: rest) = rest := Text.after_append_cons List.not_mem_nil

/-- There is nothing before the host. -/
theorem hostInfo_authority (hhost : Readable host) (hdigits : ∀ c ∈ digits, c.isDigit = true) :
    hostInfo (authority host digits) = authority host digits := by
  apply Text.afterLast_eq_self
  intro hmem
  obtain hmem | heq | heq | hmem := mem_authority hmem
  · exact hhost.at_not_mem hmem
  · exact absurd heq (by decide)
  · exact absurd heq (by decide)
  · exact not_mem_joined_digits hdigits (by decide) hmem

/-- Host and port are read back. -/
theorem hostAndPort_authority (hhost : Readable host) (hdigits : ∀ c ∈ digits, c.isDigit = true) :
    hostAndPort (authority host digits) = (host, digits) := by
  unfold hostAndPort
  rw [hostInfo_authority hhost hdigits]
  by_cases hcolon : ofChar ':' ∈ host
  · rw [authority_of_colon hcolon, if_pos List.mem_cons_self]
    rw [after_cons]
    dsimp only
    rw [Text.before_append_cons (hhost.bracketed hcolon),
      Text.after_append_cons (hhost.bracketed hcolon)]
    have hport : Text.after (ofChar ':') ([] ++ joined (ofChar ':') digits) = digits :=
      after_append_joined List.not_mem_nil digits
    rw [List.nil_append] at hport
    rw [hport]
  · have hbracket : ofChar '[' ∉ authority host digits := by
      rw [authority_of_not_colon hcolon, List.mem_append]
      exact not_or_intro (hhost.bare hcolon) (not_mem_joined_digits hdigits (by decide))
    rw [if_neg hbracket, authority_of_not_colon hcolon, before_append_joined hcolon,
      after_append_joined hcolon]

/-! ## The checks -/

/-- A host in brackets is checked as it is; one without a colon must have none. -/
theorem checkBrackets_authority (hhost : Readable host)
    (hdigits : ∀ c ∈ digits, c.isDigit = true) :
    checkBrackets (authority host digits) =
      if ofChar ':' ∈ host then checkBracketedHost host
      else if ofChar ']' ∈ host then .error .invalidIPv6Url else .ok () := by
  have hinfo := hostInfo_authority hhost hdigits
  by_cases hcolon : ofChar ':' ∈ host
  · have hport : ¬ (joined (ofChar ':') digits ≠ [] ∧
        (joined (ofChar ':') digits).head? ≠ some (ofChar ':')) := by
      unfold joined
      split
      · exact fun h => h.1 rfl
      · exact fun h => h.2 rfl
    have hopen : ofChar '[' ∈ authority host digits := by
      rw [authority_of_colon hcolon]
      exact List.mem_cons_self
    have hclose : ofChar ']' ∈ authority host digits := by
      rw [authority_of_colon hcolon]
      exact List.mem_cons_of_mem _ (List.mem_append_right _ List.mem_cons_self)
    have hmatched : ¬ ((ofChar '[' ∈ authority host digits ∧ ofChar ']' ∉ authority host digits) ∨
        (ofChar ']' ∈ authority host digits ∧ ofChar '[' ∉ authority host digits)) :=
      fun h => h.elim (fun h => h.2 hclose) fun h => h.2 hopen
    rw [if_pos hcolon, checkBrackets, if_neg hmatched, if_pos ⟨hopen, hclose⟩, checkBracketedNetloc,
      hinfo, if_pos hopen, authority_of_colon hcolon]
    simp only [before_cons, after_cons, Text.before_append_cons (hhost.bracketed hcolon),
      Text.after_append_cons (hhost.bracketed hcolon), ne_eq, not_true_eq_false, if_false]
    exact if_neg hport
  · have hopen : ofChar '[' ∉ authority host digits := by
      rw [authority_of_not_colon hcolon, List.mem_append]
      exact not_or_intro (hhost.bare hcolon) (not_mem_joined_digits hdigits (by decide))
    have hclose : ofChar ']' ∈ authority host digits ↔ ofChar ']' ∈ host := by
      rw [authority_of_not_colon hcolon, List.mem_append, or_iff_left]
      exact not_mem_joined_digits hdigits (by decide)
    rw [if_neg hcolon, checkBrackets]
    simp only [hopen, hclose, false_and, not_false_eq_true, and_true, false_or, if_false]

/-- NFKC is checked of the characters beyond ASCII only. -/
theorem checkNetloc_eq_ok_iff (hnetloc : ∀ c ∈ netloc, isNetlocEnd c = false) :
    checkNetloc U netloc = .ok () ↔
      ∀ c ∈ netloc, c.isAscii = false → ∀ d ∈ delimiters, d ∉ U.nfkc [c] := by
  -- of the delimiters only the slash is not taken out, and an authority has none
  have hslash : ∀ d ∈ delimiters, d ∉ netloc.filter fun c => c ∉ ['@', ':', '#', '?'].map ofChar := by
    intro d hd hmem
    obtain ⟨hmem, hkept⟩ := List.mem_filter.mp hmem
    have hend := hnetloc d hmem
    simp only [delimiters, isNetlocEnd, List.map_cons, List.map_nil, List.mem_cons,
      List.not_mem_nil, or_false, decide_eq_true_eq, decide_eq_false_iff_not] at hd hkept hend
    tauto
  have hother : ∀ c ∈ netloc, c.isAscii = false →
      c ∈ netloc.filter fun c => c ∉ ['@', ':', '#', '?'].map ofChar := by
    intro c hc hascii
    refine List.mem_filter.mpr ⟨hc, decide_eq_true ?_⟩
    intro hmem
    simp only [List.map_cons, List.map_nil, List.mem_cons, List.not_mem_nil, or_false] at hmem
    obtain rfl | rfl | rfl | rfl := hmem <;> exact absurd hascii (by decide)
  have hsub : ∀ c ∈ netloc.filter fun c => c ∉ ['@', ':', '#', '?'].map ofChar, c ∈ netloc :=
    fun c hc => (List.mem_filter.mp hc).1
  unfold checkNetloc
  dsimp only
  generalize (netloc.filter fun c => c ∉ ['@', ':', '#', '?'].map ofChar) = others at *
  constructor
  · intro h c hc hascii d hd hmem
    have hnfkc : d ∈ U.nfkc others := (U.mem_nfkc others d hd).mpr ⟨c, hother c hc hascii, hmem⟩
    split at h
    · rename_i htrivial
      obtain rfl | hall := htrivial
      · cases hc
      · rw [hall c hc] at hascii
        cases hascii
    · split at h
      · rename_i hsame
        rw [← hsame] at hnfkc
        exact hslash d hd hnfkc
      · split at h
        · cases h
        · rename_i hnone
          exact hnone ⟨d, hd, hnfkc⟩
  · intro h
    split
    · rfl
    · split
      · rfl
      · split
        · rename_i hsome
          obtain ⟨d, hd, hnfkc⟩ := hsome
          obtain ⟨c, hc, hmem⟩ := (U.mem_nfkc others d hd).mp hnfkc
          cases hascii : c.isAscii with
          | false => exact absurd hmem (h c (hsub c hc) hascii d hd)
          | true =>
              rw [U.nfkc_ascii c hascii, List.mem_singleton] at hmem
              exact absurd (hmem ▸ hc) (hslash d hd)
        · rfl

/-- An authority with a bracket that has no partner is not let through. -/
theorem checkBrackets_of_unmatched (hcolon : ofChar ':' ∉ host)
    (hdigits : ∀ c ∈ digits, c.isDigit = true) (hopen : ofChar '[' ∈ host)
    (hclose : ofChar ']' ∉ host) :
    checkBrackets (authority host digits) = .error .invalidIPv6Url := by
  have hclose' : ofChar ']' ∉ authority host digits := by
    rw [authority_of_not_colon hcolon, List.mem_append]
    exact not_or_intro hclose (not_mem_joined_digits hdigits (by decide))
  have hopen' : ofChar '[' ∈ authority host digits := by
    rw [authority_of_not_colon hcolon]
    exact List.mem_append_left _ hopen
  rw [checkBrackets, if_pos (.inl ⟨hopen', hclose'⟩)]

/-! ## What the checks let through stays so in lower case -/

/-- Lowering makes nothing that NFKC turns into a delimiter. -/
theorem nfkc_lowerHost
    (h : ∀ c ∈ name, c.isAscii = false → ∀ d ∈ delimiters, d ∉ U.nfkc [c]) :
    ∀ c ∈ lowerHost U name, c.isAscii = false → ∀ d ∈ delimiters, d ∉ U.nfkc [c] := by
  have hname : ∀ c, c ∈ name.before (ofChar '%') ∨ c ∈ name.dropWhile (· ≠ ofChar '%') → c ∈ name := by
    intro c hc
    rw [← before_append_dropWhile name]
    exact List.mem_append.mpr hc
  intro c hc hascii
  rw [lowerHost_def] at hc
  obtain hc | hc := List.mem_append.mp hc
  · obtain ⟨d, -, hd, rfl⟩ | ⟨hc, -⟩ | ⟨hletter, -⟩ | ⟨-, hclean⟩ := U.mem_lower hc
    · rw [CodePoint.isAscii_asciiLower, hd] at hascii
      cases hascii
    · exact h c (hname c (.inl hc)) hascii
    · rw [CodePoint.isAscii_of_isLetter hletter] at hascii
      cases hascii
    · exact hclean
  · exact h c (hname c (.inr hc)) hascii

theorem takeWhile_isHex_append {version rest : Text} (h : ∀ c ∈ version, c.isHex = true) :
    (version ++ ofChar '.' :: rest).takeWhile CodePoint.isHex = version ∧
      (version ++ ofChar '.' :: rest).dropWhile CodePoint.isHex = ofChar '.' :: rest := by
  have hdot : ¬ (ofChar '.').isHex = true := by decide
  rw [List.takeWhile_append_of_pos h, List.dropWhile_append_of_pos h,
    List.takeWhile_cons_of_neg hdot, List.dropWhile_cons_of_neg hdot, List.append_nil]
  exact ⟨rfl, rfl⟩

/-- A version, a full stop and an address. -/
theorem isIPvFuture_iff {text : Text} :
    isIPvFuture text = true ↔ ∃ version rest, text = version ++ ofChar '.' :: rest ∧
      version ≠ [] ∧ (∀ c ∈ version, c.isHex = true) ∧ rest ≠ [] ∧ ofChar '\n' ∉ rest := by
  unfold isIPvFuture
  simp only [decide_eq_true_eq]
  constructor
  · intro ⟨hversion, hdot, hrest, hline⟩
    refine ⟨text.takeWhile CodePoint.isHex, (text.dropWhile CodePoint.isHex).drop 1, ?_, hversion,
      fun c hc => List.mem_takeWhile_imp hc, hrest, hline⟩
    conv_lhs => rw [← List.takeWhile_append_dropWhile (p := CodePoint.isHex) (l := text)]
    congr 1
    obtain ⟨c, rest, hcons⟩ := List.exists_cons_of_ne_nil
      (l := text.dropWhile CodePoint.isHex) (by rw [ne_eq, ← List.head?_eq_none_iff, hdot]; simp)
    rw [hcons] at hdot ⊢
    rw [← Option.some.inj hdot]
    rfl
  · intro ⟨version, rest, htext, hversion, hhex, hrest, hline⟩
    rw [htext, (takeWhile_isHex_append hhex).1, (takeWhile_isHex_append hhex).2]
    exact ⟨hversion, rfl, hrest, hline⟩

/-- An address of a future version stays one. -/
theorem isIPvFuture_lowerHost {version rest : Text} (hversion : version ≠ [])
    (hhex : ∀ c ∈ version, c.isHex = true) (hrest : rest ≠ []) (hline : ofChar '\n' ∉ rest) :
    ∃ text, lowerHost U (ofChar 'v' :: (version ++ ofChar '.' :: rest)) = ofChar 'v' :: text ∧
      isIPvFuture text = true := by
  let front : Text := ofChar 'v' :: (version ++ [ofChar '.'])
  have hname : ofChar 'v' :: (version ++ ofChar '.' :: rest) = front ++ rest := by simp [front]
  have hfront : ∀ c ∈ front, c.isAscii = true ∧ decide (c ≠ ofChar '%') = true := by
    intro c hc
    simp only [front, List.mem_cons, List.mem_append, List.not_mem_nil, or_false] at hc
    obtain rfl | hc | rfl := hc
    · decide
    · exact ⟨CodePoint.isAscii_of_isHex (hhex c hc),
        decide_eq_true fun heq => absurd (hhex c hc) (by rw [heq]; decide)⟩
    · decide
  -- the front is in ASCII, so lowering does not reach across its end
  obtain ⟨rest', hlower, hempty⟩ :=
    U.lower_append (fun c hc => (hfront c hc).1) (rest.before (ofChar '%'))
  have hhost : lowerHost U (front ++ rest) = ofChar 'v' :: (Address.lowered version ++
      ofChar '.' :: (rest' ++ rest.dropWhile (· ≠ ofChar '%'))) := by
    have hbefore : Text.before (ofChar '%') (front ++ rest) = front ++ rest.before (ofChar '%') :=
      List.takeWhile_append_of_pos fun c hc => (hfront c hc).2
    rw [lowerHost_def, hbefore, hlower,
      List.dropWhile_append_of_pos fun c hc => (hfront c hc).2]
    have hlowered : Address.lowered front =
        ofChar 'v' :: (Address.lowered version ++ [ofChar '.']) := by
      unfold front Address.lowered
      rw [List.map_cons, List.map_append]
      rfl
    rw [hlowered]
    simp
  rw [hname, hhost]
  refine ⟨_, rfl, isIPvFuture_iff.mpr ⟨_, _, rfl, ?_, ?_, ?_, ?_⟩⟩
  · exact fun hnil => hversion (Address.lowered_eq_nil.mp hnil)
  · intro c hc
    obtain ⟨d, hd, rfl⟩ := List.mem_map.mp hc
    rw [CodePoint.isHex_asciiLower]
    exact hhex d hd
  · intro hnil
    obtain ⟨hnil, hdrop⟩ := List.append_eq_nil_iff.mp hnil
    apply hrest
    rw [← before_append_dropWhile rest, hempty hnil, hdrop, List.append_nil]
  · -- a line break would have been in the host before
    intro hmem
    have hlowered : ofChar '\n' ∈ lowerHost U (front ++ rest) := by
      rw [hhost]
      exact List.mem_cons_of_mem _ (List.mem_append_right _ (List.mem_cons_of_mem _ hmem))
    obtain hmem | hmem := List.mem_append.mp ((mem_lowerHost_iff (by decide) (by decide)).mp hlowered)
    · simp only [front, List.mem_cons, List.mem_append, List.not_mem_nil, or_false] at hmem
      obtain heq | hmem | heq := hmem
      · exact absurd heq (by decide)
      · exact absurd (hhex _ hmem) (by decide)
      · exact absurd heq (by decide)
    · exact hline hmem

/-- An IPv6 address stays one. -/
theorem isIPv6_lowerHost (h : Address.isIPv6 name = true) :
    Address.isIPv6 (lowerHost U name) = true ∧ (lowerHost U name).head? ≠ some (ofChar 'v') := by
  simp only [Address.isIPv6, decide_eq_true_eq] at h
  obtain ⟨hslash, hscope, hnumber⟩ := h
  have hchars := Address.isAddressChar_of_isIPv6Number hnumber
  have hlower : U.lower (name.before (ofChar '%')) = Address.lowered (name.before (ofChar '%')) :=
    U.lower_ascii fun c hc => (hchars c hc).isAscii
  have hafter : (lowerHost U name).after (ofChar '%') = name.after (ofChar '%') := by
    unfold Text.after
    rw [dropWhile_lowerHost]
  constructor
  · simp only [Address.isIPv6, decide_eq_true_eq]
    rw [mem_lowerHost_iff (by decide) (by decide), mem_lowerHost_iff (by decide) (by decide), hafter,
      before_lowerHost, hlower, Address.isIPv6Number_lowered]
    exact ⟨hslash, hscope, hnumber⟩
  · -- the first character is one of the number, and none of those is lowered to a `v`
    have hcolon := Address.colon_mem_of_isIPv6Number hnumber
    obtain ⟨c, rest, hnonempty⟩ := List.exists_cons_of_ne_nil (List.ne_nil_of_mem hcolon)
    have hc := hchars c (hnonempty ▸ List.mem_cons_self)
    rw [lowerHost_def, hlower, hnonempty]
    intro hhead
    have hv : c.asciiLower = ofChar 'v' := Option.some.inj hhead
    obtain hhex | rfl | rfl := hc
    · rw [← CodePoint.isHex_asciiLower, hv] at hhex
      exact absurd hhex (by decide)
    · exact absurd hv (by decide)
    · exact absurd hv (by decide)

/-- A host that may stand in brackets may do so in lower case. -/
theorem checkBracketedHost_lowerHost (h : checkBracketedHost name = .ok ()) :
    checkBracketedHost (lowerHost U name) = .ok () := by
  unfold checkBracketedHost at h
  split at h
  · rename_i hhead
    split at h
    · rename_i hfuture
      obtain ⟨version, rest, htext, hversion, hhex, hrest, hline⟩ := isIPvFuture_iff.mp hfuture
      have hname : name = ofChar 'v' :: (version ++ ofChar '.' :: rest) := by
        rw [← htext]
        cases name with
        | nil => cases hhead
        | cons c name => rw [Option.some.inj hhead]; rfl
      obtain ⟨text, hlower, htext⟩ := isIPvFuture_lowerHost (U := U) hversion hhex hrest hline
      rw [hname, hlower, checkBracketedHost, List.head?_cons, if_pos rfl]
      exact if_pos htext
    · cases h
  · split at h
    · rename_i hipv6
      obtain ⟨hipv6, hhead⟩ := isIPv6_lowerHost (U := U) hipv6
      rw [checkBracketedHost, if_neg hhead, if_pos hipv6]
    · cases h

/-! ## Hosts of authorities that were let through -/

section Through

theorem at_not_mem_hostInfo (netloc : Text) : ofChar '@' ∉ hostInfo netloc :=
  Text.not_mem_afterLast _ _

/-- Host and port are of the authority. -/
theorem mem_of_mem_hostAndPort {c : CodePoint}
    (h : c ∈ (hostAndPort netloc).1 ∨ c ∈ (hostAndPort netloc).2) : c ∈ hostInfo netloc := by
  unfold hostAndPort at h
  split at h
  · obtain h | h := h
    · exact Text.mem_of_mem_after (Text.mem_of_mem_before h)
    · exact Text.mem_of_mem_after (Text.mem_of_mem_after (Text.mem_of_mem_after h))
  · obtain h | h := h
    · exact Text.mem_of_mem_before h
    · exact Text.mem_of_mem_after h

/-- A host has the brackets that it came without. -/
theorem bracket_not_mem (netloc : Text) :
    (ofChar '[' ∈ hostInfo netloc ∧ ofChar ']' ∉ (hostAndPort netloc).1) ∨
      (ofChar '[' ∉ (hostAndPort netloc).1 ∧ ofChar ':' ∉ (hostAndPort netloc).1) := by
  unfold hostAndPort
  split
  · rename_i hopen
    exact .inl ⟨hopen, Text.not_mem_before _ _⟩
  · rename_i hopen
    exact .inr ⟨fun hmem => hopen (Text.mem_of_mem_before hmem), Text.not_mem_before _ _⟩

/-- A host with a colon has been checked. -/
theorem checkBracketedHost_of_colon (h : checkBrackets netloc = .ok ())
    (hcolon : ofChar ':' ∈ (hostAndPort netloc).1) :
    checkBracketedHost (hostAndPort netloc).1 = .ok () := by
  obtain ⟨hopen, -⟩ | ⟨-, hnot⟩ := bracket_not_mem netloc
  · have hnetloc : ofChar '[' ∈ netloc := Text.mem_of_mem_afterLast hopen
    unfold checkBrackets at h
    split at h
    · cases h
    · rename_i hmatched
      have hclose : ofChar ']' ∈ netloc := by
        by_contra hclose
        exact hmatched (.inl ⟨hnetloc, hclose⟩)
      rw [if_pos ⟨hnetloc, hclose⟩, checkBracketedNetloc, if_pos hopen] at h
      simp only [] at h
      split at h
      · cases h
      · split at h
        · cases h
        · unfold hostAndPort
          rw [if_pos hopen]
          exact h
  · exact absurd hcolon hnot

end Through

end Url

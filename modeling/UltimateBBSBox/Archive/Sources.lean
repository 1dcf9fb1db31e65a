import UltimateBBSBox.Archive.Names
import UltimateBBSBox.Library.Authority
import UltimateBBSBox.Library.Check

/-!
# Source URLs

`sanitized_url` of `ubb_archive.py`.  What it returns is joined from the parts of
the URL, without userinfo and fragment, and is read back as these parts
(`urlsplit_clean`), with three exceptions.  `urlsplit` and `port` raise
`ValueError`, which is not an `ArchiveError`; a port of zero is dropped as if there
were none; and a host with a bracket but no colon is written without brackets
around it, so that the result is not a URL.
-/

namespace UltimateBBSBox.Archive

open CodePoint (ofChar)
open Url

/-! ## `sanitized_url` -/

/-- The schemes of source URLs. -/
def sourceSchemes : List Text := [.of "http", .of "https"]

/-- The authority of the clean URL: a host and a port that is not falsy. -/
def hostPort (host : Text) (port : Option ℕ) : Text :=
  let host : Text := if ofChar ':' ∈ host then ofChar '[' :: host ++ [ofChar ']'] else host
  match port with
  | none => host
  | some port => if port ≠ 0 then host ++ ofChar ':' :: Address.decimal port else host

/-- What a `ValueError` of `urllib.parse` is to the archive. -/
def raising {α : Type} : Except UrlError α → Except Exn α
  | .ok a => .ok a
  | .error _ => .error (.foreign .valueError)

/-- `sanitized_url`. -/
def sanitizedUrl (U : Unicode) (value : Text) : Except Exn (Text × Text) := do
  let parsed ← raising (urlsplit U value)
  if U.lower parsed.scheme ∉ sourceSchemes then
    throw (.archiveError (.of "source URL scheme must be http or https"))
  match parsed.hostname U with
  | none => throw (.archiveError (.of "source URL requires a host"))
  | some host =>
      let port ← raising parsed.port
      let clean := urlunsplit
        ⟨U.lower parsed.scheme, hostPort host port, parsed.path, parsed.query, []⟩
      return (value, clean)

/-! ## What is asked of it -/

/-- The port that a scheme has without one. -/
def defaultPort (scheme : Text) : ℕ := if scheme = .of "https" then 443 else 80

/-- A URL without userinfo and fragment that keeps the other parts of `value`, and
that is kept itself. -/
structure CleanOf (U : Unicode) (value clean : Text) (parsed parsed' : SplitResult) : Prop where
  split : urlsplit U value = .ok parsed
  split' : urlsplit U clean = .ok parsed'
  userinfo : ofChar '@' ∉ parsed'.netloc
  fragment : parsed'.fragment = [] ∧ ofChar '#' ∉ clean
  scheme : parsed'.scheme = U.lower parsed.scheme
  host : parsed'.hostname U = parsed.hostname U
  port : parsed'.port = parsed.port ∨ parsed.port = .ok (some (defaultPort parsed'.scheme))
  path : parsed'.path = parsed.path
  query : parsed'.query = parsed.query
  fixed : sanitizedUrl U clean = .ok (clean, clean)

/-- The URL is refused with an `ArchiveError` or made a clean one. -/
def Sanitizes (U : Unicode) (value : Text) : Prop :=
  (∃ message, sanitizedUrl U value = .error (.archiveError message)) ∨
    ∃ clean parsed parsed', sanitizedUrl U value = .ok (value, clean) ∧
      CleanOf U value clean parsed parsed'

/-- The URL can be split; and if it has one of the schemes and a host, then its port can
be read and is not zero, and its host has no bracket unless it has a colon. -/
def Sanitizable (U : Unicode) (value : Text) : Prop :=
  ∃ parsed, urlsplit U value = .ok parsed ∧
    (U.lower parsed.scheme ∈ sourceSchemes → ∀ host, parsed.hostname U = some host →
      (∃ port, parsed.port = .ok port ∧ port ≠ some 0) ∧
        (ofChar ':' ∈ host ∨ (ofChar '[' ∉ host ∧ ofChar ']' ∉ host)))

/-! ## The clean URL is read back -/

/-- The digits of a port that is written. -/
def portDigits : Option ℕ → Text
  | none => []
  | some port => if port ≠ 0 then Address.decimal port else []

theorem hostPort_eq (host : Text) (port : Option ℕ) :
    hostPort host port = authority host (portDigits port) := by
  unfold hostPort authority portDigits joined
  cases port with
  | none => simp
  | some port =>
      by_cases hport : port = 0
      · simp [hport]
      · simp [hport, Address.decimal_ne_nil]

theorem isDigit_of_mem_portDigits {port : Option ℕ} : ∀ c ∈ portDigits port, c.isDigit = true := by
  intro c hc
  unfold portDigits at hc
  split at hc
  · cases hc
  · split at hc
    · exact Address.isDigit_of_mem_decimal hc
    · cases hc

/-- A port that is written is read back. -/
theorem port_of_hostAndPort {parsed : SplitResult} {host : Text} {port : Option ℕ}
    (h : hostAndPort parsed.netloc = (host, portDigits port))
    (hport : ∀ n, port = some n → n ≤ 65535) :
    parsed.port = .ok (if port = some 0 then none else port) := by
  unfold SplitResult.port
  rw [h]
  cases port with
  | none => rfl
  | some n =>
      by_cases hzero : n = 0
      · rw [hzero]
        rfl
      · have hn := hport n rfl
        have hdigits : portDigits (some n) = Address.decimal n := if_pos hzero
        have hlength : (Address.decimal n).length ≤ 5 :=
          Address.length_decimal_le (by omega) (by omega)
        have hmax : ¬ maxDigits < (Address.decimal n).length := by
          unfold maxDigits
          omega
        have hall : ∀ c ∈ Address.decimal n, c.isDigit = true :=
          fun c hc => Address.isDigit_of_mem_decimal hc
        dsimp only
        rw [hdigits, if_neg (Address.decimal_ne_nil n), if_neg (not_not_intro hall), if_neg hmax,
          Address.decimalValue_decimal, if_pos hn, if_neg (by simpa using hzero)]

theorem le_of_port {parsed : SplitResult} {n : ℕ} (h : parsed.port = .ok (some n)) :
    n ≤ 65535 := by
  unfold SplitResult.port at h
  dsimp only at h
  split at h
  · cases h
  · split at h
    · cases h
    · split at h
      · cases h
      · split at h
        · rename_i hle
          rw [← Option.some.inj (Except.ok.inj h)]
          exact hle
        · cases h

/-- A URL that could be split, with one of the schemes and a host. -/
structure Source (U : Unicode) (value : Text) (parsed : SplitResult) (host : Text) : Prop where
  split : urlsplit U value = .ok parsed
  scheme : U.lower parsed.scheme ∈ sourceSchemes
  host : parsed.hostname U = some host

/-- The parts of the clean URL. -/
def cleanParts (parsed : SplitResult) (host digits : Text) : SplitResult :=
  ⟨parsed.scheme, authority host digits, parsed.path, parsed.query, []⟩

namespace Source

variable {U : Unicode} {value host digits : Text} {parsed : SplitResult} {port : Option ℕ}

theorem lower_scheme (h : Source U value parsed host) : U.lower parsed.scheme = parsed.scheme := by
  rw [← (urlsplit_eq_ok_iff.mp h.split).2]
  exact lower_scheme_parts

theorem name (h : Source U value parsed host) :
    (hostAndPort parsed.netloc).1 ≠ [] ∧ lowerHost U (hostAndPort parsed.netloc).1 = host := by
  have hhost := h.host
  unfold SplitResult.hostname at hhost
  dsimp only at hhost
  split at hhost
  · cases hhost
  · rename_i hne
    exact ⟨hne, Option.some.inj hhost⟩

theorem host_ne (h : Source U value parsed host) : host ≠ [] := by
  obtain ⟨hne, hlower⟩ := h.name
  rw [← hlower]
  exact fun hnil => hne (lowerHost_eq_nil_iff.mp hnil)

/-- The special characters of the host are those of the authority. -/
theorem mem_netloc_of_mem_host (h : Source U value parsed host) {d : Char}
    (hascii : (ofChar d).isAscii = true) (hletter : (ofChar d).isLetter = false)
    (hd : ofChar d ∈ host) : ofChar d ∈ hostInfo parsed.netloc := by
  rw [← h.name.2, mem_lowerHost_iff hascii hletter] at hd
  exact mem_of_mem_hostAndPort (.inl hd)

theorem wellFormed (h : Source U value parsed host) : WellFormed parsed := by
  obtain ⟨-, hparts⟩ := urlsplit_eq_ok_iff.mp h.split
  have hscheme : parsed.scheme ≠ [] := by
    intro hnil
    have hmem := h.scheme
    rw [h.lower_scheme, hnil] at hmem
    simp [sourceSchemes, Text.of] at hmem
  have hnetloc : parsed.netloc ≠ [] := by
    intro hnil
    apply h.name.1
    rw [hnil]
    rfl
  rw [← hparts] at hscheme hnetloc ⊢
  exact wellFormed_parts hscheme hnetloc

theorem checked (h : Source U value parsed host) :
    checkBrackets parsed.netloc = .ok () ∧ checkNetloc U parsed.netloc = .ok () := by
  obtain ⟨hchecked, hparts⟩ := urlsplit_eq_ok_iff.mp h.split
  rw [hparts] at hchecked
  obtain ⟨_, hbrackets, hnetloc⟩ := Except.bind_eq_ok.mp hchecked
  exact ⟨hbrackets, hnetloc⟩

theorem at_not_mem (h : Source U value parsed host) : ofChar '@' ∉ host := fun hmem =>
  at_not_mem_hostInfo parsed.netloc (h.mem_netloc_of_mem_host (by decide) (by decide) hmem)

/-- In a host only one of the brackets can be, and a closing one only without a colon. -/
theorem brackets (h : Source U value parsed host) :
    ofChar ']' ∉ host ∨ (ofChar '[' ∉ host ∧ ofChar ':' ∉ host) := by
  rw [← h.name.2, mem_lowerHost_iff (by decide) (by decide), mem_lowerHost_iff (by decide) (by decide),
    mem_lowerHost_iff (by decide) (by decide)]
  exact (bracket_not_mem parsed.netloc).imp_left And.right

/-- What may not be in an authority is not in its host. -/
theorem not_mem_host (h : Source U value parsed host) {c : CodePoint} (hc : c ∈ host) :
    isNetlocEnd c = false ∧ c ∉ unsafeBytes := by
  have hspecial : ∀ d ∈ ['/', '?', '#', '\t', '\r', '\n'],
      (ofChar d).isAscii = true ∧ (ofChar d).isLetter = false :=
    List.forall_iff_forall_mem.mp (by decide)
  have hnetloc : ∀ d ∈ ['/', '?', '#', '\t', '\r', '\n'], ofChar d ∈ host →
      ofChar d ∈ parsed.netloc := by
    intro d hd hmem
    exact Text.mem_of_mem_afterLast
      (h.mem_netloc_of_mem_host (hspecial d hd).1 (hspecial d hd).2 hmem)
  constructor
  · refine Bool.eq_false_iff.mpr fun hend => ?_
    obtain ⟨d, hd, rfl⟩ := List.mem_map.mp (of_decide_eq_true hend)
    have hmem := hnetloc d (List.mem_append_left ['\t', '\r', '\n'] hd) hc
    rw [h.wellFormed.netloc _ hmem] at hend
    cases hend
  · intro hunsafe
    obtain ⟨d, hd, rfl⟩ := List.mem_map.mp hunsafe
    have hmem := hnetloc d (List.mem_append_right ['/', '?', '#'] hd) hc
    exact h.wellFormed.safe _ (by simp [hmem]) hunsafe

/-- The characters of the clean URL's authority. -/
theorem not_mem_authority (h : Source U value parsed host)
    (hdigits : ∀ c ∈ digits, c.isDigit = true) {c : CodePoint} (hc : c ∈ authority host digits) :
    isNetlocEnd c = false ∧ c ∉ unsafeBytes := by
  have hdigit : ∀ c : CodePoint, c.isDigit = true → isNetlocEnd c = false ∧ c ∉ unsafeBytes := by
    intro c hc
    simp only [CodePoint.isDigit, isNetlocEnd, unsafeBytes, ofChar, Char.reduceToNat, Fin.le_def,
      List.map_cons, List.map_nil, List.mem_cons, List.not_mem_nil, or_false, Fin.ext_iff,
      decide_eq_true_eq, decide_eq_false_iff_not] at hc ⊢
    omega
  obtain hc | rfl | rfl | hc := mem_authority hc
  · exact h.not_mem_host hc
  · exact ⟨by decide, by simp [unsafeBytes]⟩
  · exact ⟨by decide, by simp [unsafeBytes]⟩
  · obtain rfl | hc := mem_joined hc
    · exact ⟨by decide, by simp [unsafeBytes]⟩
    · exact hdigit c (hdigits c hc)

/-- The clean URL is joined from well formed parts. -/
theorem wellFormed_clean (h : Source U value parsed host)
    (hdigits : ∀ c ∈ digits, c.isDigit = true) : WellFormed (cleanParts parsed host digits) where
  scheme := h.wellFormed.scheme
  schemeChars := h.wellFormed.schemeChars
  netloc_ne := by
    intro hnil
    by_cases hcolon : ofChar ':' ∈ host
    · rw [cleanParts, authority_of_colon hcolon] at hnil
      cases hnil
    · rw [cleanParts, authority_of_not_colon hcolon] at hnil
      exact h.host_ne (List.append_eq_nil_iff.mp hnil).1
  netloc _ hc := (h.not_mem_authority hdigits hc).1
  path_head := h.wellFormed.path_head
  path_query := h.wellFormed.path_query
  path_fragment := h.wellFormed.path_fragment
  query := h.wellFormed.query
  safe := by
    intro c hc
    have hsafe := h.wellFormed.safe c
    simp only [cleanParts, List.mem_append, List.not_mem_nil, or_false] at hc hsafe
    obtain ((hc | hc) | hc) | hc := hc
    · exact hsafe (by tauto)
    · exact (h.not_mem_authority hdigits hc).2
    · exact hsafe (by tauto)
    · exact hsafe (by tauto)

/-- NFKC makes nothing of the clean URL's authority that it does not make of the first one. -/
theorem checkNetloc_clean (h : Source U value parsed host)
    (hdigits : ∀ c ∈ digits, c.isDigit = true) :
    checkNetloc U (authority host digits) = .ok () := by
  rw [checkNetloc_eq_ok_iff fun c hc => (h.not_mem_authority hdigits hc).1]
  have hnetloc := (checkNetloc_eq_ok_iff h.wellFormed.netloc).mp h.checked.2
  have hname : ∀ c ∈ (hostAndPort parsed.netloc).1, c.isAscii = false →
      ∀ d ∈ delimiters, d ∉ U.nfkc [c] :=
    fun c hc => hnetloc c (Text.mem_of_mem_afterLast (mem_of_mem_hostAndPort (.inl hc)))
  have hhost := nfkc_lowerHost hname
  rw [h.name.2] at hhost
  intro c hc hascii
  obtain hc | rfl | rfl | hc := mem_authority hc
  · exact hhost c hc hascii
  · exact absurd hascii (by decide)
  · exact absurd hascii (by decide)
  · obtain rfl | hc := mem_joined hc
    · exact absurd hascii (by decide)
    · rw [CodePoint.isAscii_of_isHex (CodePoint.isHex_of_isDigit (hdigits c hc))] at hascii
      cases hascii

/-- A host with a colon passes for a bracketed one. -/
theorem checkBracketedHost (h : Source U value parsed host) (hcolon : ofChar ':' ∈ host) :
    Url.checkBracketedHost host = .ok () := by
  rw [← h.name.2, mem_lowerHost_iff (by decide) (by decide)] at hcolon
  rw [← h.name.2]
  exact checkBracketedHost_lowerHost (checkBracketedHost_of_colon h.checked.1 hcolon)

theorem readable (h : Source U value parsed host)
    (hbare : ofChar ':' ∉ host → ofChar '[' ∉ host) : Readable host where
  at_not_mem := h.at_not_mem
  bracketed hcolon := h.brackets.resolve_right fun hnot => hnot.2 hcolon
  bare := hbare

/-- The checks of `urlsplit` let the authority of the clean URL through where the host
can be read back. -/
theorem checkAuthority_clean (h : Source U value parsed host)
    (hdigits : ∀ c ∈ digits, c.isDigit = true) :
    checkAuthority U (authority host digits) = .ok () ↔
      ofChar ':' ∈ host ∨ (ofChar '[' ∉ host ∧ ofChar ']' ∉ host) := by
  have hauthority : checkAuthority U (authority host digits) = .ok () ↔
      checkBrackets (authority host digits) = .ok () := by
    rw [checkAuthority, Except.bind_eq_ok]
    exact ⟨fun ⟨_, hok, _⟩ => hok, fun hok => ⟨(), hok, h.checkNetloc_clean hdigits⟩⟩
  rw [hauthority]
  by_cases hcolon : ofChar ':' ∈ host
  · rw [checkBrackets_authority (h.readable fun hnot => absurd hcolon hnot) hdigits, if_pos hcolon,
      h.checkBracketedHost hcolon]
    exact iff_of_true rfl (.inl hcolon)
  · by_cases hopen : ofChar '[' ∈ host
    · have hclose : ofChar ']' ∉ host := h.brackets.resolve_right fun hnot => hnot.1 hopen
      rw [checkBrackets_of_unmatched hcolon hdigits hopen hclose]
      simp [hcolon, hopen]
    · rw [checkBrackets_authority (h.readable fun _ => hopen) hdigits, if_neg hcolon]
      by_cases hclose : ofChar ']' ∈ host
      · simp [hcolon, hclose]
      · simp [hopen, hclose]

/-- What the call comes to, once the port is read. -/
theorem sanitizedUrl_eq (h : Source U value parsed host) (hport : parsed.port = .ok port) :
    sanitizedUrl U value = .ok (value, urlunsplit (cleanParts parsed host (portDigits port))) := by
  unfold sanitizedUrl
  rw [h.split]
  have hscheme : ¬ parsed.scheme ∉ sourceSchemes :=
    not_not_intro (h.lower_scheme ▸ h.scheme)
  simp only [raising, bind, Except.bind, if_neg hscheme, h.host, hport, hostPort_eq, h.lower_scheme]
  rfl

/-- **The clean URL is read back** as the parts it was joined from, if its authority
passes the checks. -/
theorem urlsplit_clean (h : Source U value parsed host) :
    urlsplit U (urlunsplit (cleanParts parsed host (portDigits port))) = (do
      checkAuthority U (authority host (portDigits port))
      return cleanParts parsed host (portDigits port)) :=
  urlsplit_urlunsplit U (h.wellFormed_clean isDigit_of_mem_portDigits) h.lower_scheme

theorem hostAndPort_clean (h : Source U value parsed host) (port : Option ℕ)
    (hhost : ofChar ':' ∈ host ∨ (ofChar '[' ∉ host ∧ ofChar ']' ∉ host)) :
    hostAndPort (cleanParts parsed host (portDigits port)).netloc = (host, portDigits port) :=
  hostAndPort_authority
    (h.readable fun hcolon => (hhost.resolve_left hcolon).1) isDigit_of_mem_portDigits

/-- Read back, the clean URL is a source with the same host and port. -/
theorem clean (h : Source U value parsed host) (hport : parsed.port = .ok port)
    (hzero : port ≠ some 0) (hhost : ofChar ':' ∈ host ∨ (ofChar '[' ∉ host ∧ ofChar ']' ∉ host)) :
    Source U (urlunsplit (cleanParts parsed host (portDigits port)))
        (cleanParts parsed host (portDigits port)) host ∧
      (cleanParts parsed host (portDigits port)).port = .ok port := by
  have hread := h.hostAndPort_clean port hhost
  refine ⟨⟨?_, h.scheme, ?_⟩, ?_⟩
  · rw [h.urlsplit_clean, (h.checkAuthority_clean isDigit_of_mem_portDigits).mpr hhost]
    rfl
  · unfold SplitResult.hostname
    rw [hread]
    dsimp only
    rw [if_neg h.host_ne, ← h.name.2, lowerHost_lowerHost]
  · have hle : ∀ n, port = some n → n ≤ 65535 := by
      rintro n rfl
      exact le_of_port hport
    rw [port_of_hostAndPort hread hle, if_neg hzero]

/-- The clean URL has no fragment. -/
theorem hash_not_mem_clean (h : Source U value parsed host) :
    ofChar '#' ∉ urlunsplit (cleanParts parsed host (portDigits port)) := by
  have hclean := h.wellFormed_clean (@isDigit_of_mem_portDigits port)
  intro hmem
  rw [hclean.urlunsplit_eq, SplitResult.tail] at hmem
  simp only [List.mem_append, List.mem_cons] at hmem
  obtain hmem | heq | heq | heq | hmem | (hmem | hmem) | hmem := hmem
  · exact absurd (hclean.schemeChars _ hmem) (by decide)
  · exact absurd heq (by decide)
  · exact absurd heq (by decide)
  · exact absurd heq (by decide)
  · exact absurd (hclean.netloc _ hmem) (by decide)
  · exact hclean.path_fragment hmem
  · obtain heq | hmem := mem_joined hmem
    · exact absurd heq (by decide)
    · exact hclean.query hmem
  · cases hmem

/-- A URL whose host can be read back and whose port is not zero is made a clean one. -/
theorem cleanOf (h : Source U value parsed host) (hport : parsed.port = .ok port)
    (hzero : port ≠ some 0) (hhost : ofChar ':' ∈ host ∨ (ofChar '[' ∉ host ∧ ofChar ']' ∉ host)) :
    CleanOf U value (urlunsplit (cleanParts parsed host (portDigits port))) parsed
      (cleanParts parsed host (portDigits port)) := by
  obtain ⟨hclean, hport'⟩ := h.clean hport hzero hhost
  refine ⟨h.split, hclean.split, ?_, ⟨rfl, ?_⟩, h.lower_scheme.symm, hclean.host.trans h.host.symm,
    .inl (hport'.trans hport.symm), rfl, rfl, hclean.sanitizedUrl_eq hport'⟩
  · have hinfo := hostInfo_authority
      (h.readable fun hcolon => (hhost.resolve_left hcolon).1) (@isDigit_of_mem_portDigits port)
    rw [cleanParts, ← hinfo]
    exact at_not_mem_hostInfo _
  · exact h.hash_not_mem_clean

end Source

/-! ## The condition is exact -/

section Exact

variable {U : Unicode} {value : Text}

/-- A URL that cannot be split is not refused as it should be. -/
theorem not_sanitizes_of_error {e : UrlError} (h : urlsplit U value = .error e) :
    ¬ Sanitizes U value := by
  have hraise : sanitizedUrl U value = .error (.foreign .valueError) := by
    unfold sanitizedUrl
    rw [h]
    rfl
  intro hsanitizes
  obtain ⟨message, hrefused⟩ | ⟨clean, parsed, parsed', hok, -⟩ := hsanitizes
  · rw [hraise] at hrefused
    cases hrefused
  · rw [hraise] at hok
    cases hok

/-- A URL without one of the schemes or without a host is refused. -/
theorem refused {parsed : SplitResult} (h : urlsplit U value = .ok parsed)
    (hnot : U.lower parsed.scheme ∈ sourceSchemes → parsed.hostname U = none) :
    ∃ message, sanitizedUrl U value = .error (.archiveError message) := by
  unfold sanitizedUrl
  rw [h]
  simp only [raising, bind, Except.bind]
  by_cases hscheme : U.lower parsed.scheme ∈ sourceSchemes
  · refine ⟨.of "source URL requires a host", ?_⟩
    rw [if_neg (not_not_intro hscheme), hnot hscheme]
    rfl
  · refine ⟨.of "source URL scheme must be http or https", ?_⟩
    rw [if_pos hscheme]
    rfl

/-- A source with a port that cannot be read is not refused as it should be. -/
theorem Source.not_sanitizes_of_port_error {parsed : SplitResult} {host : Text} {e : UrlError}
    (h : Source U value parsed host) (hport : parsed.port = .error e) : ¬ Sanitizes U value := by
  have hscheme : ¬ parsed.scheme ∉ sourceSchemes := not_not_intro (h.lower_scheme ▸ h.scheme)
  have hraise : sanitizedUrl U value = .error (.foreign .valueError) := by
    unfold sanitizedUrl
    rw [h.split]
    simp only [raising, bind, Except.bind, h.host, hport, h.lower_scheme]
    rw [if_neg hscheme]
  intro hsanitizes
  obtain ⟨message, hrefused⟩ | ⟨clean, parsed, parsed', hok, -⟩ := hsanitizes
  · rw [hraise] at hrefused
    cases hrefused
  · rw [hraise] at hok
    cases hok

/-- A source that is made a clean URL has a port other than zero, and a host that is
read back. -/
theorem Source.of_sanitizes {parsed : SplitResult} {host : Text} {port : Option ℕ}
    (h : Source U value parsed host) (hport : parsed.port = .ok port) (hs : Sanitizes U value) :
    port ≠ some 0 ∧ (ofChar ':' ∈ host ∨ (ofChar '[' ∉ host ∧ ofChar ']' ∉ host)) := by
  obtain ⟨message, hrefused⟩ | ⟨clean, parsed₁, parsed', hok, hclean⟩ := hs
  · rw [h.sanitizedUrl_eq hport] at hrefused
    cases hrefused
  · rw [h.sanitizedUrl_eq hport] at hok
    have hjoined := (Prod.mk.inj (Except.ok.inj hok)).2
    obtain rfl : parsed = parsed₁ := Except.ok.inj (h.split.symm.trans hclean.split)
    have hsplit := hclean.split'
    rw [← hjoined, h.urlsplit_clean] at hsplit
    obtain ⟨_, hchecked, hparsed'⟩ := Except.bind_eq_ok.mp hsplit
    have hhost := (h.checkAuthority_clean isDigit_of_mem_portDigits).mp hchecked
    refine ⟨?_, hhost⟩
    rintro rfl
    -- a port of zero is not written, and so not read back
    have hread := port_of_hostAndPort (h.hostAndPort_clean (some 0) hhost)
      fun n hn => by rw [← Option.some.inj hn]; omega
    rw [Except.pure_eq_ok.mp hparsed'] at hread
    obtain hkept | hdefault := hclean.port
    · rw [hread, hport] at hkept
      cases hkept
    · rw [hport] at hdefault
      have hzero := Option.some.inj (Except.ok.inj hdefault)
      unfold defaultPort at hzero
      split at hzero <;> omega

/-- **When `sanitized_url` does what it is for.**  It refuses a URL with an `ArchiveError`
or makes it a clean one exactly when the URL is sanitizable. -/
theorem sanitizedUrl_sanitizes_iff (U : Unicode) (value : Text) :
    Sanitizes U value ↔ Sanitizable U value := by
  constructor
  · intro hs
    cases hsplit : urlsplit U value with
    | error e => exact absurd hs (not_sanitizes_of_error hsplit)
    | ok parsed =>
        refine ⟨parsed, hsplit, fun hscheme host hhost => ?_⟩
        have hsource : Source U value parsed host := ⟨hsplit, hscheme, hhost⟩
        cases hport : parsed.port with
        | error e => exact absurd hs (hsource.not_sanitizes_of_port_error hport)
        | ok port =>
            obtain ⟨hzero, hread⟩ := hsource.of_sanitizes hport hs
            exact ⟨⟨port, rfl, hzero⟩, hread⟩
  · intro ⟨parsed, hsplit, h⟩
    by_cases hsource : U.lower parsed.scheme ∈ sourceSchemes ∧ ∃ host, parsed.hostname U = some host
    · obtain ⟨hscheme, host, hhost⟩ := hsource
      obtain ⟨⟨port, hport, hzero⟩, hread⟩ := h hscheme host hhost
      have hsource : Source U value parsed host := ⟨hsplit, hscheme, hhost⟩
      exact .inr ⟨_, _, _, hsource.sanitizedUrl_eq hport, hsource.cleanOf hport hzero hread⟩
    · refine .inl (refused hsplit fun hscheme => ?_)
      cases hhost : parsed.hostname U with
      | none => rfl
      | some host => exact absurd ⟨hscheme, host, hhost⟩ hsource

end Exact

theorem lowers_lowered (text : Text) : Lowers (fun text => text) text (Address.lowered text) := by
  induction text with
  | nil => exact .nil
  | cons c rest ih =>
      have hblock : LowersTo (fun text => text) c [c.asciiLower] := by
        refine ⟨by simp, fun _ => rfl, fun hascii b hb => .inl ?_⟩
        have hval := c.val_asciiLower
        simp only [CodePoint.isAscii, decide_eq_false_iff_not] at hascii
        rw [List.mem_singleton.mp hb]
        exact Fin.ext (by omega)
      exact .cons hblock ih

theorem lowered_lowered (text : Text) :
    Address.lowered (Address.lowered text) = Address.lowered text := by
  unfold Address.lowered
  rw [List.map_map]
  apply List.map_congr_left
  intro c _
  have hval := c.val_asciiLower
  have hval' := c.asciiLower.val_asciiLower
  exact Fin.ext (by simp only [Function.comp_apply]; omega)

/-- Lowering and NFKC on texts in ASCII. -/
def asciiOnly : Unicode where
  lower := Address.lowered
  nfkc text := text
  lowers := lowers_lowered
  lower_lower := lowered_lowered
  nfkc_ascii _ _ := rfl
  mem_nfkc text d _ := by simp

/-- A port beyond `2^16` is a `ValueError`. -/
theorem sanitizedUrl_port_out_of_range :
    sanitizedUrl asciiOnly (.of "http://h:65536/") = .error (.foreign .valueError) ∧
      ¬ Sanitizes asciiOnly (.of "http://h:65536/") := by
  have hvalue : Text.of "http://h:65536/" =
      ['h', 't', 't', 'p', ':', '/', '/', 'h', ':', '6', '5', '5', '3', '6', '/'].map ofChar := by
    simp [Text.of]
  have hschemes : sourceSchemes =
      [['h', 't', 't', 'p'].map ofChar, ['h', 't', 't', 'p', 's'].map ofChar] := by
    simp [sourceSchemes, Text.of]
  have hraise : sanitizedUrl asciiOnly (.of "http://h:65536/") = .error (.foreign .valueError) := by
    unfold sanitizedUrl
    rw [hvalue, hschemes]
    decide
  refine ⟨hraise, ?_⟩
  intro hsanitizes
  obtain ⟨message, hrefused⟩ | ⟨clean, parsed, parsed', hok, -⟩ := hsanitizes
  · rw [hraise] at hrefused
    cases hrefused
  · rw [hraise] at hok
    cases hok

end UltimateBBSBox.Archive

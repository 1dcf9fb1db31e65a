import UltimateBBSBox.Library.Address

/-!
# Splitting and joining URLs

`urlsplit`, `urlunsplit` and the accessors `hostname` and `port` of `urllib.parse`,
with the check of bracketed hosts that Python 3.12 makes.  What `str.lower` and
`unicodedata.normalize` do with characters beyond ASCII is kept to the facts of
`Unicode`.

`WellFormed` says what the parts of a split URL look like, and `Admitted` what the
checks ask of its authority; a URL joined from such parts is split into them again.
-/

namespace Url

open CodePoint (ofChar)

/-! ## Unicode -/

/-- What NFKC may make appear in a host. -/
def delimiters : Text := ['/', '?', '#', '@', ':'].map ofChar

/-- What lowering makes of one character among others: of an ASCII character its lower
case, and of another one itself, ASCII letters, or characters that are like neither
ASCII nor a delimiter. -/
structure LowersTo (nfkc : Text → Text) (c : CodePoint) (block : Text) : Prop where
  ne_nil : block ≠ []
  ascii : c.isAscii = true → block = [c.asciiLower]
  other : c.isAscii = false → ∀ b ∈ block, b = c ∨ (b.isLetter = true ∧ b.asciiLower = b) ∨
    (b.isAscii = false ∧ ∀ d ∈ delimiters, d ∉ nfkc [b])

/-- Lowering goes character by character, with an eye on the others. -/
inductive Lowers (nfkc : Text → Text) : Text → Text → Prop
  | nil : Lowers nfkc [] []
  | cons {c : CodePoint} {block text text' : Text} : LowersTo nfkc c block →
      Lowers nfkc text text' → Lowers nfkc (c :: text) (block ++ text')

/-- `str.lower` and `unicodedata.normalize("NFKC", ...)`: the delimiters of a URL neither
combine with other characters nor come about by more than one of them. -/
structure Unicode where
  lower : Text → Text
  nfkc : Text → Text
  lowers : ∀ text, Lowers nfkc text (lower text)
  lower_lower : ∀ text, lower (lower text) = lower text
  nfkc_ascii : ∀ c : CodePoint, c.isAscii = true → nfkc [c] = [c]
  mem_nfkc : ∀ text, ∀ d ∈ delimiters, d ∈ nfkc text ↔ ∃ c ∈ text, d ∈ nfkc [c]

/-! ## `urlsplit` -/

/-- Why a `ValueError` is raised. -/
inductive UrlError
  | invalidIPv6Url
  | invalidIPvFuture
  | notAnIPv6Address
  | invalidUnderNfkc
  | portNotANumber
  | tooManyDigits
  | portOutOfRange
deriving DecidableEq

/-- `SplitResult`. -/
structure SplitResult where
  scheme : Text
  netloc : Text
  path : Text
  query : Text
  fragment : Text
deriving DecidableEq

/-- What is taken out of a URL wherever it stands. -/
def unsafeBytes : Text := ['\t', '\r', '\n'].map ofChar

/-- The URL without leading control characters and spaces, and without `unsafeBytes`. -/
def prepared (url : Text) : Text :=
  (url.dropWhile fun c => c ≤ ofChar ' ').filter fun c => c ∉ unsafeBytes

/-- A character of `scheme_chars`. -/
def isSchemeChar (c : CodePoint) : Bool :=
  c.isLetter ∨ c.isDigit ∨ c ∈ ['+', '-', '.'].map ofChar

/-- The part before the first colon is a scheme. -/
def HasScheme (url : Text) : Prop :=
  ofChar ':' ∈ url ∧ (url.before (ofChar ':')).head?.any CodePoint.isLetter = true ∧
    ∀ c ∈ url.before (ofChar ':'), isSchemeChar c = true

instance (url : Text) : Decidable (HasScheme url) := inferInstanceAs (Decidable (_ ∧ _))

/-- The scheme and what is after it. -/
def splitScheme (U : Unicode) (url : Text) : Text × Text :=
  if HasScheme url then (U.lower (url.before (ofChar ':')), url.after (ofChar ':'))
  else ([], url)

/-- A character that ends the authority. -/
def isNetlocEnd (c : CodePoint) : Bool := c ∈ ['/', '?', '#'].map ofChar

/-- `_splitnetloc` after `//`. -/
def splitNetloc (url : Text) : Text × Text :=
  if url.take 2 = [ofChar '/', ofChar '/'] then
    ((url.drop 2).takeWhile fun c => !isNetlocEnd c, (url.drop 2).dropWhile fun c => !isNetlocEnd c)
  else ([], url)

/-- The pattern `\Av[a-fA-F0-9]+\..+\Z` after its `v`. -/
def isIPvFuture (rest : Text) : Bool :=
  let version := rest.takeWhile CodePoint.isHex
  let address := rest.dropWhile CodePoint.isHex
  version ≠ [] ∧ address.head? = some (ofChar '.') ∧ address.drop 1 ≠ [] ∧
    ofChar '\n' ∉ address.drop 1

/-- `_check_bracketed_host`. -/
def checkBracketedHost (host : Text) : Except UrlError Unit :=
  if host.head? = some (ofChar 'v') then
    if isIPvFuture (host.drop 1) then .ok () else .error .invalidIPvFuture
  else if Address.isIPv6 host then .ok ()
  else .error .notAnIPv6Address

/-- The authority without what is before its last `@`. -/
def hostInfo (netloc : Text) : Text := netloc.afterLast (ofChar '@')

/-- `_check_bracketed_netloc`. -/
def checkBracketedNetloc (netloc : Text) : Except UrlError Unit :=
  if ofChar '[' ∈ hostInfo netloc then
    let bracketed := (hostInfo netloc).after (ofChar '[')
    let port := bracketed.after (ofChar ']')
    if (hostInfo netloc).before (ofChar '[') ≠ [] then .error .invalidIPv6Url
    else if port ≠ [] ∧ port.head? ≠ some (ofChar ':') then .error .invalidIPv6Url
    else checkBracketedHost (bracketed.before (ofChar ']'))
  else checkBracketedHost ((hostInfo netloc).before (ofChar ':'))

/-- What `urlsplit` checks of brackets. -/
def checkBrackets (netloc : Text) : Except UrlError Unit :=
  if (ofChar '[' ∈ netloc ∧ ofChar ']' ∉ netloc) ∨ (ofChar ']' ∈ netloc ∧ ofChar '[' ∉ netloc) then
    .error .invalidIPv6Url
  else if ofChar '[' ∈ netloc ∧ ofChar ']' ∈ netloc then checkBracketedNetloc netloc
  else .ok ()

/-- `_checknetloc`. -/
def checkNetloc (U : Unicode) (netloc : Text) : Except UrlError Unit :=
  let others := netloc.filter fun c => c ∉ ['@', ':', '#', '?'].map ofChar
  if netloc = [] ∨ (∀ c ∈ netloc, c.isAscii = true) then .ok ()
  else if others = U.nfkc others then .ok ()
  else if ∃ d ∈ delimiters, d ∈ U.nfkc others then .error .invalidUnderNfkc
  else .ok ()

/-- `urlsplit`. -/
def urlsplit (U : Unicode) (url : Text) : Except UrlError SplitResult := do
  let scheme := (splitScheme U (prepared url)).1
  let rest := (splitScheme U (prepared url)).2
  let netloc := (splitNetloc rest).1
  let rest := (splitNetloc rest).2
  checkBrackets netloc
  checkNetloc U netloc
  return {
    scheme := scheme
    netloc := netloc
    path := (rest.before (ofChar '#')).before (ofChar '?')
    query := (rest.before (ofChar '#')).after (ofChar '?')
    fragment := rest.after (ofChar '#') }

/-! ## The accessors -/

/-- `_hostinfo`: the host and the port as they stand. -/
def hostAndPort (netloc : Text) : Text × Text :=
  if ofChar '[' ∈ hostInfo netloc then
    let bracketed := (hostInfo netloc).after (ofChar '[')
    (bracketed.before (ofChar ']'), (bracketed.after (ofChar ']')).after (ofChar ':'))
  else ((hostInfo netloc).before (ofChar ':'), (hostInfo netloc).after (ofChar ':'))

/-- The host in lower case, a scope after a per cent sign apart. -/
def lowerHost (U : Unicode) (name : Text) : Text :=
  U.lower (name.before (ofChar '%')) ++ name.dropWhile fun c => c ≠ ofChar '%'

/-- `hostname`. -/
def SplitResult.hostname (U : Unicode) (parsed : SplitResult) : Option Text :=
  let name := (hostAndPort parsed.netloc).1
  if name = [] then none else some (lowerHost U name)

/-- The number of digits from which on `int` refuses a text. -/
def maxDigits : ℕ := 4300

/-- `port`. -/
def SplitResult.port (parsed : SplitResult) : Except UrlError (Option ℕ) :=
  let digits := (hostAndPort parsed.netloc).2
  if digits = [] then .ok none
  else if ¬ ∀ c ∈ digits, c.isDigit = true then .error .portNotANumber
  else if maxDigits < digits.length then .error .tooManyDigits
  else if Address.decimalValue digits ≤ 65535 then .ok (some (Address.decimalValue digits))
  else .error .portOutOfRange

/-! ## `urlunsplit` -/

/-- The schemes of `uses_netloc` that have a name. -/
def usesNetloc : List Text :=
  ["ftp", "http", "gopher", "nntp", "telnet", "imap", "wais", "file", "mms", "https", "shttp",
    "snews", "prospero", "rtsp", "rtsps", "rtspu", "rsync", "svn", "svn+ssh", "sftp", "nfs", "git",
    "git+ssh", "ws", "wss"].map Text.of

/-- `urlunsplit`. -/
def urlunsplit (parts : SplitResult) : Text :=
  let slashes : Text := [ofChar '/', ofChar '/']
  let url : Text :=
    if parts.netloc ≠ [] ∨ parts.scheme ∈ usesNetloc ∨ parts.path.take 2 = slashes then
      let path : Text := if parts.path ≠ [] ∧ parts.path.take 1 ≠ [ofChar '/'] then
          ofChar '/' :: parts.path else parts.path
      slashes ++ parts.netloc ++ path
    else parts.path
  let url : Text := if parts.scheme ≠ [] then parts.scheme ++ ofChar ':' :: url else url
  let url : Text := if parts.query ≠ [] then url ++ ofChar '?' :: parts.query else url
  if parts.fragment ≠ [] then url ++ ofChar '#' :: parts.fragment else url

/-! ## Lowering -/

namespace Unicode

variable (U : Unicode) {text : Text}

theorem lower_ascii (h : ∀ c ∈ text, c.isAscii = true) : U.lower text = Address.lowered text := by
  have hall : ∀ {text text' : Text}, Lowers U.nfkc text text' → (∀ c ∈ text, c.isAscii = true) →
      text' = Address.lowered text := by
    intro text text' hlowers
    induction hlowers with
    | nil => exact fun _ => rfl
    | cons hblock _ ih =>
        intro h
        rw [hblock.ascii (h _ List.mem_cons_self), ih fun c hc => h c (List.mem_cons_of_mem _ hc)]
        rfl
  exact hall (U.lowers text) h

theorem lower_eq_nil_iff : U.lower text = [] ↔ text = [] := by
  have hlowers := U.lowers text
  generalize U.lower text = text' at hlowers
  cases hlowers with
  | nil => exact iff_of_true rfl rfl
  | cons hblock _ => simp [hblock.ne_nil]

/-- Lowering goes on after ASCII characters as they were not there. -/
theorem lower_append {front : Text} (h : ∀ c ∈ front, c.isAscii = true) (rest : Text) :
    ∃ rest', U.lower (front ++ rest) = Address.lowered front ++ rest' ∧ (rest' = [] → rest = []) := by
  have hall : ∀ {front text' : Text}, Lowers U.nfkc (front ++ rest) text' →
      (∀ c ∈ front, c.isAscii = true) →
      ∃ rest', text' = Address.lowered front ++ rest' ∧ (rest' = [] → rest = []) := by
    intro front
    induction front with
    | nil =>
        intro text' hlowers _
        refine ⟨text', rfl, ?_⟩
        intro hnil
        rw [List.nil_append] at hlowers
        cases hlowers with
        | nil => rfl
        | cons hblock _ => exact absurd (List.append_eq_nil_iff.mp hnil).1 hblock.ne_nil
    | cons c front ih =>
        intro text' hlowers h
        cases hlowers with
        | cons hblock hlowers =>
            obtain ⟨rest', rfl, hrest⟩ := ih hlowers fun c hc => h c (List.mem_cons_of_mem _ hc)
            refine ⟨rest', ?_, hrest⟩
            rw [hblock.ascii (h c List.mem_cons_self)]
            rfl
  exact hall (U.lowers _) h

/-- A character of a lowered text is one of the text's, an ASCII lower case letter, or like
neither ASCII nor a delimiter. -/
theorem mem_lower {b : CodePoint} (h : b ∈ U.lower text) :
    (∃ c ∈ text, c.isAscii = true ∧ b = c.asciiLower) ∨
      (b ∈ text ∧ b.isAscii = false) ∨ (b.isLetter = true ∧ b.asciiLower = b) ∨
      (b.isAscii = false ∧ ∀ d ∈ delimiters, d ∉ U.nfkc [b]) := by
  have hlowers := U.lowers text
  generalize U.lower text = text' at h hlowers
  induction hlowers with
  | nil => cases h
  | @cons c block text text' hblock _ ih =>
      obtain hb | hb := List.mem_append.mp h
      · cases hc : c.isAscii with
        | true =>
            rw [hblock.ascii hc, List.mem_singleton] at hb
            exact .inl ⟨c, List.mem_cons_self, hc, hb⟩
        | false =>
            right
            obtain rfl | hb := hblock.other hc b hb
            · exact .inl ⟨List.mem_cons_self, hc⟩
            · exact .inr hb
      · obtain ⟨c, hc, h⟩ | ⟨hb, h⟩ | h := ih hb
        · exact .inl ⟨c, List.mem_cons_of_mem _ hc, h⟩
        · exact .inr (.inl ⟨List.mem_cons_of_mem _ hb, h⟩)
        · exact .inr (.inr h)

theorem asciiLower_mem_lower {c : CodePoint} (h : c ∈ text) (hc : c.isAscii = true) :
    c.asciiLower ∈ U.lower text := by
  have hlowers := U.lowers text
  generalize U.lower text = text' at hlowers
  induction hlowers with
  | nil => cases h
  | cons hblock _ ih =>
      obtain rfl | h := List.mem_cons.mp h
      · rw [hblock.ascii hc]
        exact List.mem_append_left _ (List.mem_singleton.mpr rfl)
      · exact List.mem_append_right _ (ih h)

/-- Lowering neither makes nor removes an ASCII character that is no letter. -/
theorem mem_lower_iff {d : Char} (hascii : (ofChar d).isAscii = true)
    (hletter : (ofChar d).isLetter = false) : ofChar d ∈ U.lower text ↔ ofChar d ∈ text := by
  constructor
  · intro h
    obtain ⟨c, hc, -, heq⟩ | ⟨-, hother⟩ | ⟨hother, -⟩ | ⟨hother, -⟩ := U.mem_lower h
    · rwa [(CodePoint.asciiLower_eq_ofChar_iff hletter).mp heq.symm] at hc
    · rw [hascii] at hother
      cases hother
    · rw [hletter] at hother
      cases hother
    · rw [hascii] at hother
      cases hother
  · intro h
    have := U.asciiLower_mem_lower h hascii
    rwa [(CodePoint.asciiLower_eq_ofChar_iff hletter).mpr rfl] at this

end Unicode

/-! ## Joining and splitting -/

/-- A part after its separator, where there is one. -/
def joined (separator : CodePoint) (part : Text) : Text :=
  if part = [] then [] else separator :: part

section Joined

variable {separator : CodePoint} {front : Text}

theorem before_append_joined (h : separator ∉ front) (part : Text) :
    Text.before separator (front ++ joined separator part) = front := by
  unfold joined
  split
  · rw [List.append_nil, Text.before_eq_self h]
  · exact Text.before_append_cons h

theorem after_append_joined (h : separator ∉ front) (part : Text) :
    Text.after separator (front ++ joined separator part) = part := by
  unfold joined
  split
  · rename_i hpart
    rw [List.append_nil, Text.after_eq_nil h, hpart]
  · exact Text.after_append_cons h

theorem mem_joined {c : CodePoint} {part : Text} (h : c ∈ joined separator part) :
    c = separator ∨ c ∈ part := by
  unfold joined at h
  split at h
  · cases h
  · exact List.mem_cons.mp h

end Joined

/-- The parts of a URL with an authority, as `urlsplit` makes them. -/
structure WellFormed (parts : SplitResult) : Prop where
  scheme : parts.scheme.head?.any CodePoint.isLetter = true
  schemeChars : ∀ c ∈ parts.scheme, isSchemeChar c = true
  netloc_ne : parts.netloc ≠ []
  netloc : ∀ c ∈ parts.netloc, isNetlocEnd c = false
  path_head : parts.path = [] ∨ parts.path.head? = some (ofChar '/')
  path_query : ofChar '?' ∉ parts.path
  path_fragment : ofChar '#' ∉ parts.path
  query : ofChar '#' ∉ parts.query
  safe : ∀ c ∈ parts.scheme ++ parts.netloc ++ parts.path ++ parts.query ++ parts.fragment,
    c ∉ unsafeBytes

/-- What is after the authority. -/
def SplitResult.tail (parts : SplitResult) : Text :=
  parts.path ++ joined (ofChar '?') parts.query ++ joined (ofChar '#') parts.fragment

/-- What `urlsplit` checks of an authority. -/
def checkAuthority (U : Unicode) (netloc : Text) : Except UrlError Unit := do
  checkBrackets netloc
  checkNetloc U netloc

section WellFormed

variable {parts : SplitResult}

theorem WellFormed.scheme_ne (h : WellFormed parts) : parts.scheme ≠ [] := by
  intro hnil
  have := h.scheme
  rw [hnil] at this
  cases this

theorem WellFormed.urlunsplit_eq (h : WellFormed parts) :
    urlunsplit parts =
      parts.scheme ++ ofChar ':' :: ofChar '/' :: ofChar '/' :: (parts.netloc ++ parts.tail) := by
  have hpath : ¬ (parts.path ≠ [] ∧ parts.path.take 1 ≠ [ofChar '/']) := by
    intro ⟨hne, hslash⟩
    obtain ⟨c, rest, hparts⟩ := List.exists_cons_of_ne_nil hne
    obtain hnil | hhead := h.path_head
    · exact hne hnil
    · rw [hparts, List.head?_cons, Option.some.injEq] at hhead
      rw [hparts, hhead] at hslash
      exact hslash rfl
  unfold urlunsplit SplitResult.tail joined
  simp only [ne_eq, h.netloc_ne, not_false_eq_true, true_or, if_true, if_neg hpath, h.scheme_ne]
  by_cases hquery : parts.query = [] <;> by_cases hfragment : parts.fragment = [] <;>
    simp [hquery, hfragment]

/-- A scheme has no colon in it. -/
theorem not_mem_of_isSchemeChar {scheme : Text} (h : ∀ c ∈ scheme, isSchemeChar c = true) :
    ofChar ':' ∉ scheme := fun hmem => absurd (h _ hmem) (by decide)

/-- The joined URL has nothing that is taken out of it before it is split. -/
theorem WellFormed.prepared_urlunsplit (h : WellFormed parts) :
    prepared (urlunsplit parts) = urlunsplit parts := by
  have hsafe : ∀ c ∈ urlunsplit parts, c ∉ unsafeBytes := by
    intro c hc
    have hseparator : ∀ d ∈ [':', '/', '?', '#'].map ofChar, d ∉ unsafeBytes := by
      simp [unsafeBytes]
    rw [h.urlunsplit_eq, SplitResult.tail] at hc
    have hparts := h.safe c
    simp only [List.mem_append, List.mem_cons] at hc hparts
    obtain hc | rfl | rfl | rfl | hc | (hc | hc) | hc := hc
    · exact hparts (.inl (.inl (.inl (.inl hc))))
    · exact hseparator _ (by simp)
    · exact hseparator _ (by simp)
    · exact hseparator _ (by simp)
    · exact hparts (.inl (.inl (.inl (.inr hc))))
    · exact hparts (.inl (.inl (.inr hc)))
    · obtain rfl | hc := mem_joined hc
      · exact hseparator _ (by simp)
      · exact hparts (.inl (.inr hc))
    · obtain rfl | hc := mem_joined hc
      · exact hseparator _ (by simp)
      · exact hparts (.inr hc)
  have hfirst : (urlunsplit parts).dropWhile (fun c => c ≤ ofChar ' ') = urlunsplit parts := by
    obtain ⟨c, rest, hscheme⟩ := List.exists_cons_of_ne_nil h.scheme_ne
    have hletter : c.isLetter = true := by
      have := h.scheme
      rwa [hscheme, List.head?_cons, Option.any_some] at this
    rw [h.urlunsplit_eq, hscheme, List.cons_append]
    apply List.dropWhile_cons_of_neg
    simp only [CodePoint.isLetter, ofChar, Char.reduceToNat, Fin.le_def, decide_eq_true_eq]
      at hletter ⊢
    omega
  rw [prepared, hfirst, List.filter_eq_self]
  exact fun c hc => decide_eq_true (hsafe c hc)

theorem WellFormed.splitScheme_urlunsplit (U : Unicode) (h : WellFormed parts) :
    splitScheme U (urlunsplit parts) =
      (U.lower parts.scheme, ofChar '/' :: ofChar '/' :: (parts.netloc ++ parts.tail)) := by
  rw [h.urlunsplit_eq]
  have hcolon := not_mem_of_isSchemeChar h.schemeChars
  have hscheme : HasScheme (parts.scheme ++
      ofChar ':' :: ofChar '/' :: ofChar '/' :: (parts.netloc ++ parts.tail)) := by
    unfold HasScheme
    rw [Text.before_append_cons hcolon]
    exact ⟨List.mem_append_right _ List.mem_cons_self, h.scheme, h.schemeChars⟩
  rw [splitScheme, if_pos hscheme, Text.before_append_cons hcolon, Text.after_append_cons hcolon]

/-- What is after the authority does not continue it. -/
theorem WellFormed.head_tail (h : WellFormed parts) :
    ∀ c ∈ parts.tail.head?, isNetlocEnd c = true := by
  have hjoined : ∀ separator part, isNetlocEnd separator = true → ∀ c ∈ (joined separator part).head?,
      isNetlocEnd c = true := by
    intro separator part hseparator c hc
    unfold joined at hc
    split at hc
    · cases hc
    · rwa [← Option.some.inj hc]
  intro c hc
  unfold SplitResult.tail at hc
  rw [List.append_assoc, List.head?_append] at hc
  obtain hpath | hpath := h.path_head
  · rw [hpath, List.head?_nil, Option.none_or, List.head?_append] at hc
    cases hquery : (joined (ofChar '?') parts.query).head? with
    | none =>
        rw [hquery, Option.none_or] at hc
        exact hjoined _ _ (by decide) c hc
    | some d =>
        rw [hquery, Option.some_or] at hc
        exact hjoined _ _ (by decide) c (hquery.trans hc)
  · rw [hpath, Option.some_or] at hc
    rw [← Option.some.inj hc]
    decide

theorem WellFormed.splitNetloc_eq (h : WellFormed parts) :
    splitNetloc (ofChar '/' :: ofChar '/' :: (parts.netloc ++ parts.tail)) =
      (parts.netloc, parts.tail) := by
  have hnetloc : ∀ c ∈ parts.netloc, (!isNetlocEnd c) = true := by
    intro c hc
    rw [h.netloc c hc]
    rfl
  have htail : parts.tail.takeWhile (fun c => !isNetlocEnd c) = [] ∧
      parts.tail.dropWhile (fun c => !isNetlocEnd c) = parts.tail := by
    have hhead := h.head_tail
    cases htail : parts.tail with
    | nil => exact ⟨rfl, rfl⟩
    | cons c rest =>
        have hc : isNetlocEnd c = true := hhead c (by rw [htail]; rfl)
        exact ⟨List.takeWhile_cons_of_neg (by simp [hc]), List.dropWhile_cons_of_neg (by simp [hc])⟩
  have htake : List.take 2 (ofChar '/' :: ofChar '/' :: (parts.netloc ++ parts.tail)) =
      [ofChar '/', ofChar '/'] := rfl
  rw [splitNetloc, if_pos htake]
  simp only [List.drop_succ_cons, List.drop_zero]
  rw [List.takeWhile_append_of_pos hnetloc, List.dropWhile_append_of_pos hnetloc, htail.1, htail.2,
    List.append_nil]

/-- **Joining is undone by splitting**, where the checks let the authority through. -/
theorem urlsplit_urlunsplit (U : Unicode) (h : WellFormed parts)
    (hlower : U.lower parts.scheme = parts.scheme) :
    urlsplit U (urlunsplit parts) = (do
      checkAuthority U parts.netloc
      return parts) := by
  have hfragment : ofChar '#' ∉ parts.path ++ joined (ofChar '?') parts.query := by
    intro hmem
    obtain hmem | hmem := List.mem_append.mp hmem
    · exact h.path_fragment hmem
    · obtain heq | hmem := mem_joined hmem
      · exact absurd heq (by decide)
      · exact h.query hmem
  unfold urlsplit checkAuthority
  rw [h.prepared_urlunsplit, h.splitScheme_urlunsplit U]
  simp only [h.splitNetloc_eq]
  simp only [SplitResult.tail, before_append_joined hfragment, after_append_joined hfragment,
    before_append_joined h.path_query, after_append_joined h.path_query, hlower, bind_assoc]

end WellFormed

/-! ## What splitting gives -/

/-- The parts of a URL before they are checked. -/
def parts (U : Unicode) (url : Text) : SplitResult :=
  let rest := (splitNetloc (splitScheme U (prepared url)).2).2
  { scheme := (splitScheme U (prepared url)).1
    netloc := (splitNetloc (splitScheme U (prepared url)).2).1
    path := (rest.before (ofChar '#')).before (ofChar '?')
    query := (rest.before (ofChar '#')).after (ofChar '?')
    fragment := rest.after (ofChar '#') }

theorem urlsplit_eq (U : Unicode) (url : Text) :
    urlsplit U url = (do
      checkAuthority U (parts U url).netloc
      return parts U url) := by
  unfold urlsplit checkAuthority
  rw [bind_assoc]
  rfl

theorem urlsplit_eq_ok_iff {U : Unicode} {url : Text} {parsed : SplitResult} :
    urlsplit U url = .ok parsed ↔
      checkAuthority U (parts U url).netloc = .ok () ∧ parts U url = parsed := by
  rw [urlsplit_eq]
  cases checkAuthority U (parts U url).netloc with
  | error e => simp [bind, Except.bind]
  | ok _ => simp [bind, Except.bind, pure, Except.pure]

section Split

variable {U : Unicode} {url : Text}

theorem not_unsafe_of_mem_prepared {c : CodePoint} (h : c ∈ prepared url) : c ∉ unsafeBytes := by
  unfold prepared at h
  simpa using (List.mem_filter.mp h).2

theorem isSchemeChar_asciiLower {c : CodePoint} (h : isSchemeChar c = true) :
    c.isAscii = true ∧ isSchemeChar c.asciiLower = true := by
  have hval := c.val_asciiLower
  simp only [isSchemeChar, CodePoint.isLetter, CodePoint.isDigit, CodePoint.isAscii, ofChar,
    Char.reduceToNat, Fin.le_def, List.map_cons, List.map_nil, List.mem_cons, List.not_mem_nil,
    or_false, Fin.ext_iff, decide_eq_true_eq] at h ⊢
  omega

theorem not_unsafe_of_isSchemeChar {c : CodePoint} (h : isSchemeChar c = true) :
    c ∉ unsafeBytes := by
  simp only [isSchemeChar, unsafeBytes, CodePoint.isLetter, CodePoint.isDigit, ofChar,
    Char.reduceToNat, Fin.le_def, List.map_cons, List.map_nil, List.mem_cons, List.not_mem_nil,
    or_false, Fin.ext_iff, decide_eq_true_eq] at h ⊢
  omega

/-- A scheme that was found is in lower case and of scheme characters. -/
theorem scheme_parts (h : (parts U url).scheme ≠ []) :
    (parts U url).scheme.head?.any CodePoint.isLetter = true ∧
      ∀ c ∈ (parts U url).scheme, isSchemeChar c = true := by
  have hscheme : (parts U url).scheme = (splitScheme U (prepared url)).1 := rfl
  rw [hscheme] at h ⊢
  unfold splitScheme at h ⊢
  split at h
  · rename_i hhas
    rw [if_pos hhas]
    obtain ⟨-, hhead, hchars⟩ := hhas
    have hlower := U.lower_ascii fun c hc => (isSchemeChar_asciiLower (hchars c hc)).1
    dsimp only
    rw [hlower]
    constructor
    · cases hname : Text.before (ofChar ':') (prepared url) with
      | nil => rw [hname] at hhead; cases hhead
      | cons c rest =>
          rw [hname, List.head?_cons, Option.any_some] at hhead
          exact (CodePoint.isLetter_asciiLower c).trans hhead
    · intro c hc
      obtain ⟨d, hd, rfl⟩ := List.mem_map.mp hc
      exact (isSchemeChar_asciiLower (hchars d hd)).2
  · exact absurd rfl h

theorem lower_scheme_parts : U.lower (parts U url).scheme = (parts U url).scheme := by
  have hscheme : (parts U url).scheme = (splitScheme U (prepared url)).1 := rfl
  rw [hscheme]
  unfold splitScheme
  split
  · exact U.lower_lower _
  · exact U.lower_eq_nil_iff.mpr rfl

/-- What is after the scheme is of the URL. -/
theorem mem_prepared_of_mem_rest {c : CodePoint} (h : c ∈ (splitScheme U (prepared url)).2) :
    c ∈ prepared url := by
  unfold splitScheme at h
  split at h
  · exact Text.mem_of_mem_after h
  · exact h

theorem mem_of_mem_splitNetloc {c : CodePoint} {rest : Text}
    (h : c ∈ (splitNetloc rest).1 ∨ c ∈ (splitNetloc rest).2) : c ∈ rest := by
  unfold splitNetloc at h
  split at h
  · obtain h | h := h
    · exact List.mem_of_mem_drop ((List.takeWhile_prefix _).subset h)
    · exact List.mem_of_mem_drop ((List.dropWhile_suffix _).subset h)
  · obtain h | h := h
    · cases h
    · exact h

theorem netloc_splitNetloc {rest : Text} : ∀ c ∈ (splitNetloc rest).1, isNetlocEnd c = false := by
  intro c hc
  unfold splitNetloc at hc
  split at hc
  · simpa using List.mem_takeWhile_imp hc
  · cases hc

/-- What follows an authority begins with a delimiter. -/
theorem head_splitNetloc {rest : Text} (h : (splitNetloc rest).1 ≠ []) :
    ∀ c ∈ (splitNetloc rest).2.head?, isNetlocEnd c = true := by
  intro c hc
  unfold splitNetloc at h hc
  split at h
  · rename_i hslashes
    rw [if_pos hslashes] at hc
    have hhead := List.head?_dropWhile_not (fun c => !isNetlocEnd c) (rest.drop 2)
    rw [hc] at hhead
    simpa using hhead
  · exact absurd rfl h

theorem path_head_of_rest {rest : Text} (h : ∀ c ∈ rest.head?, isNetlocEnd c = true) :
    Text.before (ofChar '?') (rest.before (ofChar '#')) = [] ∨
      (Text.before (ofChar '?') (rest.before (ofChar '#'))).head? = some (ofChar '/') := by
  cases rest with
  | nil => exact .inl rfl
  | cons c rest =>
      have hc : c ∈ ['/', '?', '#'].map ofChar := of_decide_eq_true (h c rfl)
      simp only [List.map_cons, List.map_nil, List.mem_cons, List.not_mem_nil, or_false] at hc
      obtain rfl | rfl | rfl := hc
      · right
        simp [Text.before]
      · left
        simp [Text.before]
      · left
        simp [Text.before]

/-- The parts of a URL that has a scheme and an authority are well formed. -/
theorem wellFormed_parts (hscheme : (parts U url).scheme ≠ []) (hnetloc : (parts U url).netloc ≠ []) :
    WellFormed (parts U url) := by
  obtain ⟨hhead, hchars⟩ := scheme_parts hscheme
  have hsub : ∀ c, c ∈ (splitNetloc (splitScheme U (prepared url)).2).1 ∨
      c ∈ (splitNetloc (splitScheme U (prepared url)).2).2 → c ∉ unsafeBytes :=
    fun c hc => not_unsafe_of_mem_prepared (mem_prepared_of_mem_rest (mem_of_mem_splitNetloc hc))
  refine ⟨hhead, hchars, hnetloc, ?_, ?_, ?_, ?_, ?_, ?_⟩
  · exact netloc_splitNetloc
  · exact path_head_of_rest (head_splitNetloc hnetloc)
  · exact Text.not_mem_before _ _
  · exact fun hmem => Text.not_mem_before _ _ (Text.mem_of_mem_before hmem)
  · exact fun hmem => Text.not_mem_before _ _ (Text.mem_of_mem_after hmem)
  · intro c hc
    simp only [List.mem_append] at hc
    obtain (((hc | hc) | hc) | hc) | hc := hc
    · exact not_unsafe_of_isSchemeChar (hchars c hc)
    · exact hsub c (.inl hc)
    · exact hsub c (.inr (Text.mem_of_mem_before (Text.mem_of_mem_before hc)))
    · exact hsub c (.inr (Text.mem_of_mem_before (Text.mem_of_mem_after hc)))
    · exact hsub c (.inr (Text.mem_of_mem_after hc))

end Split

end Url

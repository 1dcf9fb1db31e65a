import UltimateBBSBox.Archive.Values

/-!
# Update discovery

`parse_github_release` and `check_updates` of `AmiExpressAmigaIntegration` on any JSON
document.  The walk through the document takes for granted that it meets objects
(`Walkable`); where it does not, what it raises is not among the exceptions that
`check_updates` catches.

Of `str` and `lower` only this matters: nothing but a text ends in `.lha`, and no
character but an ASCII letter has a letter of `.lha` or a hexadecimal digit as its lower
case.
-/

namespace UltimateBBSBox.Integrations

open Archive

/-- The exceptions of the integrations, and those of the libraries. -/
inductive Exn
  | artifactRequiredError (message : Text)
  | library (e : Archive.Exn)

/-- A computation of the libraries. -/
def ofLibrary {α : Type} : Except Archive.Exn α → Except Exn α
  | .ok a => .ok a
  | .error e => .error (.library e)

/-- `if condition: raise ArtifactRequiredError(message)`. -/
def refuse (condition : Bool) (message : String) : Except Exn Unit :=
  if condition then .error (.artifactRequiredError (.of message)) else .ok ()

theorem ofLibrary_eq_ok {α : Type} {read : Except Archive.Exn α} {a : α} :
    ofLibrary read = .ok a ↔ read = .ok a := by
  cases read with
  | ok b => simp [ofLibrary]
  | error e => simp [ofLibrary]

@[simp] theorem refuse_eq_ok {condition : Bool} {message : String} :
    refuse condition message = .ok () ↔ condition = false := by
  cases condition <;> simp [refuse]

/-! ## `parse_github_release` -/

/-- What `parse_github_release` returns. -/
structure Discovered where
  tag : Text
  sourceCommit : Text
  filename : Text
  sourceUrl : Value
  githubDigest : Text
  size : Value
  publishedAt : Value
  upstreamUpdatedAt : Value
  releaseUrl : Value
  prerelease : Bool
  releaseId : Value

/-- `str(name).lower().endswith(".lha")`. -/
def endsInLha (name : Value) : Bool :=
  match name with
  | .text name => (Text.of ".lha").isSuffixOf (name.map CodePoint.asciiLower)
  | _ => false

/-- The assets whose names end in `.lha`. -/
def lhaAssets : List Value → Except Archive.Exn (List Value)
  | [] => .ok []
  | item :: rest => do
      let name ← item.get "name" (.text [])
      let others ← lhaAssets rest
      return if endsInLha name then item :: others else others

/-- `text.removeprefix(start)`. -/
def removePrefix (start text : Text) : Text :=
  if start.isPrefixOf text then text.drop start.length else text

/-- `text.removesuffix(ending)`, of an ending that is not empty. -/
def removeSuffix (ending text : Text) : Text :=
  if ending.isSuffixOf text then text.take (text.length - ending.length) else text

/-- The commit that the name of an asset carries. -/
def commitOf (name : Text) : Text :=
  removeSuffix (.of ".lha") (removePrefix (.of "amiExpress-nightly") name)

/-- The test of the commit: 40 hexadecimal digits. -/
def isCommit (commit : Text) : Bool :=
  commit.length = 40 ∧ ∀ c ∈ commit, c.asciiLower ∈ Text.of "0123456789abcdef"

/-- The test of the digest: its start and its length. -/
def hasDigestShape (digest : Text) : Bool :=
  (Text.of "sha256:").isPrefixOf digest ∧ digest.length = 71

/-- The tests of the digest. -/
def digestOf (digest : Value) : Except Exn Text :=
  match digest with
  | .text digest => do
      refuse (hasDigestShape digest = false) "GitHub dev-build asset lacks a valid SHA-256 digest"
      return digest
  | _ => .error (.artifactRequiredError (.of "GitHub dev-build asset lacks a valid SHA-256 digest"))

/-- What `parse_github_release` makes of the only asset. -/
def parseAsset (document asset : Value) : Except Exn Discovered := do
  let digest ← digestOf (← ofLibrary (asset.get "digest" (.text [])))
  let name ← ofLibrary (asset.item "name" >>= Value.toText)
  refuse (isCommit (commitOf name) = false)
    "dev-build asset does not carry a verifiable 40-character commit identity"
  let sourceUrl ← ofLibrary (asset.get "browser_download_url" .null)
  let size ← ofLibrary (asset.get "size" .null)
  let publishedAt ← ofLibrary (document.get "published_at" .null)
  let updatedAt ← ofLibrary (document.get "updated_at" .null)
  let releaseUrl ← ofLibrary (document.get "html_url" .null)
  let releaseId ← ofLibrary (document.get "id" .null)
  return {
    tag := .of "dev-build"
    sourceCommit := commitOf name
    filename := name
    sourceUrl := sourceUrl
    githubDigest := digest
    size := size
    publishedAt := publishedAt
    upstreamUpdatedAt := updatedAt
    releaseUrl := releaseUrl
    prerelease := true
    releaseId := releaseId }

/-- `parse_github_release`. -/
def parseGithubRelease (document : Value) : Except Exn Discovered := do
  let tag ← ofLibrary (document.get "tag_name" .null)
  let draft ← ofLibrary (document.get "draft" .null)
  let prerelease ← ofLibrary (document.get "prerelease" .null)
  refuse (tag.isText (.of "dev-build") = false ∨ draft.truthy ∨ prerelease.truthy = false)
    "GitHub metadata is not the expected published dev-build prerelease"
  let items ← ofLibrary (document.get "assets" (.array []) >>= Value.elements)
  match ← ofLibrary (lhaAssets items) with
  | [asset] => parseAsset document asset
  | _ => .error (.artifactRequiredError (.of "GitHub dev-build must contain exactly one LHA asset"))

/-! ## `check_updates` -/

/-- The statuses of `check_updates`. -/
inductive UpdateStatus | noChange | digestMismatch | newBuildAvailable | invalidUpstreamMetadata
deriving DecidableEq

/-- `source_commit` of the current release. -/
def currentCommit : Text := .of "0f344713f30da7b6a4629643e32b50094cb2bd0b"

/-- `github_digest` of the current release. -/
def currentDigest : Text :=
  .of "sha256:23459a56b086a28f9cad1da59691f0867c2e15f16bc37417723fd10207e42533"

/-- `OSError`, `ValueError` and their subclasses. -/
def isCaught : Archive.Exn → Bool
  | .foreign .osError | .foreign .fileExistsError | .foreign .valueError
  | .foreign .unicodeDecodeError | .foreign .unicodeEncodeError => true
  | _ => false

/-- The document that is looked at: without one, what the request for it comes to. -/
def examined (fetched : Except Archive.Exn Value) (document : Value) : Except Archive.Exn Value :=
  match document with
  | .null => fetched
  | document => .ok document

/-- How a release compares with the current one. -/
def compare (discovered : Discovered) : UpdateStatus :=
  if discovered.sourceCommit = currentCommit ∧ discovered.githubDigest ≠ currentDigest then
    .digestMismatch
  else if discovered.sourceCommit = currentCommit ∧ discovered.githubDigest = currentDigest then .noChange
  else .newBuildAvailable

/-- `check_updates`. -/
def checkUpdates (fetched : Except Archive.Exn Value) (document : Value) :
    Except Archive.Exn (UpdateStatus × Option Discovered) :=
  match ofLibrary (examined fetched document) >>= parseGithubRelease with
  | .ok discovered => .ok (compare discovered, some discovered)
  | .error (.artifactRequiredError _) => .ok (.invalidUpstreamMetadata, none)
  | .error (.library e) => if isCaught e then .ok (.invalidUpstreamMetadata, none) else .error e

/-! ## What a document offers -/

/-- A published dev-build prerelease. -/
def Published (document : Value) : Prop :=
  ∃ fields : Fields, document = .object fields ∧
    ((fields.get? "tag_name").getD .null).isText (.of "dev-build") = true ∧
    ((fields.get? "draft").getD .null).truthy = false ∧
    ((fields.get? "prerelease").getD .null).truthy = true

/-- The assets of a document, if they can be walked through. -/
def assetsOf (document : Value) : Except Archive.Exn (List Value) :=
  document.get "assets" (.array []) >>= Value.elements

/-- The name of an asset ends in `.lha`. -/
def isLha (asset : Fields) : Bool := endsInLha ((asset.get? "name").getD (.text []))

/-- A published dev-build prerelease with exactly one `.lha` asset, of this commit and digest. -/
def Offers (document : Value) (commit digest : Text) : Prop :=
  Published document ∧ ∃ (items : List Fields) (asset : Fields) (name : Text),
    assetsOf document = .ok (items.map .object) ∧ items.filter isLha = [asset] ∧
    asset.get? "name" = some (.text name) ∧ commit = commitOf name ∧
    asset.get? "digest" = some (.text digest)

/-- 40 hexadecimal digits. -/
def CommitHex (commit : Text) : Prop := commit.length = 40 ∧ ∀ c ∈ commit, c.isHex = true

/-- `sha256:` and 64 hexadecimal digits. -/
def DigestHex (digest : Text) : Prop :=
  ∃ hex : Text, digest = .of "sha256:" ++ hex ∧ hex.length = 64 ∧ ∀ c ∈ hex, c.isHex = true

/-- What a result has to say of a document. -/
structure Tolerates (document : Value) (status : UpdateStatus) : Prop where
  noChange : status = .noChange ↔ Offers document currentCommit currentDigest
  mismatch : status = .digestMismatch ↔
    ∃ digest, Offers document currentCommit digest ∧ DigestHex digest ∧ digest ≠ currentDigest
  newBuild : status = .newBuildAvailable →
    ∃ commit digest, Offers document commit digest ∧ CommitHex commit ∧ DigestHex digest

/-- The walk meets objects only: the document is one, and if it is published, its assets are a list
of objects or empty. -/
def Walkable (document : Value) : Prop :=
  (∃ fields, document = .object fields) ∧
    (Published document → ∃ items : List Fields, assetsOf document = .ok (items.map .object))

/-- No digest of the length has other digits than hexadecimal ones where the commit has its form. -/
def DigestsHex (document : Value) : Prop :=
  ∀ commit digest, Offers document commit digest → CommitHex commit →
    hasDigestShape digest = true → DigestHex digest

section Parsing

variable {document : Value} {fields : Fields} {commit digest : Text} {items : List Fields}

theorem mem_hexDigits_iff (c : CodePoint) :
    c.asciiLower ∈ Text.of "0123456789abcdef" ↔ c.isHex = true := by
  have hval := CodePoint.val_asciiLower c
  have hdigits : "0123456789abcdef".toList =
      ['0', '1', '2', '3', '4', '5', '6', '7', '8', '9', 'a', 'b', 'c', 'd', 'e', 'f'] := by decide
  unfold Text.of
  rw [hdigits]
  simp only [CodePoint.isHex, CodePoint.isDigit, CodePoint.ofChar, Char.reduceToNat, Fin.le_def,
    decide_eq_true_eq, List.map_cons, List.map_nil, List.mem_cons, List.not_mem_nil, or_false,
    Fin.ext_iff]
  omega

theorem isCommit_iff : isCommit commit = true ↔ CommitHex commit := by
  simp [isCommit, CommitHex, mem_hexDigits_iff]

/-- A digest with hexadecimal digits has the shape that is tested. -/
theorem hasDigestShape_of_hex (h : DigestHex digest) : hasDigestShape digest = true := by
  obtain ⟨hex, rfl, hlength, -⟩ := h
  unfold hasDigestShape
  rw [decide_eq_true_eq, List.isPrefixOf_iff_prefix]
  refine ⟨List.prefix_append _ _, ?_⟩
  rw [List.length_append, hlength]
  rfl

theorem offers_unique {commit' digest' : Text} (h : Offers document commit digest)
    (h' : Offers document commit' digest') : commit = commit' ∧ digest = digest' := by
  obtain ⟨-, items, asset, name, hitems, hasset, hname, rfl, hdigest⟩ := h
  obtain ⟨-, items', asset', name', hitems', hasset', hname', rfl, hdigest'⟩ := h'
  have hsame : items = items' := by
    have heq := Except.ok.inj (hitems.symm.trans hitems')
    exact List.map_injective_iff.mpr (fun _ _ => Value.object.inj) heq
  subst hsame
  obtain rfl : asset = asset' := List.singleton_injective (hasset.symm.trans hasset')
  rw [hname, Option.some.injEq, Value.text.injEq] at hname'
  rw [hdigest, Option.some.injEq, Value.text.injEq] at hdigest'
  exact ⟨by rw [hname'], hdigest'⟩

theorem lhaAssets_objects (items : List Fields) :
    lhaAssets (items.map .object) = .ok ((items.filter isLha).map .object) := by
  induction items with
  | nil => rfl
  | cons item rest ih =>
      rw [List.map_cons]
      unfold lhaAssets
      rw [ih]
      cases hlha : isLha item with
      | true =>
          have hname : endsInLha ((item.get? "name").getD (.text [])) = true := hlha
          rw [List.filter_cons_of_pos hlha]
          simp only [Value.get, bind, Except.bind, hname, if_true]
          rfl
      | false =>
          have hname : endsInLha ((item.get? "name").getD (.text [])) = false := hlha
          rw [List.filter_cons_of_neg (by simp [hlha])]
          simp only [Value.get, bind, Except.bind, hname, Bool.false_eq_true, if_false]
          rfl

/-- An asset whose name ends in `.lha` has a name. -/
theorem name_of_isLha {asset : Fields} (h : isLha asset = true) :
    ∃ name, asset.get? "name" = some (.text name) := by
  unfold isLha at h
  cases hname : asset.get? "name" with
  | none =>
      rw [hname] at h
      simp [endsInLha, Text.of] at h
  | some value =>
      rw [hname, Option.getD_some] at h
      cases value with
      | text name => exact ⟨name, rfl⟩
      | null => cases h
      | bool _ => cases h
      | number _ => cases h
      | array _ => cases h
      | object _ => cases h

/-- The only asset gives a release exactly if its digest and its commit have their forms. -/
theorem parseAsset_cases {asset : Fields} {name : Text} (hname : asset.get? "name" = some (.text name)) :
    (∃ message, parseAsset (.object fields) (.object asset) = .error (.artifactRequiredError message) ∧
      ∀ digest, asset.get? "digest" = some (.text digest) → hasDigestShape digest = true →
        ¬CommitHex (commitOf name)) ∨
    ∃ discovered, parseAsset (.object fields) (.object asset) = .ok discovered ∧
      asset.get? "digest" = some (.text discovered.githubDigest) ∧
      discovered.sourceCommit = commitOf name ∧ CommitHex (commitOf name) ∧
      hasDigestShape discovered.githubDigest = true := by
  have hitem : (Value.object asset).item "name" >>= Value.toText = .ok name := by
    simp only [Value.item, Fields.item, hname, bind, Except.bind, Value.toText]
  have hparse : parseAsset (.object fields) (.object asset) =
      digestOf ((asset.get? "digest").getD (.text [])) >>= fun digest =>
        refuse (isCommit (commitOf name) = false)
          "dev-build asset does not carry a verifiable 40-character commit identity" >>= fun _ => .ok {
            tag := .of "dev-build"
            sourceCommit := commitOf name
            filename := name
            sourceUrl := (asset.get? "browser_download_url").getD .null
            githubDigest := digest
            size := (asset.get? "size").getD .null
            publishedAt := (fields.get? "published_at").getD .null
            upstreamUpdatedAt := (fields.get? "updated_at").getD .null
            releaseUrl := (fields.get? "html_url").getD .null
            prerelease := true
            releaseId := (fields.get? "id").getD .null } := by
    unfold parseAsset
    rw [hitem]
    rfl
  rw [hparse]
  -- the digest is checked first, and only then the commit
  by_cases hdigest : ∃ digest, asset.get? "digest" = some (.text digest) ∧ hasDigestShape digest = true
  · obtain ⟨digest, hget, hshape⟩ := hdigest
    have hok : digestOf ((asset.get? "digest").getD (.text [])) = .ok digest := by
      rw [hget]
      simp [digestOf, hshape, refuse, bind, Except.bind, pure, Except.pure]
    rw [hok]
    by_cases hcommit : CommitHex (commitOf name)
    · have hpassed : isCommit (commitOf name) = true := isCommit_iff.mpr hcommit
      refine .inr ?_
      simp only [hpassed, refuse, bind, Except.bind, Bool.true_eq_false, decide_false, Bool.false_eq_true,
        if_false]
      exact ⟨_, rfl, hget, rfl, hcommit, hshape⟩
    · have hrefused : isCommit (commitOf name) = false := by
        rw [← Bool.not_eq_true, isCommit_iff]
        exact hcommit
      refine .inl ?_
      simp only [hrefused, refuse, bind, Except.bind, decide_true, if_true]
      exact ⟨_, rfl, fun _ _ _ => hcommit⟩
  · have hrefused : digestOf ((asset.get? "digest").getD (.text [])) = .error (.artifactRequiredError
        (.of "GitHub dev-build asset lacks a valid SHA-256 digest")) := by
      cases hget : asset.get? "digest" with
      | none => rfl
      | some value =>
          -- what is no text is refused like a text of another form
          cases value with
          | text digest =>
              have hshape : hasDigestShape digest = false := by
                rw [← Bool.not_eq_true]
                exact fun hshape => hdigest ⟨digest, hget, hshape⟩
              simp [digestOf, hshape, refuse, bind, Except.bind]
          | null => rfl
          | bool _ => rfl
          | number _ => rfl
          | array _ => rfl
          | object _ => rfl
    rw [hrefused]
    refine .inl ⟨_, rfl, ?_⟩
    intro digest hget hshape
    exact absurd ⟨digest, hget, hshape⟩ hdigest

/-- What is no published prerelease is refused. -/
theorem parse_of_unpublished (h : ¬Published (.object fields)) :
    ∃ message, parseGithubRelease (.object fields) = .error (.artifactRequiredError message) := by
  refine ⟨.of "GitHub metadata is not the expected published dev-build prerelease", ?_⟩
  have hcondition : (((fields.get? "tag_name").getD .null).isText (.of "dev-build") = false ∨
      ((fields.get? "draft").getD .null).truthy = true ∨
      ((fields.get? "prerelease").getD .null).truthy = false) := by
    by_contra hnot
    simp only [not_or, Bool.not_eq_false, Bool.not_eq_true] at hnot
    exact h ⟨fields, rfl, hnot⟩
  unfold parseGithubRelease
  simp only [Value.get, ofLibrary, bind, Except.bind, hcondition, decide_true]
  rfl

/-- What is one goes on to its assets. -/
theorem parse_of_published (h : Published (.object fields)) :
    parseGithubRelease (.object fields) =
      ofLibrary (assetsOf (.object fields)) >>= fun items => ofLibrary (lhaAssets items) >>= fun found =>
        match found with
        | [asset] => parseAsset (.object fields) asset
        | _ => .error (.artifactRequiredError (.of "GitHub dev-build must contain exactly one LHA asset")) := by
  obtain ⟨fields', heq, htag, hdraft, hprerelease⟩ := h
  obtain rfl := Value.object.inj heq
  unfold parseGithubRelease
  simp only [Value.get, ofLibrary, bind, Except.bind, htag, hdraft, hprerelease]
  rfl

/-- A published prerelease that can be walked through gives a release exactly if it offers one whose
commit and digest have their forms. -/
theorem parse_of_walkable (h : Walkable document) :
    (∃ message, parseGithubRelease document = .error (.artifactRequiredError message) ∧
      ∀ commit digest, Offers document commit digest → hasDigestShape digest = true →
        ¬CommitHex commit) ∨
    ∃ discovered, parseGithubRelease document = .ok discovered ∧
      Offers document discovered.sourceCommit discovered.githubDigest ∧
      CommitHex discovered.sourceCommit ∧ hasDigestShape discovered.githubDigest = true := by
  obtain ⟨⟨fields, rfl⟩, hwalk⟩ := h
  by_cases hpublished : Published (.object fields)
  · obtain ⟨items, hitems⟩ := hwalk hpublished
    have hparse := parse_of_published hpublished
    simp only [hitems, ofLibrary, lhaAssets_objects, bind, Except.bind] at hparse
    have hoffers : ∀ commit digest, Offers (.object fields) commit digest →
        ∃ asset name, items.filter isLha = [asset] ∧ asset.get? "name" = some (.text name) ∧
          commit = commitOf name ∧ asset.get? "digest" = some (.text digest) := by
      intro commit digest hoffers
      obtain ⟨-, items', asset, name, hitems', hasset, hrest⟩ := hoffers
      have hsame : items = items' := List.map_injective_iff.mpr (fun _ _ => Value.object.inj)
        (Except.ok.inj (hitems.symm.trans hitems'))
      subst hsame
      exact ⟨asset, name, hasset, hrest⟩
    -- with no LHA asset or with several the call is refused, and nothing is offered
    have hambiguous : ∀ {message}, (∀ asset, items.filter isLha ≠ [asset]) →
        parseGithubRelease (.object fields) = .error (.artifactRequiredError message) →
        ∃ message, parseGithubRelease (.object fields) = .error (.artifactRequiredError message) ∧
          ∀ commit digest, Offers (.object fields) commit digest → hasDigestShape digest = true →
            ¬CommitHex commit := by
      intro message hnone hrefused
      refine ⟨message, hrefused, ?_⟩
      intro commit digest hoffer
      obtain ⟨asset, -, hasset, -⟩ := hoffers commit digest hoffer
      exact absurd hasset (hnone asset)
    cases hfound : items.filter isLha with
    | nil =>
        rw [hfound] at hparse hambiguous
        exact .inl (hambiguous (fun _ h => by cases h) hparse)
    | cons asset rest =>
        rw [hfound] at hparse hambiguous hoffers
        cases rest with
        | cons other rest => exact .inl (hambiguous (fun _ h => by cases h) hparse)
        | nil =>
            have hlha : isLha asset = true := by
              have hmem : asset ∈ items.filter isLha := hfound ▸ List.mem_singleton_self asset
              exact (List.mem_filter.mp hmem).2
            obtain ⟨name, hname⟩ := name_of_isLha hlha
            rcases @parseAsset_cases fields _ _ hname with ⟨message, hrefused, hnone⟩ |
              ⟨discovered, hok, hdigest, hcommit, hhex, hshape⟩
            · refine .inl ⟨message, hparse.trans hrefused, ?_⟩
              intro commit digest hoffer hshape
              obtain ⟨asset', name', hasset, hname', rfl, hdigest⟩ := hoffers commit digest hoffer
              obtain rfl : asset = asset' := List.singleton_injective hasset
              obtain rfl : name = name' := Value.text.inj (Option.some.inj (hname.symm.trans hname'))
              exact hnone digest hdigest hshape
            · refine .inr ⟨discovered, hparse.trans hok, ?_, hcommit ▸ hhex, hshape⟩
              exact ⟨hpublished, items, asset, name, hitems, hfound, hname, hcommit, hdigest⟩
  · obtain ⟨message, hparse⟩ := parse_of_unpublished hpublished
    refine .inl ⟨message, hparse, ?_⟩
    intro commit digest hoffers
    exact absurd hoffers.1 hpublished

/-- The walk through the assets raises exactly where one is no object. -/
theorem lhaAssets_cases (items : List Value) :
    (∃ objects : List Fields, items = objects.map .object) ∨
      lhaAssets items = .error (.foreign .attributeError) := by
  induction items with
  | nil => exact .inl ⟨[], rfl⟩
  | cons item rest ih =>
      cases item with
      | object fields =>
          rcases ih with ⟨objects, rfl⟩ | hraises
          · exact .inl ⟨fields :: objects, rfl⟩
          · refine .inr ?_
            unfold lhaAssets
            rw [hraises]
            rfl
      | null => exact .inr rfl
      | bool _ => exact .inr rfl
      | number _ => exact .inr rfl
      | text _ => exact .inr rfl
      | array _ => exact .inr rfl

theorem isCaught_of_assetsOf {e : Archive.Exn} (h : assetsOf (.object fields) = .error e) :
    isCaught e = false := by
  unfold assetsOf at h
  simp only [Value.get, bind, Except.bind] at h
  cases hassets : (fields.get? "assets").getD (.array []) with
  | null => rw [hassets] at h; cases h; rfl
  | bool _ => rw [hassets] at h; cases h; rfl
  | number _ => rw [hassets] at h; cases h; rfl
  | text _ => rw [hassets] at h; cases h
  | array _ => rw [hassets] at h; cases h
  | object _ => rw [hassets] at h; cases h

/-- A document that cannot be walked through raises what is not caught. -/
theorem parse_of_not_walkable (h : ¬Walkable document) :
    ∃ e, parseGithubRelease document = .error (.library e) ∧ isCaught e = false := by
  by_cases hobject : ∃ fields, document = .object fields
  · obtain ⟨fields, rfl⟩ := hobject
    have hpublished : Published (.object fields) := by
      by_contra hnot
      exact h ⟨⟨fields, rfl⟩, fun hpublished => absurd hpublished hnot⟩
    rw [parse_of_published hpublished]
    cases hassets : assetsOf (.object fields) with
    | error e => exact ⟨e, rfl, isCaught_of_assetsOf hassets⟩
    | ok items =>
        rcases lhaAssets_cases items with ⟨objects, rfl⟩ | hraises
        · exact absurd ⟨⟨fields, rfl⟩, fun _ => ⟨objects, hassets⟩⟩ h
        · refine ⟨.foreign .attributeError, ?_, rfl⟩
          simp only [ofLibrary, bind, Except.bind, hraises]
  · refine ⟨.foreign .attributeError, ?_, rfl⟩
    cases document with
    | object fields => exact absurd ⟨fields, rfl⟩ hobject
    | null => rfl
    | bool _ => rfl
    | number _ => rfl
    | text _ => rfl
    | array _ => rfl

end Parsing

/-! ## The current release -/

theorem commitHex_current : CommitHex currentCommit := by
  rw [← isCommit_iff]
  simp only [currentCommit, isCommit, Text.of]
  decide

theorem digestHex_current : DigestHex currentDigest := by
  refine ⟨.of "23459a56b086a28f9cad1da59691f0867c2e15f16bc37417723fd10207e42533", ?_, ?_, ?_⟩
  · simp only [currentDigest, Text.of]
    decide
  · simp only [Text.of]
    decide
  · simp only [Text.of]
    decide

/-! ## What is tolerated -/

section Comparing

variable {discovered : Discovered}

theorem compare_eq_noChange_iff : compare discovered = .noChange ↔
    discovered.sourceCommit = currentCommit ∧ discovered.githubDigest = currentDigest := by
  unfold compare
  split_ifs with hmismatch hsame
  · exact iff_of_false (fun h => by cases h) fun h => hmismatch.2 h.2
  · exact iff_of_true rfl hsame
  · exact iff_of_false (fun h => by cases h) hsame

theorem compare_eq_digestMismatch_iff : compare discovered = .digestMismatch ↔
    discovered.sourceCommit = currentCommit ∧ discovered.githubDigest ≠ currentDigest := by
  unfold compare
  split_ifs with hmismatch hsame
  · exact iff_of_true rfl hmismatch
  · exact iff_of_false (fun h => by cases h) hmismatch
  · exact iff_of_false (fun h => by cases h) hmismatch

theorem compare_eq_newBuildAvailable_iff : compare discovered = .newBuildAvailable ↔
    discovered.sourceCommit ≠ currentCommit := by
  unfold compare
  by_cases hcommit : discovered.sourceCommit = currentCommit
  · by_cases hdigest : discovered.githubDigest = currentDigest
    · simp [hcommit, hdigest]
    · simp [hcommit, hdigest]
  · simp [hcommit]

/-- What the comparison says of the release that is offered is right if its digest is hexadecimal. -/
theorem tolerates_compare_iff {document : Value}
    (hoffers : Offers document discovered.sourceCommit discovered.githubDigest)
    (hcommit : CommitHex discovered.sourceCommit) :
    Tolerates document (compare discovered) ↔ DigestHex discovered.githubDigest := by
  constructor
  · intro htolerates
    by_cases hsame : discovered.sourceCommit = currentCommit
    · by_cases hdigest : discovered.githubDigest = currentDigest
      · -- nothing is asked of an unchanged release, but the current digest is hexadecimal
        rw [hdigest]
        exact digestHex_current
      · obtain ⟨digest, hoffers', hhex, -⟩ :=
          htolerates.mismatch.mp (compare_eq_digestMismatch_iff.mpr ⟨hsame, hdigest⟩)
        obtain ⟨-, rfl⟩ := offers_unique hoffers hoffers'
        exact hhex
    · obtain ⟨commit, digest, hoffers', -, hhex⟩ :=
        htolerates.newBuild (compare_eq_newBuildAvailable_iff.mpr hsame)
      obtain ⟨-, rfl⟩ := offers_unique hoffers hoffers'
      exact hhex
  · intro hhex
    refine ⟨?_, ?_, fun _ => ⟨_, _, hoffers, hcommit, hhex⟩⟩
    · rw [compare_eq_noChange_iff]
      constructor
      · intro ⟨hsame, hdigest⟩
        rw [← hsame, ← hdigest]
        exact hoffers
      · exact fun hoffers' => offers_unique hoffers hoffers'
    · rw [compare_eq_digestMismatch_iff]
      constructor
      · intro ⟨hsame, hdigest⟩
        exact ⟨_, hsame ▸ hoffers, hhex, hdigest⟩
      · intro ⟨digest, hoffers', _, hdigest⟩
        obtain ⟨hsame, rfl⟩ := offers_unique hoffers hoffers'
        exact ⟨hsame, hdigest⟩

/-- Where nothing is offered whose commit and digest have their forms, a refusal says nothing wrong. -/
theorem tolerates_invalid {document : Value} (hnone : ∀ commit digest, Offers document commit digest →
    hasDigestShape digest = true → ¬CommitHex commit) :
    Tolerates document .invalidUpstreamMetadata := by
  refine ⟨?_, ?_, fun hnew => by cases hnew⟩
  · refine iff_of_false (fun heq => by cases heq) ?_
    intro hoffers
    exact hnone _ _ hoffers (hasDigestShape_of_hex digestHex_current) commitHex_current
  · refine iff_of_false (fun heq => by cases heq) ?_
    intro ⟨digest, hoffers, hhex, _⟩
    exact hnone _ _ hoffers (hasDigestShape_of_hex hhex) commitHex_current

end Comparing

/-- **Which documents update discovery tolerates.** -/
theorem checkUpdates_tolerates_iff (fetched : Except Archive.Exn Value) (document upstream : Value)
    (h : examined fetched document = .ok upstream) :
    (∃ status release, checkUpdates fetched document = .ok (status, release) ∧
      Tolerates upstream status) ↔ Walkable upstream ∧ DigestsHex upstream := by
  by_cases hwalk : Walkable upstream
  · rw [and_iff_right hwalk]
    rcases parse_of_walkable hwalk with ⟨message, hparse, hnone⟩ |
      ⟨discovered, hparse, hoffers, hcommit, hshape⟩
    · -- the document is refused, and the refusal is caught
      have hrun : checkUpdates fetched document = .ok (.invalidUpstreamMetadata, none) := by
        unfold checkUpdates
        simp only [h, ofLibrary, bind, Except.bind, hparse]
      refine iff_of_true ⟨_, none, hrun, tolerates_invalid hnone⟩ ?_
      intro commit digest hoffers hhex hshape
      exact absurd hhex (hnone commit digest hoffers hshape)
    · -- the one release that the document offers is compared
      have hrun : checkUpdates fetched document = .ok (compare discovered, some discovered) := by
        unfold checkUpdates
        simp only [h, ofLibrary, bind, Except.bind, hparse]
      have hdigests : DigestsHex upstream ↔ DigestHex discovered.githubDigest := by
        constructor
        · exact fun hall => hall _ _ hoffers hcommit hshape
        · intro hhex commit digest hoffers' _ _
          obtain ⟨-, rfl⟩ := offers_unique hoffers hoffers'
          exact hhex
      rw [hdigests, ← tolerates_compare_iff hoffers hcommit]
      constructor
      · intro ⟨status, release, hrun', htolerates⟩
        rw [hrun, Except.ok.injEq, Prod.mk.injEq] at hrun'
        obtain ⟨rfl, -⟩ := hrun'
        exact htolerates
      · exact fun htolerates => ⟨_, _, hrun, htolerates⟩
  · -- the walk raises what `check_updates` does not catch
    obtain ⟨e, hparse, hcaught⟩ := parse_of_not_walkable hwalk
    refine iff_of_false ?_ fun hboth => hwalk hboth.1
    intro ⟨status, release, hrun, _⟩
    have hraises : checkUpdates fetched document = .error e := by
      unfold checkUpdates
      simp only [h, ofLibrary, bind, Except.bind, hparse, hcaught, Bool.false_eq_true, if_false]
    rw [hraises] at hrun
    cases hrun

/-- The file name of the current release. -/
def currentFilename : Text := .of "amiExpress-nightly0f344713f30da7b6a4629643e32b50094cb2bd0b.lha"

/-- The asset of the current release. -/
def currentAsset : Fields := [(.of "name", .text currentFilename), (.of "digest", .text currentDigest)]

/-- The fields of its document. -/
def currentFields : Fields :=
  [(.of "tag_name", .text (.of "dev-build")), (.of "prerelease", .bool true),
    (.of "assets", .array [.object currentAsset])]

/-- The document of the current release. -/
def currentDocument : Value := .object currentFields

theorem endsInLha_current : endsInLha (.text currentFilename) = true := by
  simp only [endsInLha, currentFilename, Text.of]
  decide

theorem commitOf_current : commitOf currentFilename = currentCommit := by
  unfold commitOf removePrefix removeSuffix currentFilename currentCommit Text.of
  decide

theorem assetsOf_current : assetsOf currentDocument = .ok [.object currentAsset] := by
  have hassets : Fields.get? currentFields "assets" = some (.array [.object currentAsset]) := by
    unfold currentFields
    rw [Fields.get?_cons, if_neg (by decide), Fields.get?_cons, if_neg (by decide), Fields.get?_cons,
      if_pos rfl]
  change ((Fields.get? currentFields "assets").getD (.array [])).elements = _
  rw [hassets]
  rfl

theorem offers_current : Offers currentDocument currentCommit currentDigest := by
  have hname : Fields.get? currentAsset "name" = some (.text currentFilename) := by
    unfold currentAsset
    rw [Fields.get?_cons, if_pos rfl]
  have hlha : isLha currentAsset = true := by
    unfold isLha
    rw [hname]
    exact endsInLha_current
  refine ⟨⟨_, rfl, ?_, ?_, ?_⟩, [currentAsset], currentAsset, currentFilename, assetsOf_current, ?_, hname,
    commitOf_current.symm, ?_⟩
  · unfold currentFields
    rw [Fields.get?_cons, if_pos rfl, Option.getD_some]
    show decide (Text.of "dev-build" = Text.of "dev-build") = true
    exact decide_eq_true rfl
  · unfold currentFields
    rw [Fields.get?_cons, if_neg (by decide), Fields.get?_cons, if_neg (by decide), Fields.get?_cons,
      if_neg (by decide), Fields.get?_nil, Option.getD_none]
    rfl
  · unfold currentFields
    rw [Fields.get?_cons, if_neg (by decide), Fields.get?_cons, if_pos rfl, Option.getD_some]
    rfl
  · rw [List.filter_cons_of_pos hlha, List.filter_nil]
  · unfold currentAsset
    rw [Fields.get?_cons, if_neg (by decide), Fields.get?_cons, if_pos rfl]

/-- The document of the current release is tolerated. -/
theorem checkUpdates_tolerates_current : ∃ status release,
    checkUpdates (.error (.foreign .osError)) currentDocument = .ok (status, release) ∧
      Tolerates currentDocument status := by
  refine (checkUpdates_tolerates_iff (.error (.foreign .osError)) currentDocument currentDocument
    rfl).mpr ⟨⟨⟨_, rfl⟩, fun _ => ⟨[currentAsset], assetsOf_current⟩⟩, ?_⟩
  intro commit digest hoffers _ _
  obtain ⟨-, rfl⟩ := offers_unique offers_current hoffers
  exact digestHex_current

/-- On a list `check_updates` raises. -/
theorem checkUpdates_raises_on_list :
    checkUpdates (.error (.foreign .osError)) (.array []) = .error (.foreign .attributeError) := rfl

end UltimateBBSBox.Integrations

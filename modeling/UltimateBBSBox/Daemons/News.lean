import UltimateBBSBox.Daemons.Fields
import UltimateBBSBox.Library.Check

/-!
# News

`Retention`, `NewsGroup` and `NewsConfig` of `ubb_news.py`.  Adapters and feeds, and the fields
of a group that neither its construction nor rendering reads, are left out.
-/

namespace UltimateBBSBox.Daemons

open CodePoint (ofChar)
open Url (Unicode)
open Except (refuse)
open Address (decimal)
open Hostname (isIdentifier isLabel isLabelEnd)

namespace News

/-- `NewsConfigError`. -/
structure NewsConfigError where
  message : String
deriving DecidableEq

/-- `_GROUP.fullmatch`, `[a-z0-9]+(?:[._-][a-z0-9]+)*`: separators stand one by one between
other characters. -/
def isGroupName (v : Text) : Bool :=
  v.head?.any isLabelEnd ∧ v.getLast?.any isLabelEnd ∧
    (∀ c ∈ v, isLabelEnd c = true ∨ c ∈ ['.', '_', '-'].map ofChar) ∧
    v.IsChain fun c d => isLabelEnd c = true ∨ isLabelEnd d = true

def group (U : Unicode) (v : Text) : Except NewsConfigError Text :=
  if 255 < v.length ∨ isGroupName v = false ∨ v.head? = some (ofChar '.') ∨
      v.getLast? = some (ofChar '.') then
    .error ⟨"invalid group name"⟩
  else .ok (U.lower v)

/-- `_HOST.fullmatch`: labels with dots between them, two at least. -/
def isHost (v : Text) : Bool :=
  2 ≤ (v.splitOn (ofChar '.')).length ∧ ∀ label ∈ v.splitOn (ofChar '.'), isLabel label = true

def host (U : Unicode) (v : Text) : Except NewsConfigError Text :=
  if isHost (U.lower v) = false then .error ⟨"invalid hostname"⟩ else .ok (U.lower v)

/-- `if ref: external_ref(ref)`. -/
def checkRef (ref : Option Text) : Except NewsConfigError Unit :=
  refuse (failsIfGiven isExternal ref) ⟨"secret must be external reference"⟩

/-! ## Groups -/

/-- `Retention`. -/
structure Retention where
  maxAgeDays : ℤ
  maxArticles : ℤ
  maxBytes : ℤ
  bounded : 0 < maxAgeDays ∧ 0 < maxArticles ∧ 0 < maxBytes

/-- `NewsGroup.__post_init__`: the name it is given. -/
def NewsGroup.postInit (U : Unicode) (name readPolicy postPolicy : Text)
    (bbsService bbsArea : Option Text) : Except NewsConfigError Text := do
  let name ← group U name
  refuse (readPolicy ∉ [.of "public", .of "authenticated", .of "trusted_network", .of "disabled"] ∨
      postPolicy ∉ [.of "public", .of "authenticated", .of "trusted_network", .of "moderated",
        .of "disabled"])
    ⟨"invalid group policy"⟩
  refuse (failsIfGiven isIdentifier bbsService) ⟨"invalid BBS service"⟩
  refuse (bbsArea.any fun area => area = [] ∨ newline ∈ area ∨ ofChar '\r' ∈ area)
    ⟨"invalid BBS area"⟩
  return name

/-- `NewsGroup`. -/
structure NewsGroup (U : Unicode) where
  name : Text
  description : Text
  readPolicy : Text
  postPolicy : Text
  bbsService : Option Text
  bbsArea : Option Text
  constructed : ∃ written,
    NewsGroup.postInit U written readPolicy postPolicy bbsService bbsArea = .ok name

/-! ## The server -/

/-- `NewsConfig`. -/
structure NewsConfig (U : Unicode) where
  mode : Text
  internalIdentity : Text
  publicIdentity : Option Text
  tlsCertRef : Option Text
  tlsKeyRef : Option Text
  groups : List (NewsGroup U)
  retention : Retention
  nntpPort : ℤ
  nntpsPort : Option ℤ

namespace NewsConfig

variable {U : Unicode} (config : NewsConfig U)

/-- The services and areas that groups are for. -/
def mappings : List (Option Text × Option Text) :=
  (config.groups.filter fun x => x.bbsService.any fun service => service ≠ []).map fun x =>
    (x.bbsService, x.bbsArea)

/-- `NewsConfig.__post_init__`. -/
def postInit : Except NewsConfigError Unit := do
  refuse (config.mode ∉ [.of "private_only", .of "public_read", .of "public_read_write"])
    ⟨"invalid NNTP mode"⟩
  let _ ← host U config.internalIdentity
  refuse (failsIfGiven (fun name => isHost (U.lower name)) config.publicIdentity)
    ⟨"invalid hostname"⟩
  checkRef config.tlsCertRef
  checkRef config.tlsKeyRef
  refuse (isPort config.nntpPort = false) ⟨"invalid NNTP port"⟩
  refuse (config.nntpsPort.any fun port => isPort port = false) ⟨"invalid NNTPS port"⟩
  refuse (¬ (config.groups.map NewsGroup.name).Nodup) ⟨"duplicate newsgroup"⟩
  refuse (¬ config.mappings.Nodup) ⟨"duplicate BBS mapping"⟩
  refuse (config.mode = .of "public_read_write" ∧ ¬ config.tlsCertRef.any fun ref => ref ≠ [])
    ⟨"public posting requires TLS configuration"⟩

def lines : List Text :=
  [.of "# UBB NNTP mode: " ++ config.mode, .of "listen_port = " ++ integer config.nntpPort,
      .of "group_count = " ++ decimal config.groups.length,
      .of "retention_days = " ++ integer config.retention.maxAgeDays] ++
    (config.nntpsPort.toList.filter fun port => port ≠ 0).map fun port =>
      .of "nntps_port = " ++ integer port

def render : Text := Daemons.render config.lines

/-- The line of a group. -/
def groupLine (g : NewsGroup U) : Text := g.name ++ ofChar '\t' :: g.description

def groupsRender : Text :=
  Daemons.render ((config.groups.insertionSort fun x y => x.name ≤ y.name).map groupLine)

/-! ### Lines -/

/-- How many lines are meant. -/
def lineCount : ℕ := 4 + (config.nntpsPort.toList.filter fun port => port ≠ 0).length

variable {config}

/-- Construction has checked all that the lines of the server show. -/
theorem count_render (h : config.postInit = .ok ()) :
    config.render.count newline = config.lineCount := by
  have hcount : config.lineCount = max 1 config.lines.length := by
    unfold lineCount lines
    rw [List.length_append, List.length_map]
    simp only [List.length_cons, List.length_nil]
    omega
  have hmode : newline ∉ config.mode := by
    unfold postInit at h
    obtain ⟨hmode, -⟩ := Except.check_bind_eq_ok.mp h
    have hchoices : ∀ mode ∈ [Text.of "private_only", .of "public_read", .of "public_read_write"],
        newline ∉ mode := by decide
    exact hchoices _ (not_not.mp (Except.refuse_eq_ok.mp hmode))
  have hinteger : ∀ n, newline ∉ integer n := IsSeparator.newline.not_mem_integer
  unfold render
  rw [hcount, Lines.count_joined_iff]
  unfold lines
  simp only [List.forall_mem_append, List.forall_mem_cons, List.forall_mem_map]
  refine ⟨⟨?_, ?_, ?_, ?_, fun _ hline => absurd hline List.not_mem_nil⟩, fun port _ => ?_⟩
  · exact (not_mem_after (by decide)).mpr hmode
  · exact (not_mem_after (by decide)).mpr (hinteger _)
  · exact (not_mem_after (by decide)).mpr (IsSeparator.newline.not_mem_decimal _)
  · exact (not_mem_after (by decide)).mpr (hinteger _)
  · exact (not_mem_after (by decide)).mpr (hinteger _)

theorem newline_not_mem_name (g : NewsGroup U) : newline ∉ g.name := by
  obtain ⟨written, h⟩ := g.constructed
  unfold NewsGroup.postInit at h
  obtain ⟨name, hname, h⟩ := Except.bind_eq_ok.mp h
  simp only [Except.bind_eq_ok, Except.pure_eq_ok] at h
  obtain ⟨_, -, _, -, _, -, rfl⟩ := h
  unfold group at hname
  split at hname
  · cases hname
  · rename_i hchecked
    have hname : U.lower written = g.name := Except.ok.inj hname
    have hmatch : isGroupName written = true :=
      Bool.eq_true_of_not_eq_false fun hnot => hchecked (.inr (.inl hnot))
    rw [← hname, IsSeparator.newline.mem_lower_iff]
    intro hmem
    rcases (of_decide_eq_true hmatch).2.2.1 _ hmem with hend | hother
    · rw [IsSeparator.newline.not_isLabelEnd] at hend
      cases hend
    · exact absurd hother (by decide)

/-- The lines of the groups are those that are meant if and only if no description has an end of
line. -/
theorem count_groupsRender : config.groupsRender.count newline = max 1 config.groups.length ↔
    ∀ g ∈ config.groups, newline ∉ g.description := by
  have hcount : max 1 config.groups.length =
      max 1 ((config.groups.insertionSort fun x y => x.name ≤ y.name).map groupLine).length := by
    rw [List.length_map, List.length_insertionSort]
  unfold groupsRender
  rw [hcount, Lines.count_joined_iff, List.forall_mem_map]
  simp only [List.mem_insertionSort]
  refine forall₂_congr fun g _ => ?_
  have htab : newline ≠ ofChar '\t' := by decide
  unfold groupLine
  rw [not_mem_after (newline_not_mem_name g), List.mem_cons, or_iff_right htab]

end NewsConfig

end News

end UltimateBBSBox.Daemons

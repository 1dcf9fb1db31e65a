import UltimateBBSBox.Daemons.Fields
import UltimateBBSBox.Library.Check

/-!
# IRC

`IRCChannel`, `IRCBridge` and `IRCConfig` of `ubb_irc.py`, without the fields of a channel that
neither construction nor rendering reads.
-/

namespace UltimateBBSBox.Daemons

open CodePoint (ofChar)
open Except (refuse)
open Hostname (isIdentifier)

namespace Irc

/-- `IRCConfigError`. -/
structure IRCConfigError where
  message : String
deriving DecidableEq

/-- A letter or a digit and then up to `limit` of these, dots, underscores and hyphens. -/
def isWord (limit : ℕ) (v : Text) : Bool :=
  v.length ≤ limit + 1 ∧ v.head?.any (fun c => c.isLetter ∨ c.isDigit) ∧
    ∀ c ∈ v, c.isLetter = true ∨ c.isDigit = true ∨ c ∈ ['.', '_', '-'].map ofChar

/-- `_NAME.fullmatch`. -/
def isName (v : Text) : Bool := isWord 62 v

/-- `_CHAN.fullmatch`. -/
def isChannel (v : Text) : Bool := v.head? = some (ofChar '#') ∧ isWord 49 v.tail

/-- `if ref: external(ref)`. -/
def checkRef (ref : Option Text) : Except IRCConfigError Unit :=
  refuse (failsIfGiven isExternal ref) ⟨"secret must be external reference"⟩

/-- `IRCChannel`. -/
structure IRCChannel where
  channel : Text
  visibility : Text
  history : Text
  maxUsers : Option ℤ

/-- `IRCChannel.__post_init__`. -/
def IRCChannel.postInit (x : IRCChannel) : Except IRCConfigError Unit := do
  refuse (isChannel x.channel = false) ⟨"invalid channel"⟩
  refuse (x.visibility ∉ [.of "public", .of "private"]) ⟨"invalid channel visibility"⟩
  refuse (x.history ∉ [.of "none", .of "bounded"]) ⟨"invalid history policy"⟩
  refuse (x.maxUsers.any fun users => users ≤ 0) ⟨"invalid max users"⟩

/-- `IRCBridge`. -/
structure IRCBridge where
  service : Text
  channel : Text
  bbsArea : Text
  mode : Text
  visibility : Text
  checkpointRef : Option Text

/-- `IRCBridge.__post_init__`. -/
def IRCBridge.postInit (b : IRCBridge) : Except IRCConfigError Unit := do
  refuse (isIdentifier b.service = false) ⟨"invalid BBS service"⟩
  refuse (isChannel b.channel = false) ⟨"invalid channel"⟩
  refuse (b.bbsArea = [] ∨ newline ∈ b.bbsArea ∨ ofChar '\r' ∈ b.bbsArea) ⟨"invalid BBS area"⟩
  refuse (b.mode ∉ [.of "inbound_to_bbs", .of "outbound_from_bbs", .of "bidirectional",
      .of "scheduled_bridge", .of "native_irc"])
    ⟨"invalid bridge mode"⟩
  refuse (b.visibility ∉ [.of "private", .of "public"]) ⟨"invalid bridge visibility"⟩
  checkRef b.checkpointRef

/-- `IRCConfig`. -/
structure IRCConfig where
  mode : Text
  serverName : Text
  networkName : Text
  publicHostname : Option Text
  tlsCertRef : Option Text
  tlsKeyRef : Option Text
  channels : List {x : IRCChannel // x.postInit = .ok ()}
  bridges : List {b : IRCBridge // b.postInit = .ok ()}
  authSecretRef : Option Text
  operSecretRef : Option Text
  listenTls : Bool
  listenPlain : Bool
  tlsPort : ℤ
  plainPort : ℤ
  maxConnections : ℤ

namespace IRCConfig

variable (config : IRCConfig)

/-- `IRCConfig.__post_init__`. -/
def postInit : Except IRCConfigError Unit := do
  refuse (config.mode ∉ [.of "private_only", .of "public"]) ⟨"invalid IRC mode"⟩
  refuse (isName config.serverName = false) ⟨"invalid server name"⟩
  refuse (isName config.networkName = false) ⟨"invalid network name"⟩
  refuse (failsIfGiven isName config.publicHostname) ⟨"invalid public hostname"⟩
  refuse (config.mode = .of "public" ∧ ¬ config.tlsCertRef.any fun ref => ref ≠ [])
    ⟨"public IRC requires TLS"⟩
  checkRef config.tlsCertRef
  checkRef config.tlsKeyRef
  checkRef config.authSecretRef
  checkRef config.operSecretRef
  refuse (isPort config.tlsPort = false ∨ isPort config.plainPort = false)
    ⟨"invalid listener port"⟩
  refuse (config.maxConnections ≤ 0) ⟨"invalid connection limit"⟩
  refuse (¬ (config.channels.map fun x => x.1.channel).Nodup) ⟨"duplicate channel"⟩
  refuse (¬ (config.bridges.map fun x => (x.1.service, x.1.channel)).Nodup)
    ⟨"duplicate bridge mapping"⟩
  refuse (∃ b ∈ config.bridges, b.1.visibility = .of "public" ∧ config.mode ≠ .of "public")
    ⟨"public bridge requires public IRC mode"⟩

def lines : List Text :=
  [.of "servername " ++ config.serverName, .of "networkname " ++ config.networkName,
      .of "mode " ++ config.mode, .of "maxconnections " ++ integer config.maxConnections] ++
    (if config.listenTls then [.of "tls-listen " ++ integer config.tlsPort] else []) ++
    (if config.listenPlain then [.of "plain-listen " ++ integer config.plainPort] else []) ++
    (config.tlsCertRef.toList.filter fun ref => ref ≠ []).map fun ref => Text.of "tls-cert " ++ ref

def render : Text := Daemons.render config.lines

/-! ### Lines -/

/-- How many lines are meant. -/
def lineCount : ℕ :=
  4 + (if config.listenTls then 1 else 0) + (if config.listenPlain then 1 else 0) +
    (config.tlsCertRef.toList.filter fun ref => ref ≠ []).length

variable {config}

theorem newline_not_mem_of_isName {v : Text} (h : isName v = true) : newline ∉ v := by
  intro hmem
  rcases (of_decide_eq_true h).2.2 _ hmem with hother | hother | hother
  all_goals exact absurd hother (by decide)

/-- What construction asks of the fields that are rendered. -/
theorem rendered_of_postInit (h : config.postInit = .ok ()) :
    newline ∉ config.mode ∧ newline ∉ config.serverName ∧ newline ∉ config.networkName ∧
      ∀ ref ∈ config.tlsCertRef.toList.filter fun ref => ref ≠ [], newline ∉ ref := by
  unfold postInit at h
  simp only [Except.check_bind_eq_ok, Except.refuse_eq_ok, not_not, Bool.not_eq_false,
    checkRef] at h
  obtain ⟨hmode, hserver, hnetwork, -, -, hcert, -⟩ := h
  have hchoices : ∀ mode ∈ [Text.of "private_only", .of "public"], newline ∉ mode := by decide
  refine ⟨hchoices _ hmode, newline_not_mem_of_isName hserver, newline_not_mem_of_isName hnetwork,
    fun ref href => ?_⟩
  obtain ⟨hgiven, hne⟩ := List.mem_filter.mp href
  exact newline_not_mem_of_isExternal (passes_of_failsIfGiven (Bool.eq_false_of_not_eq_true hcert)
    (Option.mem_toList.mp hgiven) (of_decide_eq_true hne))

/-- Construction has checked all that the lines show. -/
theorem count_render (h : config.postInit = .ok ()) :
    config.render.count newline = config.lineCount := by
  have hcount : config.lineCount = max 1 config.lines.length := by
    unfold lineCount lines
    rw [List.length_append, List.length_append, List.length_append, List.length_map,
      apply_ite List.length, apply_ite List.length]
    simp only [List.length_cons, List.length_nil, Nat.zero_add]
    omega
  have hinteger : ∀ n, newline ∉ integer n := IsSeparator.newline.not_mem_integer
  obtain ⟨hmode, hserver, hnetwork, hcert⟩ := rendered_of_postInit h
  unfold render
  rw [hcount, Lines.count_joined_iff]
  unfold lines
  simp only [List.forall_mem_append, List.forall_mem_cons, List.forall_mem_map]
  refine ⟨⟨⟨⟨?_, ?_, ?_, ?_, fun _ hline => absurd hline List.not_mem_nil⟩, ?_⟩, ?_⟩,
    fun ref href => ?_⟩
  · exact (not_mem_after (by decide)).mpr hserver
  · exact (not_mem_after (by decide)).mpr hnetwork
  · exact (not_mem_after (by decide)).mpr hmode
  · exact (not_mem_after (by decide)).mpr (hinteger _)
  · intro line hline
    split at hline
    · rw [List.mem_singleton.mp hline]
      exact (not_mem_after (by decide)).mpr (hinteger _)
    · cases hline
  · intro line hline
    split at hline
    · rw [List.mem_singleton.mp hline]
      exact (not_mem_after (by decide)).mpr (hinteger _)
    · cases hline
  · exact (not_mem_after (by decide)).mpr (hcert ref href)

end IRCConfig

end Irc

end UltimateBBSBox.Daemons

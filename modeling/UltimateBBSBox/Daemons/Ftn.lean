import UltimateBBSBox.Daemons.Fields
import UltimateBBSBox.Library.Check

/-!
# FTN

`FTNPeer`, `FTNArea`, `FTNNetwork` and `FTNConfig` of `ubb_ftn.py`.  Adapters, and the fields
that neither construction nor rendering reads, are left out.

`\d` and `int` take the decimal digits of all scripts (`Digits`), and `int` no more than
`maxDigits` of them.
-/

namespace UltimateBBSBox.Daemons

open CodePoint (ofChar)
open Except (refuse)
open Address (decimal)
open Hostname (isIdentifier)

namespace Ftn

inductive FTNError
  | ftnConfigError (message : String)
  | valueError
deriving DecidableEq

/-! ## Addresses -/

/-- The decimal digits of Unicode: of the characters of ASCII those from `0` to `9`. -/
structure Digits where
  value : CodePoint → Option ℕ
  ascii : ∀ c : CodePoint, c.isAscii = true → value c = if c.isDigit then some (c.val - 48) else none

variable {D : Digits}

/-- `\d+`. -/
def Digits.isNumber (D : Digits) (text : Text) : Bool :=
  text ≠ [] ∧ ∀ c ∈ text, (D.value c).isSome = true

/-- `int(text)` of a text of digits. -/
def Digits.int (D : Digits) (text : Text) : Except FTNError ℕ := do
  refuse (Url.maxDigits < text.length) .valueError
  return text.foldl (fun n c => 10 * n + (D.value c).getD 0) 0

/-- The groups of `_ADDR.fullmatch`: zone, network, node and point. -/
def groups (D : Digits) (v : Text) : Option (Text × Text × Text × Option Text) :=
  let zone := v.before (ofChar ':')
  let net := (v.after (ofChar ':')).before (ofChar '/')
  let last := (v.after (ofChar ':')).after (ofChar '/')
  let node := last.before (ofChar '.')
  let point := if ofChar '.' ∈ last then some (last.after (ofChar '.')) else none
  if D.isNumber zone ∧ D.isNumber net ∧ D.isNumber node ∧ point.all D.isNumber then
    some (zone, net, node, point)
  else none

def ftnAddress (D : Digits) (v : Text) : Except FTNError Text :=
  match groups D v with
  | none => .error (.ftnConfigError "invalid FTN address")
  | some (zone, net, node, point) => do
      let z ← D.int zone
      let n ← D.int net
      let node ← D.int node
      let p ← D.int (point.getD (.of "0"))
      refuse (¬ (0 < z ∧ z ≤ 65535 ∧ n ≤ 65535 ∧ node ≤ 65535 ∧ p ≤ 65535))
        (.ftnConfigError "FTN address out of range")
      return decimal z ++ ofChar ':' :: decimal n ++ ofChar '/' :: decimal node ++
        if point.isSome then ofChar '.' :: decimal p else []

/-- `if ref: external(ref)`. -/
def checkRef (ref : Option Text) : Except FTNError Unit :=
  refuse (failsIfGiven isExternal ref) (.ftnConfigError "secret must be external reference")

/-! ## Peers, areas and networks -/

/-- `FTNPeer.__post_init__`: the address it is given. -/
def FTNPeer.postInit (D : Digits) (peerId address host : Text) (port : ℤ)
    (passwordRef : Option Text) (pollPolicy : Text) : Except FTNError Text := do
  refuse (isIdentifier peerId = false) (.ftnConfigError "invalid peer id")
  let address ← ftnAddress D address
  refuse (host = [] ∨ newline ∈ host ∨ ofChar '\r' ∈ host) (.ftnConfigError "invalid peer host")
  refuse (isPort port = false) (.ftnConfigError "invalid peer port")
  checkRef passwordRef
  refuse (pollPolicy ∉ [.of "always_listening", .of "interval", .of "scheduled", .of "manual"])
    (.ftnConfigError "invalid poll policy")
  return address

/-- `FTNPeer`. -/
structure FTNPeer (D : Digits) where
  peerId : Text
  address : Text
  host : Text
  port : ℤ
  passwordRef : Option Text
  pollPolicy : Text
  constructed : ∃ written,
    FTNPeer.postInit D peerId written host port passwordRef pollPolicy = .ok address

/-- A character of `[A-Z0-9]`. -/
def isTagStart (c : CodePoint) : Bool := (ofChar 'A' ≤ c ∧ c ≤ ofChar 'Z') ∨ c.isDigit

/-- `_AREA.fullmatch`. -/
def isTag (v : Text) : Bool :=
  v.length ≤ 64 ∧ v.head?.any isTagStart ∧
    ∀ c ∈ v, isTagStart c = true ∨ c = ofChar '_' ∨ c = ofChar '-'

/-- `FTNArea`. -/
structure FTNArea where
  tag : Text
  networkId : Text
  kind : Text
  bbsService : Option Text

/-- `FTNArea.__post_init__`. -/
def FTNArea.postInit (area : FTNArea) : Except FTNError Unit := do
  refuse (isTag area.tag = false) (.ftnConfigError "invalid area tag")
  refuse (isIdentifier area.networkId = false) (.ftnConfigError "invalid network id")
  refuse (area.kind ∉ [.of "echomail", .of "netmail"]) (.ftnConfigError "invalid area kind")
  refuse (failsIfGiven isIdentifier area.bbsService) (.ftnConfigError "invalid BBS service")

/-- `FTNNetwork`. -/
structure FTNNetwork (D : Digits) where
  networkId : Text
  localAddresses : List Text
  peers : List (FTNPeer D)
  areas : List {area : FTNArea // area.postInit = .ok ()}
  publicListener : Bool
  bindHost : Text
  spoolRoot : Text
  encoding : Text
  nodelistRef : Option Text
  archiveMethod : Text

/-- A public listener on all addresses with no peers. -/
def FTNNetwork.isOpen (network : FTNNetwork D) : Bool :=
  network.publicListener ∧ network.bindHost ∈ [Text.of "0.0.0.0", .of "::"] ∧
    network.peers.isEmpty

/-- `FTNNetwork.__post_init__`: what is constructed of the fields as they are written. -/
def FTNNetwork.postInit (network : FTNNetwork D) : Except FTNError (FTNNetwork D) := do
  refuse (isIdentifier network.networkId = false) (.ftnConfigError "invalid network id")
  refuse (network.localAddresses.isEmpty) (.ftnConfigError "network requires local address")
  let localAddresses ← network.localAddresses.mapM (ftnAddress D)
  refuse (network.encoding ∉ [.of "CP437", .of "CP850", .of "ISO-8859-1", .of "UTF-8",
      .of "network-defined"])
    (.ftnConfigError "invalid encoding")
  refuse (network.archiveMethod ∉ [.of "none", .of "zip", .of "arc", .of "arj", .of "lzh"])
    (.ftnConfigError "archive method not allow-listed")
  refuse network.isOpen (.ftnConfigError "public listener requires explicit peers")
  checkRef network.nodelistRef
  refuse (¬ (network.areas.map fun area => area.1.tag).Nodup) (.ftnConfigError "duplicate area tag")
  return { network with localAddresses := localAddresses }

/-! ## The mailer -/

/-- `FTNConfig`. -/
structure FTNConfig (D : Digits) where
  networks : List {network : FTNNetwork D // ∃ written : FTNNetwork D, written.postInit = .ok network}
  listenPort : ℤ

namespace FTNConfig

variable (config : FTNConfig D)

/-- `FTNConfig.__post_init__`. -/
def postInit : Except FTNError Unit := do
  refuse (¬ (config.networks.map fun n => n.1.networkId).Nodup) (.ftnConfigError "duplicate network")
  refuse (isPort config.listenPort = false) (.ftnConfigError "invalid listener port")
  refuse (∃ n ∈ config.networks, n.1.isOpen = true)
    (.ftnConfigError "public listener requires explicit peers")

/-- `sorted(self.networks, key=lambda x: x.network_id)`. -/
def sortedNetworks :
    List {network : FTNNetwork D // ∃ written : FTNNetwork D, written.postInit = .ok network} :=
  config.networks.insertionSort fun x y => x.1.networkId ≤ y.1.networkId

def peerLine (p : FTNPeer D) : Text :=
  Text.of "peer " ++ p.address ++ .of " " ++ p.host ++ .of ":" ++ integer p.port

/-- The lines of a network. -/
def networkLines (n : FTNNetwork D) : List Text :=
  [Text.of "# network " ++ n.networkId, Text.of "node-dir " ++ n.spoolRoot ++ .of "/inbound"] ++
    (n.peers.insertionSort fun x y => x.peerId ≤ y.peerId).map peerLine

def renderBinkd : Text :=
  Daemons.render ((Text.of "listen " ++ integer config.listenPort) ::
    config.sortedNetworks.flatMap fun n => networkLines n.1)

def tosserLine (n : FTNNetwork D) : Text :=
  Text.of "network " ++ n.networkId ++ .of " areas " ++ decimal n.areas.length ++
    .of " encoding " ++ n.encoding ++ .of " archive " ++ n.archiveMethod

def renderTosser : Text := Daemons.render (config.sortedNetworks.map fun n => tosserLine n.1)

end FTNConfig

/-! ## Lines -/

section Lines

theorem newline_not_mem_ftnAddress {written address : Text}
    (h : ftnAddress D written = .ok address) : newline ∉ address := by
  have hdecimal : ∀ n, newline ∉ decimal n := IsSeparator.newline.not_mem_decimal
  have hmark : ∀ {mark : Char} {text : Text}, newline ≠ ofChar mark → newline ∉ text →
      newline ∉ ofChar mark :: text := fun hne hmem => List.not_mem_cons_of_ne_of_not_mem hne hmem
  unfold ftnAddress at h
  split at h
  · cases h
  · rename_i zone net node point _
    simp only [Except.bind_eq_ok, Except.pure_eq_ok] at h
    obtain ⟨z, -, n, -, node, -, p, -, _, -, rfl⟩ := h
    simp only [not_mem_append]
    refine ⟨⟨⟨hdecimal z, hmark (by decide) (hdecimal n)⟩, hmark (by decide) (hdecimal node)⟩, ?_⟩
    split
    · exact hmark (by decide) (hdecimal p)
    · exact List.not_mem_nil

theorem newline_not_mem_peerLine (p : FTNPeer D) : newline ∉ FTNConfig.peerLine p := by
  obtain ⟨written, h⟩ := p.constructed
  unfold FTNPeer.postInit at h
  simp only [Except.bind_eq_ok, Except.refuse_eq_ok, Except.pure_eq_ok, not_or] at h
  obtain ⟨_, -, address, haddress, _, ⟨-, hhost, -⟩, _, -, _, -, _, -, rfl⟩ := h
  unfold FTNConfig.peerLine
  simp only [not_mem_append]
  exact ⟨⟨⟨⟨⟨by decide, newline_not_mem_ftnAddress haddress⟩, by decide⟩, hhost⟩, by decide⟩,
    IsSeparator.newline.not_mem_integer _⟩

section Network

variable {network : FTNNetwork D}

/-- What construction asks of the fields of a network that are rendered. -/
theorem rendered_of_postInit (h : ∃ written : FTNNetwork D, written.postInit = .ok network) :
    newline ∉ network.networkId ∧ newline ∉ network.encoding ∧ newline ∉ network.archiveMethod := by
  obtain ⟨written, h⟩ := h
  unfold FTNNetwork.postInit at h
  simp only [Except.bind_eq_ok, Except.refuse_eq_ok, Except.pure_eq_ok, not_not,
    Bool.not_eq_false] at h
  obtain ⟨_, hid, _, -, addresses, -, _, hencoding, _, hmethod, _, -, _, -, _, -, rfl⟩ := h
  have hencodings : ∀ encoding ∈ [Text.of "CP437", .of "CP850", .of "ISO-8859-1", .of "UTF-8",
      .of "network-defined"], newline ∉ encoding := by decide
  have hmethods : ∀ method ∈ [Text.of "none", .of "zip", .of "arc", .of "arj", .of "lzh"],
      newline ∉ method := by decide
  exact ⟨IsSeparator.newline.not_mem_of_isIdentifier hid, hencodings _ hencoding,
    hmethods _ hmethod⟩

theorem newline_not_mem_tosserLine
    (h : ∃ written : FTNNetwork D, written.postInit = .ok network) :
    newline ∉ FTNConfig.tosserLine network := by
  obtain ⟨hid, hencoding, hmethod⟩ := rendered_of_postInit h
  unfold FTNConfig.tosserLine
  simp only [not_mem_append]
  exact ⟨⟨⟨⟨⟨⟨⟨by decide, hid⟩, by decide⟩, IsSeparator.newline.not_mem_decimal _⟩, by decide⟩,
    hencoding⟩, by decide⟩, hmethod⟩

theorem networkLines_clean_iff (h : ∃ written : FTNNetwork D, written.postInit = .ok network) :
    (∀ line ∈ FTNConfig.networkLines network, newline ∉ line) ↔ newline ∉ network.spoolRoot := by
  have hid : newline ∉ Text.of "# network " ++ network.networkId :=
    (not_mem_after (by decide)).mpr (rendered_of_postInit h).1
  have hpeers : ∀ line ∈ (network.peers.insertionSort fun x y => x.peerId ≤ y.peerId).map
      FTNConfig.peerLine, newline ∉ line := by
    rw [List.forall_mem_map]
    exact fun p _ => newline_not_mem_peerLine p
  unfold FTNConfig.networkLines
  rw [List.forall_mem_append, and_iff_left hpeers, List.forall_mem_cons, and_iff_right hid,
    List.forall_mem_singleton, not_mem_before (by decide), not_mem_after (by decide)]

end Network

namespace FTNConfig

variable (config : FTNConfig D)

/-- How many lines are meant for the mailer. -/
def binkdLineCount : ℕ := 1 + (config.networks.map fun n => 2 + n.1.peers.length).sum

variable {config}

/-- The lines of the mailer are those that are meant if and only if no spool root has an end of
line. -/
theorem count_renderBinkd : config.renderBinkd.count newline = config.binkdLineCount ↔
    ∀ n ∈ config.networks, newline ∉ n.1.spoolRoot := by
  have hlisten : newline ∉ Text.of "listen " ++ integer config.listenPort :=
    (not_mem_after (by decide)).mpr (IsSeparator.newline.not_mem_integer _)
  have hlength : ∀ n : FTNNetwork D, (networkLines n).length = 2 + n.peers.length := by
    intro n
    unfold networkLines
    rw [List.length_append, List.length_map, List.length_insertionSort]
    rfl
  have hcount : config.binkdLineCount = max 1 ((Text.of "listen " ++ integer config.listenPort) ::
      config.sortedNetworks.flatMap fun n => networkLines n.1).length := by
    have hperm : (config.sortedNetworks.map fun n => 2 + n.1.peers.length).sum =
        (config.networks.map fun n => 2 + n.1.peers.length).sum :=
      ((List.perm_insertionSort _ config.networks).map _).sum_eq
    rw [List.length_cons, List.length_flatMap]
    simp only [hlength, hperm]
    unfold binkdLineCount
    omega
  unfold renderBinkd
  rw [hcount, Lines.count_joined_iff, List.forall_mem_cons, and_iff_right hlisten]
  simp only [List.mem_flatMap, forall_exists_index, and_imp]
  rw [forall_comm]
  constructor
  · intro hlines n hn
    refine (networkLines_clean_iff n.2).mp fun line hline => ?_
    exact hlines n line ((List.mem_insertionSort _).mpr hn) hline
  · intro hroots n line hn hline
    exact (networkLines_clean_iff n.2).mpr (hroots n ((List.mem_insertionSort _).mp hn)) line hline

/-- Construction has checked all that the lines of the tosser show. -/
theorem count_renderTosser :
    config.renderTosser.count newline = max 1 config.networks.length := by
  have hcount : max 1 config.networks.length =
      max 1 (config.sortedNetworks.map fun n => tosserLine n.1).length := by
    unfold sortedNetworks
    rw [List.length_map, List.length_insertionSort]
  unfold renderTosser
  rw [hcount, Lines.count_joined_iff, List.forall_mem_map]
  exact fun n _ => newline_not_mem_tosserLine n.2

end FTNConfig

end Lines

end Ftn

end UltimateBBSBox.Daemons

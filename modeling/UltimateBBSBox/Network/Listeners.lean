import UltimateBBSBox.Archive.Sources
import UltimateBBSBox.Network.Edge
import UltimateBBSBox.Network.Inventory

/-!
# Listeners that contend

Two listeners contend for a socket if they have the same port and transport, and addresses
that are equal or one of which stands for all.  Ingress of HTTP may share a socket, told
apart by the host name, and so may ingress of HTTPS.

Both checks compare keys for equality.  `collide_iff` says for which configurations and
inventories that comes to the same.
-/

namespace UltimateBBSBox.Network

open Url (Unicode)

/-! ## Sockets -/

inductive Transport | tcp | udp
deriving DecidableEq

/-- The transport of a protocol: every one but UDP is a stream. -/
def transport (protocol : Text) : Transport := if protocol = .of "udp" then .udp else .tcp

/-- What a daemon binds. -/
structure Socket where
  transport : Transport
  address : Text
  port : ℤ
deriving DecidableEq

/-- The address stands for all: none is given, or the one that IP has for it. -/
def IsWildcard (address : Text) : Prop := address ∈ [Text.of "*", .of "0.0.0.0", .of "::"]

instance (address : Text) : Decidable (IsWildcard address) :=
  inferInstanceAs (Decidable (address ∈ _))

/-- Two listeners cannot both have their socket. -/
def Contend (s s' : Socket) : Prop :=
  s.port = s'.port ∧ s.transport = s'.transport ∧
    (s.address = s'.address ∨ IsWildcard s.address ∨ IsWildcard s'.address)

instance (s s' : Socket) : Decidable (Contend s s') := inferInstanceAs (Decidable (_ ∧ _))

/-- The socket of a key. -/
def socketOf (key : Text × Text × ℤ) : Socket := ⟨transport key.1, key.2.1, key.2.2⟩

/-- Two listeners contend and their keys do not show it: the protocols differ and the transport
is one, or the addresses differ and one of them stands for all. -/
def Overlooked (key key' : Text × Text × ℤ) : Prop :=
  key.2.2 = key'.2.2 ∧ transport key.1 = transport key'.1 ∧
    ((key.2.1 = key'.2.1 ∧ key.1 ≠ key'.1) ∨
      (key.2.1 ≠ key'.2.1 ∧ (IsWildcard key.2.1 ∨ IsWildcard key'.2.1)))

theorem contend_iff_overlooked {key key' : Text × Text × ℤ} (hne : key ≠ key') :
    Contend (socketOf key) (socketOf key') ↔ Overlooked key key' := by
  refine and_congr_right fun hport => and_congr_right fun _ => ?_
  change (key.2.1 = key'.2.1 ∨ _) ↔ _
  by_cases haddress : key.2.1 = key'.2.1
  · have hprotocol : key.1 ≠ key'.1 := fun heq => hne (Prod.ext heq (Prod.ext haddress hport))
    exact iff_of_true (.inl haddress) (.inl ⟨haddress, hprotocol⟩)
  · constructor
    · rintro (heq | hwildcard)
      · exact absurd heq haddress
      · exact .inr ⟨haddress, hwildcard⟩
    · rintro (⟨heq, -⟩ | ⟨-, hwildcard⟩)
      · exact absurd heq haddress
      · exact .inr hwildcard

/-- Both are HTTP or both HTTPS, on one address and port, with different host names. -/
structure IngressFields.ShareByHostname (item item' : IngressFields) : Prop where
  web : item.protocol ∈ [Text.of "http", .of "https"]
  protocol : item.protocol = item'.protocol
  address : item.address = item'.address
  port : item.publicPort = item'.publicPort
  given : isGiven item.hostname = true ∧ isGiven item'.hostname = true
  hostname : item.hostname ≠ item'.hostname

theorem IngressFields.ShareByHostname.key_eq {item item' : IngressFields}
    (h : item.ShareByHostname item') : item.key = item'.key := by
  unfold IngressFields.key
  rw [h.protocol, h.address, h.port]

/-! ## Keys -/

/-- Where keys are distinct, no two listeners contend, but for an excuse that needs equal keys,
if and only if no two are overlooked. -/
theorem pairwise_excused_iff {α : Type} {key : α → Text × Text × ℤ} {items : List α}
    (hkeys : (items.map key).Nodup) (enabled : α → Prop) (Excused : α → α → Prop)
    (hexcused : ∀ a b, Excused a b → key a = key b) :
    (items.Pairwise fun a b => enabled a → enabled b →
        Contend (socketOf (key a)) (socketOf (key b)) → Excused a b) ↔
      items.Pairwise fun a b => enabled a → enabled b → ¬ Overlooked (key a) (key b) := by
  have hne : items.Pairwise fun a b => key a ≠ key b := List.pairwise_map.mp hkeys
  constructor
  · intro h
    refine (hne.and h).imp fun ⟨hkey, hexcuse⟩ ha hb hoverlooked => hkey (hexcused _ _ ?_)
    exact hexcuse ha hb ((contend_iff_overlooked hkey).mpr hoverlooked)
  · intro h
    refine (hne.and h).imp fun ⟨hkey, hnot⟩ ha hb hcontend => absurd ?_ (hnot ha hb)
    exact (contend_iff_overlooked hkey).mp hcontend

/-! ## What is promised -/

namespace EdgeConfig

variable {U : Unicode} (config : EdgeConfig U)

/-- Of two enabled listeners that contend, both share by host name. -/
def NoneCollide : Prop :=
  config.ingress.Pairwise fun item item' => item.enabled = true → item'.enabled = true →
    Contend (socketOf item.key) (socketOf item'.key) → item.ShareByHostname item'.toIngressFields

/-- Listeners that contend share by host name, whether they are enabled or not. -/
def AllShare : Prop :=
  config.ingress.Pairwise fun item item' =>
    Contend (socketOf item.key) (socketOf item'.key) → item.ShareByHostname item'.toIngressFields

/-- No two listeners collide in a configuration that is accepted, and one in which those that
contend share by host name is accepted, if there is nothing else against it. -/
def KeepsListenersApart : Prop :=
  (config.postInit = .ok () → config.NoneCollide) ∧
    (config.Admitted → config.AllShare → config.postInit = .ok ())

/-- Two listeners have one key. -/
def HasSharedKey : Prop := ¬ (config.ingress.map fun item => item.key).Nodup

/-- No two enabled listeners are overlooked. -/
def NoneOverlooked : Prop :=
  config.ingress.Pairwise fun item item' => item.enabled = true → item'.enabled = true →
    ¬ Overlooked item.key item'.key

variable {config}

theorem noneCollide_iff (hkeys : ¬ config.HasSharedKey) :
    config.NoneCollide ↔ config.NoneOverlooked :=
  pairwise_excused_iff (not_not.mp hkeys) (fun item => item.enabled = true)
    (fun item item' => item.ShareByHostname item'.toIngressFields)
    fun _ _ => IngressFields.ShareByHostname.key_eq

theorem keepsListenersApart_iff :
    config.KeepsListenersApart ↔
      (config.Admitted → (¬ config.HasSharedKey ∧ config.NoneOverlooked) ∨
        (config.HasSharedKey ∧ ¬ config.AllShare)) := by
  unfold KeepsListenersApart
  rw [postInit_eq_ok_iff]
  by_cases hkeys : config.HasSharedKey
  · -- refused; rightly so if some that contend do not share
    have hnodup : ¬ (config.ingress.map fun item => item.key).Nodup := hkeys
    constructor
    · intro ⟨_, haccepts⟩ hadmitted
      exact .inr ⟨hkeys, fun hshare => hnodup (haccepts hadmitted hshare).2⟩
    · intro h
      refine ⟨fun haccepted => absurd haccepted.2 hnodup, fun hadmitted hshare => ?_⟩
      rcases h hadmitted with ⟨hnone, -⟩ | ⟨-, hnot⟩
      · exact absurd hkeys hnone
      · exact absurd hshare hnot
  · -- accepted
    have hnodup : (config.ingress.map fun item => item.key).Nodup := not_not.mp hkeys
    rw [noneCollide_iff hkeys]
    constructor
    · intro ⟨hnone, _⟩ hadmitted
      exact .inl ⟨hkeys, hnone ⟨hadmitted, hnodup⟩⟩
    · intro h
      refine ⟨fun haccepted => ?_, fun hadmitted _ => ⟨hadmitted, hnodup⟩⟩
      rcases h haccepted.1 with ⟨-, hnone⟩ | ⟨hshared, -⟩
      · exact hnone
      · exact absurd hshared hkeys

end EdgeConfig

namespace NetworkInventory

/-- No two listeners contend. -/
def NoneContend (inventory : NetworkInventory) : Prop :=
  inventory.listeners.Pairwise fun listener listener' =>
    ¬ Contend (socketOf listener.key) (socketOf listener'.key)

/-- No two listeners are overlooked. -/
def NoneOverlooked (inventory : NetworkInventory) : Prop :=
  inventory.listeners.Pairwise fun listener listener' =>
    ¬ Overlooked listener.key listener'.key

theorem noneContend_iff {inventory : NetworkInventory}
    (hkeys : (inventory.listeners.map Listener.key).Nodup) :
    inventory.NoneContend ↔ inventory.NoneOverlooked := by
  have h := pairwise_excused_iff hkeys (fun _ => True) (fun _ _ => False)
    fun _ _ => False.elim
  simp only [true_implies] at h
  exact h

end NetworkInventory

/-- An edge configuration keeps its listeners apart if and only if there is something else
against it; or all keys differ, and no two enabled listeners are overlooked; or two keys are
equal, and some listeners contend that do not share by host name.  No two listeners of an
inventory that passes contend if and only if two keys are equal, or the dependencies do not
pass, or no two listeners are overlooked. -/
theorem collide_iff {U : Unicode} (config : EdgeConfig U) (limit : ℕ)
    (inventory : NetworkInventory) :
    (config.KeepsListenersApart ↔
      (config.Admitted → (¬ config.HasSharedKey ∧ config.NoneOverlooked) ∨
        (config.HasSharedKey ∧ ¬ config.AllShare))) ∧
      (((∃ result, inventory.validate limit = .ok result) → inventory.NoneContend) ↔
        ((inventory.listeners.map Listener.key).Nodup →
          NetworkInventory.checkCycles limit inventory.dependencies = .ok () →
            inventory.NoneOverlooked)) := by
  refine ⟨EdgeConfig.keepsListenersApart_iff, ?_⟩
  rw [NetworkInventory.validate_eq_ok_iff, and_imp]
  refine imp_congr_right fun hkeys => imp_congr_right fun _ => ?_
  exact NetworkInventory.noneContend_iff hkeys

/-! ## A wildcard beside an address -/

/-- The edge node that a configuration has by default. -/
def edgeNodeFields : OverlayNodeFields where
  nodeId := .of "edge-1"
  role := .of "edge"
  addresses := []
  publicIpv4 := none
  publicIpv6 := none
  hostname := none

theorem edgeNodeFields_constructed :
    ∃ given, OverlayNodeFields.postInit Archive.asciiOnly given = .ok edgeNodeFields :=
  ⟨edgeNodeFields, rfl⟩

/-- Telnet at an address, or at all. -/
def telnetFields (id : String) (publicAddress : Option Text) : IngressFields where
  ingressId := .of id
  protocol := .of "tcp"
  publicPort := 23
  targetService := .of "edge-1"
  targetPort := 23
  publicAddress := publicAddress
  targetHost := none
  hostname := none
  enabled := true

theorem telnetFields_constructed :
    (∃ given, IngressFields.postInit Archive.asciiOnly given = .ok (telnetFields "a" none)) ∧
      ∃ given, IngressFields.postInit Archive.asciiOnly given =
        .ok (telnetFields "b" (some (.of "203.0.113.10"))) :=
  ⟨⟨telnetFields "a" none, rfl⟩, ⟨telnetFields "b" (some (.of "203.0.113.10")), rfl⟩⟩

/-- Telnet at all addresses and at one of them. -/
def telnetTwice : EdgeConfig Archive.asciiOnly where
  provider := .of "headscale"
  edgeNode := ⟨edgeNodeFields, edgeNodeFields_constructed⟩
  sites := []
  publicIdentities := []
  ingress := [⟨telnetFields "a" none, telnetFields_constructed.1⟩,
    ⟨telnetFields "b" (some (.of "203.0.113.10")), telnetFields_constructed.2⟩]
  secretRefs := []

/-- It is accepted. -/
theorem telnetTwice_accepted : ¬ telnetTwice.KeepsListenersApart := by
  intro h
  have haccepted : telnetTwice.postInit = .ok () := rfl
  have hpair := List.rel_of_pairwise_cons (h.1 haccepted) List.mem_cons_self
  have hshare := hpair rfl rfl (by decide)
  exact absurd hshare.web (by decide)

end UltimateBBSBox.Network

import UltimateBBSBox.Library.Check
import UltimateBBSBox.Library.Hostname
import UltimateBBSBox.Library.Url

/-!
# The public edge

`OverlayNode`, `PrivateSite`, `PublicIdentity`, `Ingress` and `EdgeConfig` of `ubb_edge.py`,
with what their construction checks and puts in place of what it was given.  A value carries
that its construction passed.  Routes, `capabilities` and `derp_enabled` are not looked at by
the construction of a configuration and are left out.
-/

namespace UltimateBBSBox.Network

open CodePoint (ofChar)
open Url (Unicode)
open Except (refuse)
open Address (ipAddress isIPv4 isIPv6 isNetwork)
open Hostname (isIdentifier isLabel withoutDots)

/-- `EdgeConfigError`. -/
structure EdgeConfigError where
  message : String
deriving DecidableEq

/-! ## Checks of single values -/

/-- `_id`. -/
def checkId (value : Text) (label : String) : Except EdgeConfigError Unit :=
  refuse (isIdentifier value = false) ⟨"invalid " ++ label⟩

/-- `_hostname`. -/
def hostname (U : Unicode) (value : Text) : Except EdgeConfigError Text := do
  refuse (253 < (withoutDots value).length) ⟨"invalid hostname"⟩
  let value := withoutDots (U.lower value)
  refuse (value = [] ∨ ∃ part ∈ value.splitOn (ofChar '.'), isLabel part = false)
    ⟨"invalid hostname"⟩
  return value

/-- `_ip`. -/
def ip (value : Text) : Except EdgeConfigError Text :=
  match ipAddress value with
  | some address => .ok address
  | none => .error ⟨"invalid IP address"⟩

/-- `_cidr`, without the text that it returns. -/
def checkCidr (value : Text) : Except EdgeConfigError Unit :=
  refuse (isNetwork value = false) ⟨"invalid CIDR"⟩

/-- `_port`. -/
def checkPort (value : ℤ) : Except EdgeConfigError Unit :=
  refuse (¬ (1 ≤ value ∧ value ≤ 65535)) ⟨"invalid port"⟩

/-- A field that is replaced if it is given and not empty. -/
def replaced (replace : Text → Except EdgeConfigError Text) :
    Option Text → Except EdgeConfigError (Option Text)
  | none => .ok none
  | some value => if value = [] then .ok (some value) else (replace value).map some

/-! ## Parts of a configuration -/

/-- The fields of `OverlayNode`. -/
structure OverlayNodeFields where
  nodeId : Text
  role : Text
  addresses : List Text
  publicIpv4 : Option Text
  publicIpv6 : Option Text
  hostname : Option Text

/-- `OverlayNode.__post_init__`. -/
def OverlayNodeFields.postInit (U : Unicode) (node : OverlayNodeFields) :
    Except EdgeConfigError OverlayNodeFields := do
  checkId node.nodeId "node id"
  refuse (node.role ∉ [.of "edge", .of "site", .of "client"]) ⟨"invalid node role"⟩
  let addresses ← node.addresses.mapM ip
  match node.publicIpv4 with
  | some address =>
      refuse ((ipAddress address).isNone) ⟨"invalid public_ipv4"⟩
      refuse (isIPv4 address = false) ⟨"public_ipv4 must be IPv4"⟩
  | none => pure ()
  match node.publicIpv6 with
  | some address =>
      refuse ((ipAddress address).isNone) ⟨"invalid public_ipv6"⟩
      refuse (isIPv6 address = false) ⟨"public_ipv6 must be IPv6"⟩
  | none => pure ()
  let hostname ← replaced (Network.hostname U) node.hostname
  return { node with addresses, hostname }

/-- `OverlayNode`. -/
structure OverlayNode (U : Unicode) extends OverlayNodeFields where
  constructed : ∃ given, OverlayNodeFields.postInit U given = .ok toOverlayNodeFields

/-- The fields of `PrivateSite`, without the networks that are only checked. -/
structure PrivateSiteFields where
  siteId : Text
  nodeId : Text
  reachableServices : List Text
  dnsIdentity : Option Text

/-- `PrivateSite.__post_init__`. -/
def PrivateSiteFields.postInit (U : Unicode) (privateCidrs : List Text)
    (site : PrivateSiteFields) : Except EdgeConfigError PrivateSiteFields := do
  checkId site.siteId "site id"
  checkId site.nodeId "node id"
  privateCidrs.forM checkCidr
  let dnsIdentity ← replaced (hostname U) site.dnsIdentity
  return { site with dnsIdentity }

/-- `PrivateSite`. -/
structure PrivateSite (U : Unicode) extends PrivateSiteFields where
  constructed : ∃ privateCidrs given,
    PrivateSiteFields.postInit U privateCidrs given = .ok toPrivateSiteFields

/-- The fields of `PublicIdentity`, without `enabled`. -/
structure PublicIdentityFields where
  hostname : Text
  target : Text

/-- `PublicIdentity.__post_init__`. -/
def PublicIdentityFields.postInit (U : Unicode) (identity : PublicIdentityFields) :
    Except EdgeConfigError PublicIdentityFields := do
  let hostname ← Network.hostname U identity.hostname
  checkId identity.target "identity target"
  return { identity with hostname }

/-- `PublicIdentity`. -/
structure PublicIdentity (U : Unicode) extends PublicIdentityFields where
  constructed : ∃ given, PublicIdentityFields.postInit U given = .ok toPublicIdentityFields

/-- The fields of `Ingress`. -/
structure IngressFields where
  ingressId : Text
  protocol : Text
  publicPort : ℤ
  targetService : Text
  targetPort : ℤ
  publicAddress : Option Text
  targetHost : Option Text
  hostname : Option Text
  enabled : Bool

/-- A text that is given and not empty. -/
def isGiven (text : Option Text) : Bool := text.any fun text => text ≠ []

/-- `Ingress.__post_init__`. -/
def IngressFields.postInit (U : Unicode) (ingress : IngressFields) :
    Except EdgeConfigError IngressFields := do
  checkId ingress.ingressId "ingress id"
  refuse (ingress.protocol ∉ [.of "tcp", .of "udp", .of "http", .of "https"])
    ⟨"invalid ingress protocol"⟩
  checkPort ingress.publicPort
  checkPort ingress.targetPort
  checkId ingress.targetService "target service"
  let publicAddress ← replaced ip ingress.publicAddress
  let targetHost ← replaced ip ingress.targetHost
  let hostname ← replaced (Network.hostname U) ingress.hostname
  refuse (ingress.protocol ∈ [.of "tcp", .of "udp"] ∧ isGiven hostname = true)
    ⟨"hostname routing is only valid for HTTP/HTTPS ingress"⟩
  return { ingress with publicAddress, targetHost, hostname }

/-- `Ingress`. -/
structure Ingress (U : Unicode) extends IngressFields where
  constructed : ∃ given, IngressFields.postInit U given = .ok toIngressFields

/-! ## The configuration -/

/-- `EDGE_PROVIDERS`. -/
def edgeProviders : List Text :=
  [.of "headscale", .of "tailscale", .of "wireguard", .of "zerotier", .of "nebula"]

/-- `EdgeConfig`, before its check. -/
structure EdgeConfig (U : Unicode) where
  provider : Text
  edgeNode : OverlayNode U
  sites : List (PrivateSite U)
  publicIdentities : List (PublicIdentity U)
  ingress : List (Ingress U)
  secretRefs : List Text

/-- `item.public_address or "*"`. -/
def IngressFields.address (item : IngressFields) : Text :=
  match item.publicAddress with
  | some address => if address = [] then .of "*" else address
  | none => .of "*"

/-- The key under which a listener is looked for. -/
def IngressFields.key (item : IngressFields) : Text × Text × ℤ :=
  (item.protocol, item.address, item.publicPort)

namespace EdgeConfig

variable {U : Unicode} (config : EdgeConfig U)

/-- The services that a site reaches. -/
def services : List Text := config.sites.flatMap fun site => site.reachableServices

/-- The loop over the ingress, with the keys seen so far. -/
def checkIngress (seen : List (Text × Text × ℤ)) :
    List (Ingress U) → Except EdgeConfigError Unit
  | [] => .ok ()
  | item :: rest => do
      refuse (item.targetService ∉ config.services ∧ item.targetService ≠ config.edgeNode.nodeId)
        ⟨"ingress target service is not declared"⟩
      refuse (item.key ∈ seen) ⟨"conflicting public ingress listener"⟩
      checkIngress (seen ++ [item.key]) rest

/-- `EdgeConfig.__post_init__`. -/
def postInit : Except EdgeConfigError Unit := do
  refuse (config.provider ∉ edgeProviders) ⟨"unknown overlay provider"⟩
  refuse (config.edgeNode.role ≠ .of "edge") ⟨"edge_node must have edge role"⟩
  refuse (¬ (config.sites.map fun site => site.siteId).Nodup) ⟨"duplicate private site"⟩
  refuse (¬ (config.sites.map fun site => site.nodeId).Nodup) ⟨"duplicate site node"⟩
  refuse (¬ (config.publicIdentities.map fun identity => identity.hostname).Nodup)
    ⟨"duplicate public identity"⟩
  config.publicIdentities.forM fun identity =>
    refuse (identity.target ∉ config.edgeNode.nodeId :: config.services)
      ⟨"public identity target is not declared"⟩
  config.checkIngress [] config.ingress
  config.secretRefs.forM fun ref =>
    refuse (ref.head? ≠ some (ofChar '/')) ⟨"secret references must be absolute external paths"⟩

/-- What is asked of everything but the keys of the listeners. -/
structure Admitted : Prop where
  provider : config.provider ∈ edgeProviders
  role : config.edgeNode.role = .of "edge"
  sites : (config.sites.map fun site => site.siteId).Nodup
  nodes : (config.sites.map fun site => site.nodeId).Nodup
  hostnames : (config.publicIdentities.map fun identity => identity.hostname).Nodup
  identities : ∀ identity ∈ config.publicIdentities,
    identity.target ∈ config.edgeNode.nodeId :: config.services
  targets : ∀ item ∈ config.ingress,
    item.targetService ∈ config.services ∨ item.targetService = config.edgeNode.nodeId
  secretRefs : ∀ ref ∈ config.secretRefs, ref.head? = some (ofChar '/')

variable {config}

theorem checkIngress_eq_ok_iff {seen : List (Text × Text × ℤ)} {items : List (Ingress U)} :
    config.checkIngress seen items = .ok () ↔
      (∀ item ∈ items,
        item.targetService ∈ config.services ∨ item.targetService = config.edgeNode.nodeId) ∧
      (items.map fun item => item.key).Nodup ∧ ∀ item ∈ items, item.key ∉ seen := by
  induction items generalizing seen with
  | nil => simp [checkIngress]
  | cons item rest ih =>
      have htarget : ¬ (item.targetService ∉ config.services ∧
          item.targetService ≠ config.edgeNode.nodeId) ↔
          item.targetService ∈ config.services ∨ item.targetService = config.edgeNode.nodeId := by
        rw [not_and_or, not_not, not_not]
      have hfresh : item.key ∉ rest.map (fun item => item.key) ↔
          ∀ other ∈ rest, other.key ≠ item.key := by
        simp only [List.mem_map, not_exists, not_and, ne_eq]
      have hseen : ∀ other : Ingress U,
          other.key ∉ seen ++ [item.key] ↔ other.key ∉ seen ∧ other.key ≠ item.key := by
        intro other
        rw [List.mem_append, List.mem_singleton, not_or]
      rw [checkIngress, Except.check_bind_eq_ok, Except.check_bind_eq_ok, Except.refuse_eq_ok,
        Except.refuse_eq_ok, ih, htarget, List.map_cons, List.nodup_cons, List.forall_mem_cons,
        List.forall_mem_cons, hfresh]
      simp only [hseen]
      constructor
      · rintro ⟨htarget, hitem, htargets, hnodup, hrest⟩
        exact ⟨⟨htarget, htargets⟩, ⟨fun other hother => (hrest other hother).2, hnodup⟩, hitem,
          fun other hother => (hrest other hother).1⟩
      · rintro ⟨⟨htarget, htargets⟩, ⟨hkeys, hnodup⟩, hitem, hrest⟩
        exact ⟨htarget, hitem, htargets, hnodup, fun other hother =>
          ⟨hrest other hother, hkeys other hother⟩⟩

/-- A configuration is accepted if and only if everything else is admitted and the keys of its
listeners are distinct. -/
theorem postInit_eq_ok_iff :
    config.postInit = .ok () ↔
      config.Admitted ∧ (config.ingress.map fun item => item.key).Nodup := by
  unfold postInit
  simp only [Except.check_bind_eq_ok, Except.refuse_eq_ok, Except.forM_eq_ok, not_not, ne_eq,
    checkIngress_eq_ok_iff, List.not_mem_nil, not_false_eq_true, implies_true, and_true]
  constructor
  · rintro ⟨h₁, h₂, h₃, h₄, h₅, h₆, ⟨h₇, hkeys⟩, h₈⟩
    exact ⟨⟨h₁, h₂, h₃, h₄, h₅, h₆, h₇, h₈⟩, hkeys⟩
  · rintro ⟨⟨h₁, h₂, h₃, h₄, h₅, h₆, h₇, h₈⟩, hkeys⟩
    exact ⟨h₁, h₂, h₃, h₄, h₅, h₆, ⟨h₇, hkeys⟩, h₈⟩

end EdgeConfig

end UltimateBBSBox.Network

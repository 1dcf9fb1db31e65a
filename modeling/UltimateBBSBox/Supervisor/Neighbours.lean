import UltimateBBSBox.Supervisor.Fleet
import UltimateBBSBox.Supervisor.LastRuns

/-!
# Due jobs and their neighbours

`tick` first marks what is due in all services and then runs it, job after job.  A job that
was marked waits for its whole interval before it is due again, so an exception in between
swallows it: one that ends the marking swallows all that was marked so far, and one out of a
maintenance run all that is behind it in the list.

A job is named by its service and its name, the `key` of the source.
-/

namespace UltimateBBSBox.Supervisor

open Act

variable {σ : Type}

/-- The last run of a job. -/
def lastRun (fleet : String → Cell σ) (job : String × String) : Option DateTime :=
  (fleet job.1).inst.scheduleLastRun.get? job.2

/-- `(service_id, job_id)`. -/
def jobKey (job : Service × String) : String × String := (job.1.id, job.2)

namespace Site

variable (site : Site σ)

/-- The body of the second loop of `tick`. -/
def runJob (fuel : ℕ) (job : Service × String) : Act (String → Cell σ) Exn Unit :=
  atIndex job.1.id do
    let _ ← runMaintenance (site.context job.1) fuel job.2

/-- The jobs that the sections of `tick` mark, also where one of them raises. -/
def marks (fuel : ℕ) (now : DateTime) : List Service → (String → Cell σ) → List (Service × String)
  | [], _ => []
  | service :: rest, fleet =>
      (tickMarks (site.context service) fuel now (fleet service.id)).map (service, ·) ++
        match (tickLocked (site.context service) fuel now).run (fleet service.id) with
        | some (.ok _, c) => marks fuel now rest (Function.update fleet service.id c)
        | _ => []

/-- The jobs of a list that the loop hands to `run_maintenance`: all up to the first whose
run does not return. -/
def handed (fuel : ℕ) : List (Service × String) → (String → Cell σ) → List (Service × String)
  | [], _ => []
  | job :: rest, fleet =>
      job :: match (site.runJob fuel job).run fleet with
        | some (.ok _, fleet') => handed fuel rest fleet'
        | _ => []

/-- The jobs that a `tick` hands to `run_maintenance`. -/
def tickHanded (fuel : ℕ) (now : DateTime) (fleet : String → Cell σ) : List (Service × String) :=
  match (site.reconcile fuel).run fleet with
  | some (.ok _, fleet₁) =>
      match (site.tickServices fuel now site.registry.services).run fleet₁ with
      | some (.ok due, fleet₂) => site.handed fuel due fleet₂
      | _ => []
  | _ => []

/-- A `tick` that comes back has handed on every job whose last run it advanced. -/
def SwallowsNoJob (fuel : ℕ) (now : DateTime) (fleet : String → Cell σ) : Prop :=
  ∀ r fleet', (site.tick fuel now).run fleet = some (r, fleet') →
    ∀ job, lastRun fleet' job ≠ lastRun fleet job → job ∈ (site.tickHanded fuel now fleet).map jobKey

/-- Where `reconcile` returns, a marking pass that raises has marked nothing, and of the jobs
that a pass returns none raises but the last. -/
structure NothingBehind (fuel : ℕ) (now : DateTime) (fleet : String → Cell σ) : Prop where
  pass : ∀ listing fleet₁ e fleet₂, (site.reconcile fuel).run fleet = some (.ok listing, fleet₁) →
    (site.tickServices fuel now site.registry.services).run fleet₁ = some (.error e, fleet₂) →
      site.marks fuel now site.registry.services fleet₁ = []
  runs : ∀ listing fleet₁ due fleet₂, (site.reconcile fuel).run fleet = some (.ok listing, fleet₁) →
    (site.tickServices fuel now site.registry.services).run fleet₁ = some (.ok due, fleet₂) →
      ∀ front job back fleet₃ e fleet₄, due = front ++ job :: back →
        (forEach front (site.runJob fuel)).run fleet₂ = some (.ok (), fleet₃) →
          (site.runJob fuel job).run fleet₃ = some (.error e, fleet₄) → back = []

end Site

/-! ## The two loops -/

section Loops

variable {site : Site σ} {fuel : ℕ} {now : DateTime} {fleet fleet' fleet₁ fleet₂ : String → Cell σ}

theorem lastRun_update (id : String) (c : Cell σ) (job : String × String) :
    lastRun (Function.update fleet id c) job =
      if job.1 = id then c.inst.scheduleLastRun.get? job.2 else lastRun fleet job := by
  unfold lastRun
  by_cases h : job.1 = id
  · rw [if_pos h, h, Function.update_self]
  · rw [if_neg h, Function.update_of_ne h]

/-- A reconciliation leaves all last runs alone. -/
theorem wlp_reconcile_lastRun :
    wlp (site.reconcile fuel) (fun _ fleet' => lastRun fleet' = lastRun fleet)
      (fun _ fleet' => lastRun fleet' = lastRun fleet) fleet := by
  have hloop : ∀ services fleet, wlp (forEach services fun service : Service =>
      atIndex service.id (reconcileLocked (site.context service) fuel))
      (fun _ fleet' => lastRun fleet' = lastRun fleet)
      (fun _ fleet' => lastRun fleet' = lastRun fleet) fleet := by
    intro services
    induction services with
    | nil => exact fun fleet => wlp_pure.mpr rfl
    | cons service rest ih =>
        intro fleet
        have hkept := runs_reconcileLocked (C := site.context service) (J := ∅) fuel (fleet service.id)
        have hsame : ∀ c', KeepsRuns ∅ (fleet service.id) c' →
            lastRun (Function.update fleet service.id c') = lastRun fleet := by
          intro c' hc'
          funext job
          rw [lastRun_update]
          split
          · rename_i hid
            rw [hc'.memory job.2 (Set.notMem_empty _)]
            unfold lastRun
            rw [hid]
          · rfl
        refine wlp_bind.mpr ?_
        unfold wlp at hkept ⊢
        rw [run_atIndex]
        cases hrun : (reconcileLocked (site.context service) fuel).run (fleet service.id) with
        | none => trivial
        | some result =>
            obtain ⟨r, c'⟩ := result
            rw [hrun] at hkept
            cases r with
            | error e => exact hsame c' hkept
            | ok _ =>
                have hrest := ih (Function.update fleet service.id c')
                rw [hsame c' hkept] at hrest
                exact hrest
  refine wlp_bind.mpr <| wlp_mono (hloop site.registry.services fleet) (fun _ _ h => ?_) fun _ _ h => h
  exact wlp_bind.mpr <| wlp_get.mpr <| wlp_pure.mpr h

/-- The last runs after a pass over services that marked these jobs. -/
def PassMarked (now : DateTime) (marked : List (Service × String)) (fleet fleet' : String → Cell σ) : Prop :=
  ∀ job, lastRun fleet' job = if job ∈ marked.map jobKey then some now else lastRun fleet job

theorem eq_nil_of_jobKey {jobs : List (Service × String)} (h : ∀ job, job ∉ jobs.map jobKey) :
    jobs = [] :=
  List.map_eq_nil_iff.mp (List.eq_nil_iff_forall_not_mem.mpr h)

theorem mem_map_jobKey {service : Service} {names : List String} {job : String × String} :
    job ∈ (names.map fun name => (service, name)).map jobKey ↔ job.1 = service.id ∧ job.2 ∈ names := by
  rw [List.map_map]
  constructor
  · intro h
    obtain ⟨name, hname, rfl⟩ := List.mem_map.mp h
    exact ⟨rfl, hname⟩
  · rintro ⟨hid, hname⟩
    exact List.mem_map.mpr ⟨job.2, hname, Prod.ext hid.symm rfl⟩

/-- The section of one service marks its jobs in the fleet. -/
theorem passMarked_section {service : Service} {names : List String} {c : Cell σ}
    (h : Marked now names (fleet service.id) c) :
    PassMarked now (names.map (service, ·)) fleet (Function.update fleet service.id c) := by
  intro job
  rw [lastRun_update]
  by_cases hid : job.1 = service.id
  · rw [if_pos hid, h job.2]
    have hlast : (fleet service.id).inst.scheduleLastRun.get? job.2 = lastRun fleet job := by
      unfold lastRun
      rw [hid]
    by_cases hname : job.2 ∈ names
    · rw [if_pos hname, if_pos (mem_map_jobKey.mpr ⟨hid, hname⟩)]
    · rw [if_neg hname, if_neg fun hmem => hname (mem_map_jobKey.mp hmem).2, hlast]
  · rw [if_neg hid, if_neg fun hmem => hid (mem_map_jobKey.mp hmem).1]

theorem PassMarked.append {first second : List (Service × String)}
    (h : PassMarked now first fleet fleet₁) (h' : PassMarked now second fleet₁ fleet₂) :
    PassMarked now (first ++ second) fleet fleet₂ := by
  intro job
  rw [h' job, h job, List.map_append]
  by_cases hsecond : job ∈ second.map jobKey
  · rw [if_pos hsecond, if_pos (List.mem_append_right _ hsecond)]
  · rw [if_neg hsecond]
    by_cases hfirst : job ∈ first.map jobKey
    · rw [if_pos hfirst, if_pos (List.mem_append_left _ hfirst)]
    · rw [if_neg hfirst, if_neg fun hmem => (List.mem_append.mp hmem).elim hfirst hsecond]

/-- A pass marks the jobs that it returns, and where it raises, those of the sections so far. -/
theorem wlp_tickServices (services : List Service) (fleet : String → Cell σ) :
    wlp (site.tickServices fuel now services)
      (fun due fleet' => due = site.marks fuel now services fleet ∧
        PassMarked now (site.marks fuel now services fleet) fleet fleet')
      (fun _ fleet' => PassMarked now (site.marks fuel now services fleet) fleet fleet') fleet := by
  induction services generalizing fleet with
  | nil => exact wlp_pure.mpr ⟨rfl, fun _ => (if_neg List.not_mem_nil).symm⟩
  | cons service rest ih =>
      have hsection := wlp_tickLocked_marks (C := site.context service) fuel now (fleet service.id)
      refine wlp_bind.mpr ?_
      unfold Site.marks
      unfold wlp at hsection ⊢
      rw [run_atIndex]
      cases hrun : (tickLocked (site.context service) fuel now).run (fleet service.id) with
      | none => trivial
      | some result =>
          obtain ⟨r, c⟩ := result
          rw [hrun] at hsection
          cases r with
          | error e =>
              dsimp only [Option.map_some]
              rw [List.append_nil]
              exact passMarked_section hsection
          | ok names =>
              have hmarked := passMarked_section (σ := σ) hsection.2
              refine wlp_bind.mpr <| wlp_mono (ih (Function.update fleet service.id c)) ?_ ?_
              · intro due fleet' h
                refine wlp_pure.mpr ⟨?_, hmarked.append h.2⟩
                rw [h.1, hsection.1]
              · exact fun _ fleet' h => hmarked.append h

/-- A pass marks no job twice, and each one only after its last run. -/
theorem marks_spec (services : List Service) (fleet : String → Cell σ) :
    ((site.marks fuel now services fleet).map jobKey).Nodup ∧
      ∀ job ∈ (site.marks fuel now services fleet).map jobKey, lastRun fleet job ≠ some now := by
  induction services generalizing fleet with
  | nil => exact ⟨List.nodup_nil, fun job h => absurd h List.not_mem_nil⟩
  | cons service rest ih =>
      unfold Site.marks
      rw [List.map_append]
      have hsection : ∀ job ∈ ((tickMarks (site.context service) fuel now (fleet service.id)).map
          (service, ·)).map jobKey, lastRun fleet job ≠ some now := by
        intro job hjob
        obtain ⟨hid, hname⟩ := mem_map_jobKey.mp hjob
        unfold lastRun
        rw [hid]
        exact ne_of_mem_tickMarks hname
      have hnodup : (((tickMarks (site.context service) fuel now (fleet service.id)).map
          (service, ·)).map jobKey).Nodup := by
        rw [List.map_map]
        exact (nodup_tickMarks fuel now _).map fun _ _ h => congrArg Prod.snd h
      split
      · rename_i names c hrun
        have hmarked := @passMarked_section σ now fleet service _ _
          (wlp_ok (wlp_tickLocked_marks (C := site.context service) fuel now (fleet service.id)) hrun).2
        obtain ⟨hrest, hlater⟩ := ih (Function.update fleet service.id c)
        -- what this section marked is not due for the sections behind it
        have hother : ∀ job ∈ (site.marks fuel now rest (Function.update fleet service.id c)).map jobKey,
            job ∉ ((tickMarks (site.context service) fuel now (fleet service.id)).map
              (service, ·)).map jobKey := by
          intro job hjob hmem
          refine hlater job hjob ?_
          rw [hmarked job, if_pos hmem]
        refine ⟨List.nodup_append.mpr ⟨hnodup, hrest, fun job hjob other hmem heq =>
          hother other hmem (heq ▸ hjob)⟩, fun job hjob => ?_⟩
        rcases List.mem_append.mp hjob with hfirst | hsecond
        · exact hsection job hfirst
        · have hlast := hlater job hsecond
          rwa [hmarked job, if_neg (hother job hsecond)] at hlast
      · rw [List.map_nil, List.append_nil]
        exact ⟨hnodup, hsection⟩

/-- A maintenance run writes no last run but that of its job. -/
theorem wlp_runJob (job : Service × String) (fleet : String → Cell σ) :
    wlp (site.runJob fuel job)
      (fun _ fleet' => ∀ other, other ≠ jobKey job → lastRun fleet' other = lastRun fleet other)
      (fun _ fleet' => ∀ other, other ≠ jobKey job → lastRun fleet' other = lastRun fleet other)
      fleet := by
  have hkept : Within (KeepsRuns {job.2}) (do let _ ← runMaintenance (site.context job.1) fuel job.2) :=
    within_bind (runs_runMaintenance fuel job.2) fun _ => within_pure _
  have hrun := hkept (fleet job.1.id)
  have hsame : ∀ c', KeepsRuns {job.2} (fleet job.1.id) c' → ∀ other, other ≠ jobKey job →
      lastRun (Function.update fleet job.1.id c') other = lastRun fleet other := by
    intro c' hc' other hother
    rw [lastRun_update]
    split
    · rename_i hid
      rw [hc'.memory other.2 fun hname => hother (Prod.ext hid hname)]
      unfold lastRun
      rw [hid]
    · rfl
  unfold Site.runJob
  unfold wlp at hrun ⊢
  rw [run_atIndex]
  cases hresult : (do let _ ← runMaintenance (site.context job.1) fuel job.2 : Prog σ Unit).run
      (fleet job.1.id) with
  | none => trivial
  | some result =>
      obtain ⟨r, c'⟩ := result
      rw [hresult] at hrun
      cases r <;> exact hsame c' hrun

theorem handed_cons_of_ok {job : Service × String} {rest : List (Service × String)}
    (h : (site.runJob fuel job).run fleet = some (.ok (), fleet')) :
    site.handed fuel (job :: rest) fleet = job :: site.handed fuel rest fleet' := by
  rw [Site.handed, h]

theorem handed_cons_of_error {job : Service × String} {rest : List (Service × String)} {e : Exn}
    (h : (site.runJob fuel job).run fleet = some (.error e, fleet')) :
    site.handed fuel (job :: rest) fleet = [job] := by
  rw [Site.handed, h]

/-- The loop writes no last run but those of the jobs that it hands on. -/
theorem wlp_runJobs (due : List (Service × String)) (fleet : String → Cell σ) :
    wlp (forEach due (site.runJob fuel))
      (fun _ fleet' => due = site.handed fuel due fleet ∧
        ∀ job ∉ (site.handed fuel due fleet).map jobKey, lastRun fleet' job = lastRun fleet job)
      (fun _ fleet' =>
        ∀ job ∉ (site.handed fuel due fleet).map jobKey, lastRun fleet' job = lastRun fleet job)
      fleet := by
  induction due generalizing fleet with
  | nil => exact wlp_pure.mpr ⟨rfl, fun _ _ => rfl⟩
  | cons job rest ih =>
      have hjob := @wlp_runJob σ site fuel job fleet
      refine wlp_bind.mpr ?_
      unfold wlp at hjob ⊢
      cases hrun : (site.runJob fuel job).run fleet with
      | none => trivial
      | some result =>
          obtain ⟨r, fleet₁⟩ := result
          rw [hrun] at hjob
          cases r with
          | error e =>
              rw [handed_cons_of_error hrun]
              intro other hother
              exact hjob other fun heq => hother (heq ▸ List.mem_cons_self)
          | ok _ =>
              rw [handed_cons_of_ok hrun]
              have hkept : ∀ {fleet' : String → Cell σ}, (∀ other ∉ (site.handed fuel rest fleet₁).map jobKey,
                  lastRun fleet' other = lastRun fleet₁ other) →
                  ∀ other ∉ (job :: site.handed fuel rest fleet₁).map jobKey,
                    lastRun fleet' other = lastRun fleet other := by
                intro fleet' h other hother
                rw [List.map_cons, List.mem_cons, not_or] at hother
                rw [h other hother.2, hjob other hother.1]
              exact wlp_mono (ih fleet₁) (fun _ _ h => ⟨congrArg (job :: ·) h.1, hkept h.2⟩)
                fun _ _ h => hkept h

/-- Of a list that a job ends, the loop hands on what is in front of it, and the job. -/
theorem handed_append {front back : List (Service × String)} {job : Service × String} {e : Exn}
    {fleet₃ fleet₄ : String → Cell σ}
    (hfront : (forEach front (site.runJob fuel)).run fleet = some (.ok (), fleet₃))
    (hjob : (site.runJob fuel job).run fleet₃ = some (.error e, fleet₄)) :
    site.handed fuel (front ++ job :: back) fleet = front ++ [job] := by
  induction front generalizing fleet with
  | nil =>
      cases hfront
      exact handed_cons_of_error hjob
  | cons first front ih =>
      cases hrun : (site.runJob fuel first).run fleet with
      | none => simp [run_forEach_of_none hrun] at hfront
      | some result =>
          obtain ⟨r, fleet₁⟩ := result
          cases r with
          | error e => simp [run_forEach_of_error hrun] at hfront
          | ok _ =>
              rw [run_forEach_of_ok hrun] at hfront
              rw [List.cons_append, handed_cons_of_ok hrun, ih hfront]
              rfl

end Loops

/-! ## A whole tick -/

namespace Site

variable {site : Site σ} {fuel : ℕ} {now : DateTime} {fleet fleet' fleet₁ fleet₂ : String → Cell σ}

/-- What a `tick` does after `reconcile` and the marking pass have returned. -/
theorem run_tick_of_pass {listing : List Document} {due : List (Service × String)}
    (hreconcile : (site.reconcile fuel).run fleet = some (.ok listing, fleet₁))
    (hpass : (site.tickServices fuel now site.registry.services).run fleet₁ = some (.ok due, fleet₂)) :
    (site.tick fuel now).run fleet =
      (forEach due (site.runJob fuel) >>= fun _ => site.listStatus).run fleet₂ := by
  unfold tick
  rw [run_bind, hreconcile]
  dsimp only
  rw [run_bind, hpass]
  rfl

theorem tickHanded_of_pass {listing : List Document} {due : List (Service × String)}
    (hreconcile : (site.reconcile fuel).run fleet = some (.ok listing, fleet₁))
    (hpass : (site.tickServices fuel now site.registry.services).run fleet₁ = some (.ok due, fleet₂)) :
    site.tickHanded fuel now fleet = site.handed fuel due fleet₂ := by
  unfold tickHanded
  rw [hreconcile]
  dsimp only
  rw [hpass]

theorem run_tick_of_reconcile_error {e : Exn}
    (hreconcile : (site.reconcile fuel).run fleet = some (.error e, fleet₁)) :
    (site.tick fuel now).run fleet = some (.error e, fleet₁) := by
  rw [tick, run_bind, hreconcile]

theorem run_tick_of_pass_error {listing : List Document} {e : Exn}
    (hreconcile : (site.reconcile fuel).run fleet = some (.ok listing, fleet₁))
    (hpass : (site.tickServices fuel now site.registry.services).run fleet₁ = some (.error e, fleet₂)) :
    (site.tick fuel now).run fleet = some (.error e, fleet₂) ∧
      site.tickHanded fuel now fleet = [] := by
  constructor
  · rw [tick, run_bind, hreconcile]
    dsimp only
    rw [run_bind, hpass]
  · unfold tickHanded
    rw [hreconcile]
    dsimp only
    rw [hpass]

/-- What is marked has another last run than before. -/
theorem advanced_of_passMarked {marked : List (Service × String)} {job : String × String}
    (hspec : ∀ job ∈ marked.map jobKey, lastRun fleet₁ job ≠ some now)
    (hsame : lastRun fleet₁ = lastRun fleet) (hmarked : PassMarked now marked fleet₁ fleet')
    (hjob : job ∈ marked.map jobKey) : lastRun fleet' job ≠ lastRun fleet job := by
  rw [hmarked job, if_pos hjob, ← hsame]
  exact fun heq => hspec job hjob heq.symm

/-- **When no job is swallowed by a neighbour.** -/
theorem swallowsNoJob_iff (site : Site σ) (fuel : ℕ) (now : DateTime) (fleet : String → Cell σ) :
    site.SwallowsNoJob fuel now fleet ↔ site.NothingBehind fuel now fleet := by
  constructor
  · intro hnone
    constructor
    · intro listing fleet₁ e fleet₂ hreconcile hpass
      obtain ⟨hrun, hhanded⟩ := run_tick_of_pass_error hreconcile hpass
      have hmarked := wlp_error (wlp_tickServices _ _) hpass
      have hsame := wlp_ok wlp_reconcile_lastRun hreconcile
      refine eq_nil_of_jobKey fun job hjob => ?_
      have hmem := hnone _ _ hrun job
        (advanced_of_passMarked (marks_spec _ _).2 hsame hmarked hjob)
      rw [hhanded] at hmem
      exact List.not_mem_nil hmem
    · rintro listing fleet₁ due fleet₂ hreconcile hpass front job back fleet₃ e fleet₄ rfl hfront hjob
      obtain ⟨hdue, hmarked⟩ := wlp_ok (wlp_tickServices _ _) hpass
      obtain ⟨hnodup, hlater⟩ := @marks_spec σ site fuel now site.registry.services fleet₁
      rw [← hdue] at hnodup hlater hmarked
      have hsame := wlp_ok wlp_reconcile_lastRun hreconcile
      have hloop : (forEach (front ++ job :: back) (site.runJob fuel)).run fleet₂ =
          some (.error e, fleet₄) := run_forEach_eq_error_iff.mpr ⟨_, _, _, _, rfl, hfront, hjob⟩
      have hrun : (site.tick fuel now).run fleet = some (.error e, fleet₄) := by
        rw [run_tick_of_pass hreconcile hpass, run_bind, hloop]
      have hhanded := @handed_append σ site fuel fleet₂ front back job e fleet₃ fleet₄ hfront hjob
      rw [List.append_cons, List.map_append, List.nodup_append] at hnodup
      obtain ⟨-, -, hdisjoint⟩ := hnodup
      -- a job behind keeps its mark, and is not handed on
      refine eq_nil_of_jobKey fun other hother => ?_
      have hother' : other ∈ (front ++ job :: back).map jobKey := by
        rw [List.append_cons, List.map_append]
        exact List.mem_append_right _ hother
      have hmissed : other ∉ (site.handed fuel (front ++ job :: back) fleet₂).map jobKey := by
        rw [hhanded]
        exact fun hmem => hdisjoint other hmem other hother rfl
      have hkept := wlp_error (wlp_runJobs _ _) hloop other hmissed
      refine hmissed ?_
      rw [← tickHanded_of_pass hreconcile hpass]
      refine hnone _ _ hrun other ?_
      rw [hkept]
      exact advanced_of_passMarked hlater hsame hmarked hother'
  · rintro ⟨hraised, hreturned⟩ r fleet' hrun job hadvanced
    cases hreconcile : (site.reconcile fuel).run fleet with
    | none =>
        rw [tick, run_bind, hreconcile] at hrun
        cases hrun
    | some result =>
        obtain ⟨r₁, fleet₁⟩ := result
        cases r₁ with
        | error e =>
            rw [run_tick_of_reconcile_error hreconcile] at hrun
            cases hrun
            rw [wlp_error wlp_reconcile_lastRun hreconcile] at hadvanced
            exact absurd rfl hadvanced
        | ok listing =>
            have hsame := wlp_ok wlp_reconcile_lastRun hreconcile
            cases hpass : (site.tickServices fuel now site.registry.services).run fleet₁ with
            | none =>
                rw [tick, run_bind, hreconcile] at hrun
                dsimp only at hrun
                rw [run_bind, hpass] at hrun
                cases hrun
            | some result =>
                obtain ⟨r₂, fleet₂⟩ := result
                cases r₂ with
                | error e =>
                    obtain ⟨hrun', -⟩ := run_tick_of_pass_error hreconcile hpass
                    rw [hrun'] at hrun
                    cases hrun
                    have hmarked := wlp_error (wlp_tickServices _ _) hpass job
                    rw [hraised listing fleet₁ e fleet' hreconcile hpass, List.map_nil,
                      if_neg List.not_mem_nil, hsame] at hmarked
                    exact absurd hmarked hadvanced
                | ok due =>
                    obtain ⟨hdue, hmarked⟩ := wlp_ok (wlp_tickServices _ _) hpass
                    rw [run_tick_of_pass hreconcile hpass, run_bind] at hrun
                    rw [tickHanded_of_pass hreconcile hpass]
                    have hall : due = site.handed fuel due fleet₂ ∧
                        ∀ other ∉ (site.handed fuel due fleet₂).map jobKey,
                          lastRun fleet' other = lastRun fleet₂ other := by
                      cases hloop : (forEach due (site.runJob fuel)).run fleet₂ with
                      | none =>
                          rw [hloop] at hrun
                          cases hrun
                      | some result =>
                          obtain ⟨r₃, fleet₃⟩ := result
                          rw [hloop] at hrun
                          cases r₃ with
                          | ok _ =>
                              cases hrun
                              exact wlp_ok (wlp_runJobs due fleet₂) hloop
                          | error e =>
                              cases hrun
                              refine ⟨?_, wlp_error (wlp_runJobs due fleet₂) hloop⟩
                              obtain ⟨front, last, back, fleet₃, hsplit, hfront, hlast⟩ :=
                                run_forEach_eq_error_iff.mp hloop
                              obtain rfl := hreturned listing fleet₁ due fleet₂ hreconcile hpass front
                                last back fleet₃ e fleet' hsplit hfront hlast
                              rw [hsplit, handed_append hfront hlast]
                    by_contra hmissed
                    refine hadvanced ?_
                    rw [hall.2 job hmissed, hmarked job, hsame, ← hdue, hall.1, if_neg hmissed]

end Site

end UltimateBBSBox.Supervisor

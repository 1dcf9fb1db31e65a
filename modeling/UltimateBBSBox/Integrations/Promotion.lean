import UltimateBBSBox.Integrations.Readiness
import UltimateBBSBox.Integrations.Updates
import UltimateBBSBox.Library.Faults

/-!
# Promotion of a release

`promote` of `AmiExpressAmigaIntegration` makes a development release the current one if
its qualification record passes two tests.  Readiness is another matter
(`promote_guarded_iff`).

Of the install root only the qualification records and the deployment file matter; the
deployment file is replaced as a whole.
-/

namespace UltimateBBSBox.Integrations

open Archive Act Faulty

/-- `AmiExpressRelease`, as far as `promote` reads it. -/
structure Release where
  artifactId : Text
  channel : Text

/-- What is below the install root: what comes of reading and parsing each file, if there is one. -/
structure InstallRoot where
  qualification : Text → Option (Except Archive.Exn Value)
  deployment : Option (Except Archive.Exn Value)

/-- The file operations of `promote`. -/
inductive Step | resolve | makeDirectory | write | replace
deriving DecidableEq

/-- Which operations fail, and with what. -/
abbrev Failures : Type := Step → Option (Exn × ℕ)

/-! ## The tests -/

/-- `any(item.get("status") == name for item in items)`. -/
def anyStatus (name : String) : List Value → Except Archive.Exn Bool
  | [] => .ok false
  | item :: rest => do
      let status ← item.get "status" .null
      if status.isText (.of name) then .ok true else anyStatus name rest

/-- `_release_for_artifact`. -/
def releaseForArtifact (releases : List Release) (artifactId : Text) : Except Exn Release :=
  match releases.find? fun release => release.artifactId = artifactId with
  | some release => .ok release
  | none => .error (.artifactRequiredError (.of "artifact is not a known AmiExpress release: " ++ artifactId))

/-- The release has to be of the development channel. -/
def selectDevelopment (releases : List Release) (artifactId : Text) : Except Exn Unit := do
  let release ← releaseForArtifact releases artifactId
  refuse (release.channel ≠ .of "development")
    "only development-channel releases can be promoted as current"

/-- The release becomes the current one, the current one the previous one, and no candidate any more. -/
def switchTo (artifactId : Text) (fields : Fields) : Except Archive.Exn Value := do
  let old := (fields.get? "current").getD .null
  let fields : Fields := Fields.set (fields.set "previous" old) "current" (.text artifactId)
  let candidates ← ((fields.get? "candidates").getD (.array [])).elements
  return .object (fields.set "candidates"
    (.array (candidates.filter fun item => item.isText artifactId = false)))

namespace InstallRoot

variable (root : InstallRoot) (artifactId : Text) (approveHuman : Bool)

/-- The results in the qualification record. -/
def results : Except Exn (List Value) :=
  match root.qualification artifactId with
  | none => .error (.artifactRequiredError (.of "release has no qualification record"))
  | some read => ofLibrary do
      let results ← (← read).get "results" (.array [])
      results.elements

/-- The two tests of the results. -/
def test : Except Exn Unit := do
  let results ← root.results artifactId
  let failed ← ofLibrary (anyStatus "FAIL" results)
  refuse failed "failed release cannot be promoted"
  if approveHuman = false then do
    let waiting ← ofLibrary (anyStatus "HUMAN_REQUIRED" results)
    refuse waiting "operator approval is required for HUMAN_REQUIRED checks"
  else .ok ()

/-- `deployment_status`. -/
def deploymentStatus : Except Archive.Exn Value :=
  match root.deployment with
  | none => .ok (.object [(.of "current", .null), (.of "previous", .null), (.of "candidates", .array [])])
  | some read => read

/-- The deployment state that has the release as the current one. -/
def promoted : Except Archive.Exn Value := do
  match ← root.deploymentStatus with
  | .object fields => switchTo artifactId fields
  | _ => Value.attributeError

end InstallRoot

/-- `promote`. -/
def promote (releases : List Release) (failures : Failures) (artifactId : Text) (approveHuman : Bool) :
    Act InstallRoot Exn Value := do
  Act.ofExcept (selectDevelopment releases artifactId)
  attempt (failures .resolve) (fun _ => id) id
  let root ← get
  Act.ofExcept (root.test artifactId approveHuman)
  let state ← Act.ofExcept (ofLibrary (root.promoted artifactId))
  attempt (failures .makeDirectory) (fun _ => id) id
  attempt (failures .write) (fun _ => id) id
  attempt (failures .replace) (fun _ => id) fun root =>
    { root with deployment := some (.ok state.sortKeys) }
  return state

/-! ## What a call comes to -/

section Calls

variable {releases : List Release} {failures : Failures} {root : InstallRoot} {artifactId : Text}
  {approveHuman : Bool} {results statuses : List Value} {state : Value}

theorem statusesOf_cons (item : Value) (rest : List Value) :
    statusesOf (item :: rest) = item.get "status" .null >>= fun status =>
      statusesOf rest >>= fun others => .ok (status :: others) := by
  unfold statusesOf
  rw [List.mapM_cons]
  rfl

/-- No result has the status: then all of them are objects. -/
theorem anyStatus_eq_false_iff {name : String} {items : List Value} :
    anyStatus name items = .ok false ↔
      ∃ statuses, statusesOf items = .ok statuses ∧ listed name statuses = false := by
  induction items with
  | nil => exact ⟨fun _ => ⟨[], rfl, rfl⟩, fun _ => rfl⟩
  | cons item rest ih =>
      unfold anyStatus
      rw [statusesOf_cons]
      simp only [Except.bind_eq_ok]
      constructor
      · rintro ⟨status, hstatus, hrest⟩
        by_cases htext : status.isText (.of name) = true
        · rw [if_pos htext] at hrest
          cases hrest
        · rw [if_neg htext, ih] at hrest
          obtain ⟨others, hothers, hnot⟩ := hrest
          exact ⟨status :: others, ⟨status, hstatus, others, hothers, rfl⟩,
            by simpa [listed, htext] using hnot⟩
      · rintro ⟨statuses, ⟨status, hstatus, others, hothers, heq⟩, hnot⟩
        obtain rfl := Except.ok.inj heq
        obtain ⟨hfirst, hrest⟩ : status.isText (.of name) = false ∧ listed name others = false := by
          simpa [listed] using hnot
        refine ⟨status, hstatus, ?_⟩
        rw [if_neg (by simp [hfirst]), ih]
        exact ⟨others, hothers, hrest⟩

/-- The two tests are passed exactly where no status is in the way. -/
theorem test_eq_ok_iff : root.test artifactId approveHuman = .ok () ↔
    ∃ results statuses, root.results artifactId = .ok results ∧ statusesOf results = .ok statuses ∧
      listed "FAIL" statuses = false ∧
        (approveHuman = false → listed "HUMAN_REQUIRED" statuses = false) := by
  unfold InstallRoot.test
  simp only [Except.bind_eq_ok, ofLibrary_eq_ok]
  constructor
  · rintro ⟨results, hresults, failed, hfailed, _, hrefused, happroved⟩
    obtain rfl : failed = false := refuse_eq_ok.mp hrefused
    obtain ⟨statuses, hstatuses, hfail⟩ := anyStatus_eq_false_iff.mp hfailed
    refine ⟨results, statuses, hresults, hstatuses, hfail, ?_⟩
    intro hunapproved
    rw [if_pos hunapproved] at happroved
    simp only [Except.bind_eq_ok, ofLibrary_eq_ok, refuse_eq_ok] at happroved
    obtain ⟨waiting, hwaiting, hnone⟩ := happroved
    subst hnone
    obtain ⟨statuses', hstatuses', hhuman⟩ := anyStatus_eq_false_iff.mp hwaiting
    obtain rfl := Except.ok.inj (hstatuses.symm.trans hstatuses')
    exact hhuman
  · rintro ⟨results, statuses, hresults, hstatuses, hfail, happroved⟩
    refine ⟨results, hresults, false, anyStatus_eq_false_iff.mpr ⟨statuses, hstatuses, hfail⟩, (), rfl,
      ?_⟩
    by_cases hunapproved : approveHuman = false
    · rw [if_pos hunapproved]
      simp only [Except.bind_eq_ok, ofLibrary_eq_ok, refuse_eq_ok]
      exact ⟨false, anyStatus_eq_false_iff.mpr ⟨statuses, hstatuses, happroved hunapproved⟩, rfl⟩
    · rw [if_neg hunapproved]

/-- The call passes its tests, and can read and write what it needs. -/
structure Passes (releases : List Release) (failures : Failures) (root : InstallRoot) (artifactId : Text)
    (approveHuman : Bool) (results statuses : List Value) (state : Value) : Prop where
  development : selectDevelopment releases artifactId = .ok ()
  unfailing : ∀ step, failures step = none
  read : root.results artifactId = .ok results
  objects : statusesOf results = .ok statuses
  unfailed : listed "FAIL" statuses = false
  approved : approveHuman = false → listed "HUMAN_REQUIRED" statuses = false
  state : root.promoted artifactId = .ok state

/-- The install root with a deployment state in its file. -/
def InstallRoot.deploy (root : InstallRoot) (state : Value) : InstallRoot :=
  { root with deployment := some (.ok state.sortKeys) }

/-- What a call that returns has passed, and what it leaves. -/
theorem wlp_promote : wlp (promote releases failures artifactId approveHuman)
    (fun state root' => root' = root.deploy state ∧ ∃ results statuses,
      Passes releases failures root artifactId approveHuman results statuses state)
    (fun _ root' => root' = root) root := by
  unfold promote
  rw [wlp_bind, wlp_ofExcept]
  refine ⟨fun _ hdevelopment => ?_, fun _ _ => rfl⟩
  rw [wlp_bind, wlp_attempt_id]
  refine ⟨fun hresolve => ?_, fun _ _ _ => rfl⟩
  rw [wlp_bind, wlp_get, wlp_bind, wlp_ofExcept]
  refine ⟨fun _ htest => ?_, fun _ _ => rfl⟩
  rw [wlp_bind, wlp_ofExcept]
  refine ⟨fun state hstate => ?_, fun _ _ => rfl⟩
  rw [wlp_bind, wlp_attempt_id]
  refine ⟨fun hdirectory => ?_, fun _ _ _ => rfl⟩
  rw [wlp_bind, wlp_attempt_id]
  refine ⟨fun hwrite => ?_, fun _ _ _ => rfl⟩
  rw [wlp_bind, wlp_attempt]
  refine ⟨fun hreplace => ⟨rfl, ?_⟩, fun _ _ _ => rfl⟩
  obtain ⟨results, statuses, hresults, hstatuses, hfail, happroved⟩ := test_eq_ok_iff.mp htest
  refine ⟨results, statuses, hdevelopment, ?_, hresults, hstatuses, hfail, happroved,
    ofLibrary_eq_ok.mp hstate⟩
  intro step
  cases step with
  | resolve => exact hresolve
  | makeDirectory => exact hdirectory
  | write => exact hwrite
  | replace => exact hreplace

theorem total_promote : Total (promote releases failures artifactId approveHuman) := by
  unfold promote
  refine total_bind (total_ofExcept _) fun _ => total_bind (total_attempt _ _ _) fun _ => ?_
  refine total_bind total_get fun root => total_bind (total_ofExcept _) fun _ => ?_
  refine total_bind (total_ofExcept _) fun state => total_bind (total_attempt _ _ _) fun _ => ?_
  exact total_bind (total_attempt _ _ _) fun _ => total_bind (total_attempt _ _ _) fun _ => total_pure _

/-- A call that passes returns. -/
theorem run_promote (h : Passes releases failures root artifactId approveHuman results statuses state) :
    (promote releases failures artifactId approveHuman).run root =
      some (.ok state, root.deploy state) := by
  have htest : root.test artifactId approveHuman = .ok () :=
    test_eq_ok_iff.mpr ⟨results, statuses, h.read, h.objects, h.unfailed, h.approved⟩
  have hstate : ofLibrary (root.promoted artifactId) = .ok state := ofLibrary_eq_ok.mpr h.state
  have hreturns : Returns (promote releases failures artifactId approveHuman)
      (fun result root' => result = state ∧ root' = root.deploy state) root := by
    unfold promote
    rw [returns_bind, returns_ofExcept_ok h.development, returns_bind, returns_attempt (h.unfailing _),
      returns_bind, returns_get, returns_bind]
    apply (returns_ofExcept_ok htest).mpr
    rw [returns_bind]
    apply (returns_ofExcept_ok hstate).mpr
    rw [returns_bind, returns_attempt (h.unfailing _), returns_bind, returns_attempt (h.unfailing _),
      returns_bind, returns_attempt (h.unfailing _)]
    exact ⟨rfl, rfl⟩
  obtain ⟨result, root', hrun, rfl, rfl⟩ := (returns_iff_exists total_promote).mp hreturns
  exact hrun

/-! ## Promotion and readiness -/

/-- The readiness that the results of a release have by themselves or with approval. -/
def Ready (root : InstallRoot) (artifactId : Text) (approveHuman : Bool) (integration : Text) : Prop :=
  ∃ results summary, root.results artifactId = .ok results ∧
    readinessSummary results integration artifactId = .ok summary ∧
    (summary.readiness = .ready ∨
      summary.readiness = .readyWithHumanRequirements ∧ approveHuman = true)

/-- The readiness of results without failed checks, and without open ones unless approved. -/
theorem ready_iff (h : Passes releases failures root artifactId approveHuman results statuses state)
    {integration : Text} : Ready root artifactId approveHuman integration ↔
      listed "BLOCKED" statuses = false ∧
        (listed "PASS" statuses = true ∨ listed "HUMAN_REQUIRED" statuses = true) := by
  have hsummary : readinessSummary results integration artifactId = .ok
      { integration := integration, release := artifactId, readiness := summarized statuses,
        checks := results.length, humanRequired := count "HUMAN_REQUIRED" statuses,
        failed := count "FAIL" statuses + count "BLOCKED" statuses, evidence := results } := by
    unfold readinessSummary
    rw [h.objects]
    rfl
  -- the summary is made of the results that the call has read
  have hready : Ready root artifactId approveHuman integration ↔ (summarized statuses = .ready ∨
      summarized statuses = .readyWithHumanRequirements ∧ approveHuman = true) := by
    constructor
    · intro ⟨results', summary, hresults, hsummary', hreadiness⟩
      obtain rfl := Except.ok.inj (h.read.symm.trans hresults)
      obtain rfl := Except.ok.inj (hsummary.symm.trans hsummary')
      exact hreadiness
    · exact fun hreadiness => ⟨results, _, h.read, hsummary, hreadiness⟩
  rw [hready]
  unfold summarized
  have hfail := h.unfailed
  by_cases hnil : statuses = []
  · subst hnil
    simp [listed]
  by_cases hblocked : listed "BLOCKED" statuses = true
  · simp [hnil, hblocked]
  by_cases hhuman : listed "HUMAN_REQUIRED" statuses = true
  · -- an open check stops the call unless it is approved
    have happrove : approveHuman = true := by
      by_contra hnot
      rw [h.approved (by simpa using hnot)] at hhuman
      cases hhuman
    simp [hnil, hfail, hblocked, hhuman, happrove]
  · by_cases hpass : listed "PASS" statuses = true
    · simp [hnil, hfail, hblocked, hhuman, hpass]
    · simp [hnil, hfail, hblocked, hhuman, hpass]

/-- Where a call passes and the deployment file is not as it would leave it, no check is blocked and
one passed or needs a person. -/
def Guarded (releases : List Release) (failures : Failures) (root : InstallRoot) (artifactId : Text)
    (approveHuman : Bool) : Prop :=
  ∀ results statuses state,
    Passes releases failures root artifactId approveHuman results statuses state →
    root.deployment ≠ some (.ok state.sortKeys) → listed "BLOCKED" statuses = false ∧
      (listed "PASS" statuses = true ∨ listed "HUMAN_REQUIRED" statuses = true)

end Calls

/-- **When promotion implies readiness.** -/
theorem promote_guarded_iff (releases : List Release) (failures : Failures) (root : InstallRoot)
    (artifactId : Text) (approveHuman : Bool) (integration : Text) :
    (∃ result root', (promote releases failures artifactId approveHuman).run root =
        some (result, root') ∧
      (root'.deployment ≠ root.deployment → Ready root artifactId approveHuman integration) ∧
      ∀ e, result = .error e → root'.deployment = root.deployment) ↔
      Guarded releases failures root artifactId approveHuman := by
  constructor
  · intro ⟨result, root', hrun, hready, _⟩ results statuses state hpasses hchanged
    rw [run_promote hpasses, Option.some.injEq, Prod.mk.injEq] at hrun
    obtain ⟨-, rfl⟩ := hrun
    exact (ready_iff hpasses).mp (hready fun hsame => hchanged hsame.symm)
  · intro hguarded
    cases hrun : (promote releases failures artifactId approveHuman).run root with
    | none => exact absurd hrun (total_promote root)
    | some outcome =>
        obtain ⟨result, root'⟩ := outcome
        cases result with
        | error e =>
            -- the file is replaced last, and nothing can fail after that
            obtain rfl := wlp_error wlp_promote hrun
            exact ⟨.error e, root', rfl, fun hchanged => absurd rfl hchanged, fun _ _ => rfl⟩
        | ok state =>
            obtain ⟨rfl, results, statuses, hpasses⟩ := wlp_ok wlp_promote hrun
            refine ⟨.ok state, _, rfl, ?_, fun e he => by cases he⟩
            intro hchanged
            exact (ready_iff hpasses).mpr (hguarded results statuses state hpasses
              fun hsame => hchanged hsame.symm)

/-- The root of a release whose qualification record has no results. -/
def unqualified : InstallRoot where
  qualification _ := some (.ok (.object [(.of "results", .array [])]))
  deployment := none

/-- A release without any evidence is promoted. -/
theorem promote_unqualified :
    ∃ state root', (promote [⟨.of "amiexpress-dev", .of "development"⟩] (fun _ => none)
        (.of "amiexpress-dev") false).run unqualified = some (.ok state, root') ∧
      root'.deployment ≠ unqualified.deployment ∧
      ∀ integration, ¬Ready unqualified (.of "amiexpress-dev") false integration := by
  have hpasses : Passes [⟨.of "amiexpress-dev", .of "development"⟩] (fun _ => none) unqualified
      (.of "amiexpress-dev") false [] [] (.object [(.of "current", .text (.of "amiexpress-dev")),
        (.of "previous", .null), (.of "candidates", .array [])]) := by
    refine ⟨?_, fun _ => rfl, ?_, rfl, rfl, fun _ => rfl, ?_⟩
    · simp [selectDevelopment, releaseForArtifact, refuse, bind, Except.bind]
    · simp [InstallRoot.results, unqualified, ofLibrary, Value.get, Value.elements, bind, Except.bind]
    · simp [InstallRoot.promoted, unqualified, InstallRoot.deploymentStatus, switchTo, Fields.set,
        Dict.setEntries, Value.elements, bind, Except.bind, pure, Except.pure]
  refine ⟨_, _, run_promote hpasses, ?_, ?_⟩
  · intro hsame
    cases hsame
  · intro integration hready
    obtain ⟨-, hpass | hhuman⟩ := (ready_iff hpasses).mp hready
    · cases hpass
    · cases hhuman

end UltimateBBSBox.Integrations

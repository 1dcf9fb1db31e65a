import UltimateBBSBox.Admin.Gate
import UltimateBBSBox.Admin.Reading
import UltimateBBSBox.Monitoring.Settled

/-!
# What a request that reads writes

A GET request leaves accounts, audit log and files alone unless it asks for the
alerts (`Asks`), and then the engine writes `alerts.json`.  The file is the same
afterwards only where the engine has no file, fails to write it, or has nothing to
say (`get_unwritten_iff`).
-/

namespace UltimateBBSBox.Admin

open Act Observatory

/-! ## Requests that ask for the alerts -/

/-- The session of a request, where authentication is required. -/
def admitted (app : DashboardApp) (now : ℚ) (token : Option String) (w : World) : Option Session :=
  if app.requireAuth then
    (given token).bind fun token => SessionStore.live? now token w.sessions
  else none

/-- Every page asks for the alerts; of the interface it is what lies below `/api/v1/alerts`. -/
def Consults (path : String) : Prop :=
  startsWith "/api/" path = true → (pathParts path).take 3 = ["api", "v1", "alerts"]

section Asking

variable (dashboard : Dashboard) (moment : Moment) (request : Request) (house : House)

/-- The request is admitted, asks for the alerts, and there is something to take them from. -/
structure Asks (path : String) (observed : Observed) : Prop where
  target : dashboard.app.python.urlPath request.target = .ok path
  elsewhere : path ∉ ["/admin/login", "/admin/logout", "/api/v1/audit"]
  session : dashboard.app.requireAuth = true →
    admitted dashboard.app moment.seen (request.cookie "ubb_admin") house.world ≠ none
  consults : Consults path
  found : dashboard.observatory house.files = .ok observed

variable (observed : Observed)

/-- The file that the engine evaluates. -/
def Monitor.file (monitor : Monitor) (files : Files) : Monitoring.AlertsFile :=
  if monitor.rooted then files.alerts else .missing

/-- The files after an evaluation. -/
def Monitor.saved (monitor : Monitor) (moment : Moment) (snapshot : Snapshot) (files : Files) :
    Files :=
  match monitor.rooted, moment.saving with
  | true, .ok _ => { files with alerts := (monitor.engine.evaluate moment.now snapshot files.alerts).2 }
  | _, _ => files

/-- The files after the alerts were asked for. -/
def saved (files : Files) : Files :=
  match dashboard.monitoring with
  | none => files
  | some monitor => monitor.saved moment observed.snapshot files

/-- The alerts that are listed. -/
def listing (files : Files) : List Listed :=
  match dashboard.monitoring with
  | none => observed.snapshot.alerts.map .alert
  | some monitor =>
      (sortedRecords (monitor.engine.evaluate moment.now observed.snapshot
        (monitor.file files)).1).map .record

/-- The alerts of a path, of those that are listed. -/
def listedAt (query : Form) (path : String) (alerts : List Listed) : List Listed :=
  if startsWith "/api/" path then
    match (pathParts path)[3]? with
    | none => selected query alerts
    | some id => ((selected query alerts).find? (·.alertId = id)).toList
  else alerts

/-- The occurrence counts by the ids of the alerts. -/
def counts (alerts : List Listed) : List (String × ℕ) :=
  alerts.map fun listed => (listed.alertId, listed.occurrenceCount)

/-- The counts of a reply that lists alerts. -/
def Reply.counts? : Reply → Option (List (String × ℕ))
  | .answer (.alerts items) | .page (.alerts items) => some (counts items)
  | .answer (.alert item) => some (counts [item])
  | _ => none

/-- Accounts and audit log are left alone, and of the files only what the engine saves, if it
is asked. -/
structure Leaves (house' : House) : Prop where
  users : house'.world.users = house.world.users
  audit : house'.world.audit = house.world.audit
  asked : ∀ path observed, Asks dashboard moment request house path observed →
    house'.files = saved dashboard moment observed house.files
  unasked : (∀ path observed, ¬ Asks dashboard moment request house path observed) →
    house'.files = house.files

/-- The engine, should it have a file, has written it. -/
def Written : Prop :=
  ∀ monitor ∈ dashboard.monitoring, monitor.rooted = true → ∃ u, moment.saving = .ok u

/-- The counts that are shown are those of the alerts that were asked for. -/
def Counts (reply : Reply) : Prop :=
  ∀ shown, reply.counts? = some shown → Written dashboard moment ∧ ∃ path observed,
    Asks dashboard moment request house path observed ∧
      shown = counts (listedAt moment.query path (listing dashboard moment observed house.files))

end Asking

/-! ## One request -/

section Requests

variable {dashboard : Dashboard} {moment : Moment} {request : Request} {house : House}

theorem twp_indoors {α : Type} {act : Act World Exn α} {Q : α → House → Prop}
    {X : Exn → House → Prop}
    (h : twp act (fun a w => Q a { house with world := w }) (fun e w => X e { house with world := w })
      house.world) : twp (indoors act) Q X house := by
  obtain ⟨⟨result, w⟩, hrun⟩ := Option.ne_none_iff_exists'.mp h.1
  have hrun' : (indoors act).run house = some (result, { house with world := w }) := by
    change (act.run house.world).map _ = _
    rw [hrun]
    rfl
  refine ⟨by unfold ComesBack; rw [hrun']; simp, ?_⟩
  unfold wlp
  rw [hrun']
  cases result with
  | ok a => exact wlp_ok h.2 hrun
  | error e => exact wlp_error h.2 hrun

/-- Looking a session up may only take out one that has expired. -/
theorem twp_sessionOf {app : DashboardApp} {now : ℚ} {token : Option String} {w : World}
    {X : Exn → World → Prop} :
    twp (app.sessionOf now token)
      (fun session w' => session = admitted app now token w ∧ w'.users = w.users ∧
        w'.audit = w.audit) X w := by
  unfold DashboardApp.sessionOf admitted
  cases app.requireAuth with
  | false => exact twp_pure.mpr ⟨rfl, rfl, rfl⟩
  | true =>
      simp only [if_true, DashboardApp.authenticate]
      cases given token with
      | none => exact twp_pure.mpr ⟨rfl, rfl, rfl⟩
      | some token =>
          rw [Option.bind_some]
          refine twp_bind.mpr <| twp_get.mpr ?_
          cases hlive : SessionStore.live? now token w.sessions with
          | some session => exact twp_pure.mpr ⟨rfl, rfl, rfl⟩
          | none =>
              refine twp_bind.mpr ?_
              exact (total_modify _).twp <| wlp_modify.mpr <| twp_pure.mpr ⟨rfl, rfl, rfl⟩

theorem twp_logout {token : Option String} {w : World} {X : Exn → World → Prop} :
    twp (DashboardApp.logout token)
      (fun _ w' => w'.users = w.users ∧ w'.audit = w.audit) X w := by
  unfold DashboardApp.logout DashboardApp.removeSession
  cases given token with
  | none => exact twp_bind.mpr <| twp_pure.mpr <| twp_pure.mpr ⟨rfl, rfl⟩
  | some token =>
      refine twp_bind.mpr ?_
      exact (total_modify _).twp <| wlp_modify.mpr <| twp_pure.mpr ⟨rfl, rfl⟩

/-- An evaluation saves; it raises what saving does. -/
theorem twp_evaluate {monitor : Monitor} {snapshot : Snapshot} :
    twp (monitor.evaluate moment snapshot)
      (fun records house' =>
        records = (monitor.engine.evaluate moment.now snapshot (monitor.file house.files)).1 ∧
        (monitor.rooted = true → ∃ u, moment.saving = .ok u) ∧
        house' = { house with files := monitor.saved moment snapshot house.files })
      (fun _ house' => house' = { house with files := monitor.saved moment snapshot house.files })
      house := by
  obtain ⟨engine, rooted⟩ := monitor
  obtain ⟨seen, shown, now, query, saving⟩ := moment
  refine twp_bind.mpr <| twp_get.mpr <| twp_bind.mpr ?_
  cases rooted with
  | false =>
      refine twp_pure.mpr <| twp_pure.mpr ⟨rfl, (fun h => by cases h), ?_⟩
      cases saving <;> rfl
  | true =>
      refine twp_bind.mpr ?_
      cases saving with
      | error e => exact ⟨total_throw e _, wlp_throw.mpr rfl⟩
      | ok u =>
          exact twp_pure.mpr <| (total_modify _).twp <| wlp_modify.mpr <|
            twp_pure.mpr ⟨rfl, fun _ => ⟨u, rfl⟩, rfl⟩

theorem twp_listedAlerts {observed : Observed} :
    twp (dashboard.listedAlerts moment observed)
      (fun alerts house' => alerts = listing dashboard moment observed house.files ∧
        Written dashboard moment ∧ house' = { house with files := saved dashboard moment observed house.files })
      (fun _ house' => house' = { house with files := saved dashboard moment observed house.files })
      house := by
  unfold Dashboard.listedAlerts listing saved Written
  cases dashboard.monitoring with
  | none => exact twp_pure.mpr ⟨rfl, (fun _ h => by cases h), rfl⟩
  | some monitor =>
      refine twp_bind.mpr <| twp_mono twp_evaluate (fun records house' h => ?_) fun _ _ h => h
      refine twp_pure.mpr ⟨by rw [h.1], fun monitor' hmonitor => ?_, h.2.2⟩
      cases hmonitor
      exact h.2.1

/-- A request that did not ask leaves the files alone, and shows no counts. -/
theorem leaves_of_unasked {house' : House}
    (h : ∀ path observed, ¬ Asks dashboard moment request house path observed)
    (hfiles : house'.files = house.files) (husers : house'.world.users = house.world.users)
    (haudit : house'.world.audit = house.world.audit) :
    Leaves dashboard moment request house house' :=
  ⟨husers, haudit, fun path observed hasks => absurd hasks (h path observed), fun _ => hfiles⟩

theorem leaves_of_asked {path : String} {observed : Observed} {house' : House}
    (h : Asks dashboard moment request house path observed)
    (hfiles : house'.files = saved dashboard moment observed house.files)
    (husers : house'.world.users = house.world.users)
    (haudit : house'.world.audit = house.world.audit) :
    Leaves dashboard moment request house house' := by
  refine ⟨husers, haudit, fun path' observed' h' => ?_, fun hnone => absurd h (hnone path observed)⟩
  have hobserved := h.found.symm.trans h'.found
  rw [hfiles, Except.ok.inj hobserved]

/-- Of the answers that need no alerts, none shows counts. -/
theorem counts?_answerOf {observed : Observed} {parts : List String} {answer : Answer}
    (h : answerOf observed parts = some answer) : (Reply.answer answer).counts? = none := by
  unfold answerOf at h
  dsimp only at h
  split at h <;> first
    | (cases h; rfl)
    | (obtain ⟨item, _, rfl⟩ := Option.map_eq_some_iff.mp h; rfl)
    | cases h

theorem counts?_pageOf {observed : Observed} {path : String} {alerts : List Listed}
    {audit : List AuditRecord} {session : Option Session} {page : Page}
    (h : pageOf observed path alerts audit session = some page) {shown : List (String × ℕ)}
    (hshown : (Reply.page page).counts? = some shown) : shown = counts alerts := by
  unfold pageOf at h
  dsimp only at h
  split at h
  · cases h
    cases hshown
  · split at h <;> first
      | (cases h; cases hshown; rfl)
      | (cases h; cases hshown)
      | (obtain ⟨item, _, rfl⟩ := Option.map_eq_some_iff.mp h; cases hshown)
      | cases h

/-- The end of `do_GET`, for a path that was asked for and a request that was admitted. -/
theorem twp_view {path : String} {token : Option String} {w : World}
    (hpath : dashboard.app.python.urlPath request.target = .ok path)
    (helsewhere : path ∉ ["/admin/login", "/admin/logout", "/api/v1/audit"])
    (hsession : dashboard.app.requireAuth = true →
      admitted dashboard.app moment.seen (request.cookie "ubb_admin") house.world ≠ none)
    (husers : w.users = house.world.users) (haudit : w.audit = house.world.audit) :
    twp (dashboard.view moment path token)
      (fun reply house' => Leaves dashboard moment request house house' ∧
        Counts dashboard moment request house reply)
      (fun _ house' => Leaves dashboard moment request house house')
      { house with world := w } := by
  have hasked : ∀ observed, Consults path → dashboard.observatory house.files = .ok observed →
      Asks dashboard moment request house path observed := fun observed hconsults hobserved =>
    ⟨hpath, helsewhere, hsession, hconsults, hobserved⟩
  -- what does not come to the evaluation leaves the files as they are
  have hunasked : ∀ w' : World, (∀ observed, Consults path →
      dashboard.observatory house.files ≠ .ok observed) → w'.users = w.users → w'.audit = w.audit →
      Leaves dashboard moment request house { house with world := w' } := by
    intro w' hnone husers' haudit'
    refine leaves_of_unasked ?_ rfl (husers'.trans husers) (haudit'.trans haudit)
    intro path' observed hasks
    have hsame := hpath.symm.trans hasks.target
    rw [← Except.ok.inj hsame] at hasks
    exact hnone observed hasks.consults hasks.found
  have hempty : ∀ {reply : Reply}, reply.counts? = none →
      Counts dashboard moment request house reply := by
    intro reply hnone shown hshown
    rw [hnone] at hshown
    cases hshown
  unfold Dashboard.view
  split
  · rename_i hapi
    refine twp_bind.mpr <| twp_bind.mpr <| twp_bind.mpr <| twp_get.mpr ?_
    dsimp only
    cases hobserved : dashboard.observatory house.files with
    | error e =>
        refine (total_throw e).twp <| wlp_throw.mpr <| hunasked w (fun observed _ h => ?_) rfl rfl
        rw [hobserved] at h
        cases h
    | ok observed =>
        refine twp_pure.mpr ?_
        -- of the API only the path of the alerts asks for an evaluation
        split
        · rename_i hparts
          have hasks := hasked observed (fun _ => hparts) hobserved
          have hcounted : ∀ reply : Reply, Written dashboard moment →
              (∀ shown, reply.counts? = some shown → shown = counts
                (listedAt moment.query path (listing dashboard moment observed house.files))) →
              Counts dashboard moment request house reply := fun reply hwritten h shown hshown =>
            ⟨hwritten, path, observed, hasks, h shown hshown⟩
          unfold listedAt at hcounted
          rw [if_pos hapi] at hcounted
          refine twp_bind.mpr <| twp_mono twp_listedAlerts (fun alerts house' h => ?_)
            fun e house' h => ?_
          · obtain ⟨rfl, hwritten, rfl⟩ := h
            have hleaves : Leaves dashboard moment request house
                { world := w, files := saved dashboard moment observed house.files } :=
              leaves_of_asked hasks rfl husers haudit
            cases hid : (pathParts path)[3]? with
            | none =>
                refine twp_pure.mpr <| twp_pure.mpr ⟨hleaves, hcounted _ hwritten fun shown hshown => ?_⟩
                rw [hid]
                exact (Option.some.inj hshown).symm
            | some id =>
                refine twp_pure.mpr ?_
                cases hfind : (selected moment.query (listing dashboard moment observed
                    house.files)).find? (·.alertId = id) with
                | none => exact twp_pure.mpr ⟨hleaves, hempty rfl⟩
                | some listed =>
                    refine twp_pure.mpr ⟨hleaves, hcounted _ hwritten fun shown hshown => ?_⟩
                    simp only [hid, hfind]
                    exact (Option.some.inj hshown).symm
          · rw [h]
            exact leaves_of_asked hasks rfl husers haudit
        · rename_i hparts
          refine twp_pure.mpr ?_
          have hleaves := hunasked w (fun observed hconsults _ => hparts (hconsults hapi)) rfl rfl
          cases hanswer : answerOf observed (pathParts path) with
          | none => exact twp_pure.mpr ⟨hleaves, hempty rfl⟩
          | some answer => exact twp_pure.mpr ⟨hleaves, hempty (counts?_answerOf hanswer)⟩
  · -- a page evaluates the alerts whatever it shows
    rename_i hpage
    refine twp_bind.mpr <| twp_indoors <| twp_mono twp_sessionOf (fun session w' h => ?_)
      fun _ _ h => h
    obtain ⟨-, husers', haudit'⟩ := h
    refine twp_bind.mpr <| twp_bind.mpr <| twp_bind.mpr <| twp_get.mpr ?_
    dsimp only
    cases hobserved : dashboard.observatory house.files with
    | error e =>
        refine (total_throw e).twp <| wlp_throw.mpr <|
          hunasked w' (fun observed _ h => ?_) husers' haudit'
        rw [hobserved] at h
        cases h
    | ok observed =>
        have hasks := hasked observed (fun hapi => absurd hapi hpage) hobserved
        have hleaves : Leaves dashboard moment request house
            { world := w', files := saved dashboard moment observed house.files } :=
          leaves_of_asked hasks rfl (husers'.trans husers) (haudit'.trans haudit)
        refine twp_pure.mpr <| twp_bind.mpr <| twp_mono twp_listedAlerts (fun alerts house' h => ?_)
          fun e house' h => by rw [h]; exact hleaves
        obtain ⟨rfl, hwritten, rfl⟩ := h
        refine twp_bind.mpr <| twp_get.mpr <| twp_pure.mpr ?_
        dsimp only
        split
        · exact twp_pure.mpr ⟨hleaves, hempty rfl⟩
        · rename_i page hshow
          refine twp_pure.mpr ⟨hleaves, fun shown hshown => ⟨hwritten, path, observed, hasks, ?_⟩⟩
          rw [listedAt, if_neg hpage]
          exact counts?_pageOf hshow hshown

/-- **What a GET request leaves**: the accounts and the audit log, and the files but for what
the engine saves when it is asked. -/
theorem twp_doGet (dashboard : Dashboard) (moment : Moment) (request : Request) (house : House) :
    twp (dashboard.doGet moment request)
      (fun reply house' => Leaves dashboard moment request house house' ∧
        Counts dashboard moment request house reply)
      (fun _ house' => Leaves dashboard moment request house house') house := by
  have hempty : ∀ response : Response,
      Counts dashboard moment request house (.response response) := by
    intro response shown hshown
    cases hshown
  unfold Dashboard.doGet
  cases hpath : dashboard.app.python.urlPath request.target with
  | error e =>
      refine twp_bind.mpr <| (total_throw e).twp <| wlp_throw.mpr <|
        leaves_of_unasked (fun path observed hasks => ?_) rfl rfl rfl
      have htarget := hasks.target
      rw [hpath] at htarget
      cases htarget
  | ok path =>
      refine twp_bind.mpr <| twp_pure.mpr <| twp_tryCatch <| twp_mono (Q := fun reply house' =>
        Leaves dashboard moment request house house' ∧
          Counts dashboard moment request house reply)
        (X := fun _ house' => Leaves dashboard moment request house house') ?_ (fun _ _ h => h)
        fun e house' h => ?_
      · -- what is served elsewhere, or refused, does not ask
        have hunasked : ∀ w : World, (∀ observed, ¬ Asks dashboard moment request house path observed) →
            w.users = house.world.users → w.audit = house.world.audit →
            Leaves dashboard moment request house { house with world := w } := by
          intro w hnone husers haudit
          refine leaves_of_unasked (fun path' observed hasks => ?_) rfl husers haudit
          have hsame := hpath.symm.trans hasks.target
          rw [← Except.ok.inj hsame] at hasks
          exact hnone observed hasks
        have helsewhere : ∀ other ∈ ["/admin/login", "/admin/logout", "/api/v1/audit"],
            path = other → ∀ observed, ¬ Asks dashboard moment request house path observed := by
          intro other hother hpath' observed hasks
          exact hasks.elsewhere (hpath' ▸ hother)
        unfold Dashboard.getPath
        split
        · rename_i hlogin
          exact twp_pure.mpr
            ⟨hunasked house.world (helsewhere _ (by simp) hlogin) rfl rfl, hempty _⟩
        · rename_i hlogin
          refine twp_bind.mpr <| twp_indoors <| twp_mono twp_sessionOf (fun session w h => ?_)
            fun _ _ h => h
          obtain ⟨rfl, husers, haudit⟩ := h
          split
          · rename_i hrefused
            refine twp_pure.mpr ⟨hunasked w (fun observed hasks => ?_) husers haudit, hempty _⟩
            exact hasks.session hrefused.1 hrefused.2
          · rename_i hallowed
            split
            · rename_i hlogout
              refine twp_bind.mpr <| twp_indoors <| twp_mono twp_logout (fun response w' h => ?_)
                fun _ _ h => h
              exact twp_pure.mpr ⟨hunasked w' (helsewhere _ (by simp) hlogout)
                (h.1.trans husers) (h.2.trans haudit), hempty _⟩
            · rename_i hlogout
              split
              · rename_i haudited
                refine twp_bind.mpr <| twp_indoors <| twp_bind.mpr <| twp_get.mpr <| twp_pure.mpr <|
                  twp_pure.mpr ⟨hunasked w (helsewhere _ (by simp) haudited) husers haudit, hempty _⟩
              · rename_i haudited
                refine twp_view hpath ?_ (fun hrequired hnone => hallowed ⟨hrequired, hnone⟩)
                  husers haudit
                simp only [List.mem_cons, List.not_mem_nil, or_false, not_or]
                exact ⟨hlogin, hlogout, haudited⟩
      · split
        · exact (total_throw e).twp (wlp_throw.mpr h)
        · exact twp_pure.mpr ⟨h, hempty _⟩

theorem leaves_of_run {result : Except Exn Reply} {house' : House}
    (hrun : (dashboard.doGet moment request).run house = some (result, house')) :
    Leaves dashboard moment request house house' := by
  have hdone := (twp_doGet dashboard moment request house).2
  cases result with
  | ok reply => exact (wlp_ok hdone hrun).1
  | error e => exact wlp_error hdone hrun

end Requests

/-! ## Counts without times -/

section Counting

/-- An entry without its times. -/
def Listed.undated : Listed → Listed
  | .record r => .record r.undated
  | .alert a => .alert a

theorem selected_undated (query : Form) (alerts : List Listed) :
    selected query (alerts.map Listed.undated) = (selected query alerts).map Listed.undated := by
  rw [selected, List.filter_map]
  congr 1
  apply List.filter_congr
  intro listed _
  cases listed <;> rfl

theorem counts_undated (alerts : List Listed) : counts (alerts.map Listed.undated) = counts alerts := by
  rw [counts, List.map_map]
  apply List.map_congr_left
  intro listed _
  cases listed <;> rfl

/-- The counts of a path do not depend on the times of the alerts. -/
theorem counts_listedAt_undated (query : Form) (path : String) (alerts : List Listed) :
    counts (listedAt query path (alerts.map Listed.undated)) =
      counts (listedAt query path alerts) := by
  have hids : ∀ id, ((fun listed : Listed => decide (listed.alertId = id)) ∘ Listed.undated) =
      fun listed => decide (listed.alertId = id) := by
    intro id
    funext listed
    cases listed <;> rfl
  unfold listedAt
  split
  · rw [selected_undated]
    split
    · exact counts_undated _
    · rw [List.find?_map, hids, Option.toList_map, counts_undated]
  · exact counts_undated _

theorem sortedRecords_undated (records : List Monitoring.Record) :
    (sortedRecords records).map Monitoring.Record.undated =
      sortedRecords (records.map Monitoring.Record.undated) :=
  List.map_insertionSort _ _ _ _ fun _ _ _ _ => Iff.rfl

theorem undated_listed (records : List Monitoring.Record) :
    ((sortedRecords records).map Listed.record).map Listed.undated =
      (sortedRecords (records.map Monitoring.Record.undated)).map Listed.record := by
  rw [← sortedRecords_undated, List.map_map, List.map_map]
  rfl

/-- Where nothing is written, later listings show the same counts. -/
theorem counts_listing_eq {dashboard : Dashboard} {moment later : Moment} {observed : Observed}
    {files : Files} (query : Form) (path : String)
    (hsettled : ∀ monitor ∈ dashboard.monitoring, monitor.rooted = true →
      ∃ alerts, files.alerts = .stored alerts ∧
        Monitoring.Settled monitor.engine observed.snapshot alerts) :
    counts (listedAt query path (listing dashboard moment observed files)) =
      counts (listedAt query path (listing dashboard later observed files)) := by
  rw [← counts_listedAt_undated, ← counts_listedAt_undated query path (listing dashboard later _ _)]
  congr 2
  unfold listing
  cases hmonitoring : dashboard.monitoring with
  | none => rfl
  | some monitor =>
      dsimp only
      rw [undated_listed, undated_listed]
      congr 2
      cases hrooted : monitor.rooted with
      | false =>
          rw [Monitor.file, hrooted]
          exact Monitoring.undated_records_of_empty _ _ _ _
      | true =>
          obtain ⟨alerts, hfile, hsettled⟩ := hsettled monitor hmonitoring hrooted
          rw [Monitor.file, hrooted, if_pos rfl, hfile]
          change (monitor.engine.records moment.now observed.snapshot alerts).values.map _ =
            (monitor.engine.records later.now observed.snapshot alerts).values.map _
          rw [hsettled.records, hsettled.records]

end Counting

/-! ## Requests that write nothing -/

section Writing

/-- The request comes back, leaves accounts, audit log and files as they were, and repeating it
shows the same occurrence counts. -/
def Unwritten (dashboard : Dashboard) (moment : Moment) (request : Request) (house : House) : Prop :=
  ∃ result house', (dashboard.doGet moment request).run house = some (result, house') ∧
    (house'.files = house.files ∧ house'.world.users = house.world.users ∧
      house'.world.audit = house.world.audit) ∧
    ∀ later : Moment, later.query = moment.query → ∀ result' house'',
      (dashboard.doGet later request).run house' = some (result', house'') →
      ∀ reply reply', result = .ok reply → result' = .ok reply' →
      ∀ shown shown', reply.counts? = some shown → reply'.counts? = some shown' → shown = shown'

/-- **GET requests change no persisted state** exactly if those that ask for the alerts meet no
engine with a file that it can write, or one that has nothing to say. -/
theorem get_unwritten_iff (dashboard : Dashboard) (moment : Moment) (request : Request)
    (house : House) :
    Unwritten dashboard moment request house ↔
      ∀ path observed, Asks dashboard moment request house path observed →
        ∀ monitor ∈ dashboard.monitoring, monitor.rooted = true → moment.saving = .ok () →
          ∃ alerts, house.files.alerts = .stored alerts ∧
            Monitoring.Settled monitor.engine observed.snapshot alerts := by
  have hdone := twp_doGet dashboard moment request house
  obtain ⟨⟨result, house₁⟩, hrun⟩ := Option.ne_none_iff_exists'.mp hdone.1
  have hleaves := leaves_of_run hrun
  constructor
  · intro ⟨result', house', hrun', ⟨hfiles, _, _⟩, _⟩ path observed hasks monitor hmonitor hrooted hsaving
    rw [hrun, Option.some.injEq, Prod.mk.injEq] at hrun'
    rw [← hrun'.2, hleaves.asked path observed hasks, saved, hmonitor] at hfiles
    rw [← Monitoring.evaluate_keeps_iff moment.now]
    simpa [Monitor.saved, hrooted, hsaving] using congrArg Files.alerts hfiles
  · intro hsettled
    -- a settled evaluation saves what is in the file, and so does every later one
    have hfiles : house₁.files = house.files := by
      by_cases hasked : ∃ path observed, Asks dashboard moment request house path observed
      · obtain ⟨path, observed, hasks⟩ := hasked
        rw [hleaves.asked path observed hasks, saved]
        cases hmonitor : dashboard.monitoring with
        | none => rfl
        | some monitor =>
            dsimp only [Monitor.saved]
            split
            · rename_i hrooted hsaving
              have hkept := hsettled path observed hasks monitor hmonitor hrooted hsaving
              rw [← Monitoring.evaluate_keeps_iff moment.now] at hkept
              rw [hkept]
            · rfl
      · exact hleaves.unasked fun path observed hasks => hasked ⟨path, observed, hasks⟩
    refine ⟨result, house₁, hrun, ⟨hfiles, hleaves.users, hleaves.audit⟩, ?_⟩
    intro later hquery result' house₂ hrun' reply reply' hreply hreply' shown shown' hshown hshown'
    subst hreply hreply'
    obtain ⟨hwritten, path, observed, hasks, rfl⟩ := (wlp_ok hdone.2 hrun).2 shown hshown
    obtain ⟨_, path', observed', hasks', rfl⟩ :=
      (wlp_ok (twp_doGet dashboard later request house₁).2 hrun').2 shown' hshown'
    have hpath := hasks.target.symm.trans hasks'.target
    have hfound := hasks'.found
    rw [hfiles, hasks.found] at hfound
    rw [hquery, hfiles, ← Except.ok.inj hpath, ← Except.ok.inj hfound]
    refine counts_listing_eq _ _ fun monitor hmonitor hrooted => ?_
    obtain ⟨u, hsaving⟩ := hwritten monitor hmonitor hrooted
    exact hsettled path observed hasks monitor hmonitor hrooted hsaving

/-- A dashboard without accounts over one service that has no backup. -/
def openDashboard : Dashboard where
  app := { plainApp with requireAuth := false }
  observatory := observatoryOf (doorRegistry "door") (.ok [])
  monitoring := some ⟨⟨200⟩, true⟩

/-- Its process and the files when no alerts were ever evaluated. -/
def quietHouse : House where
  world := .fresh ∅ 16
  files := ⟨.missing, ∅, pendingSources "running", ⟨none, none⟩⟩

/-- A GET of the alerts, before any were ever evaluated, writes `alerts.json`. -/
theorem get_alerts_written :
    ¬ Unwritten openDashboard ⟨0, 0, .ofSeconds 0, ∅, .ok ()⟩
      ⟨"GET", "/api/v1/alerts", [], [], "::1"⟩ quietHouse := by
  intro ⟨result, house', hrun, ⟨hfiles, _, _⟩, _⟩
  obtain ⟨observed, hobserved⟩ : ∃ observed,
      openDashboard.observatory quietHouse.files = .ok observed := by
    have hsome : (openDashboard.observatory quietHouse.files).toOption.isSome = true := by
      decide
    cases hobserved : openDashboard.observatory quietHouse.files with
    | ok observed => exact ⟨observed, rfl⟩
    | error e =>
        rw [hobserved] at hsome
        cases hsome
  have hpath : openDashboard.app.python.urlPath "/api/v1/alerts" = .ok "/api/v1/alerts" := by
    simp [openDashboard, plainApp, plainPython]
  have hparts : (pathParts "/api/v1/alerts").take 3 = ["api", "v1", "alerts"] := by decide
  have hsaved := (leaves_of_run hrun).asked "/api/v1/alerts" observed
    ⟨hpath, by decide, fun h => Bool.noConfusion h, fun _ => hparts, hobserved⟩
  rw [hfiles] at hsaved
  exact Monitoring.AlertsFile.noConfusion (congrArg Files.alerts hsaved)

end Writing

end UltimateBBSBox.Admin

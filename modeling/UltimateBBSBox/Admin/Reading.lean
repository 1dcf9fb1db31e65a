import UltimateBBSBox.Admin.Handler
import UltimateBBSBox.Monitoring.Engine
import UltimateBBSBox.Observatory.Sessions

/-!
# Requests that read

`DashboardApp.api`, `DashboardApp.page` and `do_GET` of `ubb_dashboard.py` over the
files that the components of the box keep.  Both ask the monitoring engine for its
alerts, `page` for every path and `api` for those below `/api/v1/alerts`, and the
engine evaluates whenever it is asked: it counts an occurrence and writes
`alerts.json` again.

What a page shows is kept, its markup is not.
-/

namespace UltimateBBSBox.Admin

open Observatory

/-! ## What is read -/

/-- The files of the components. -/
structure Files where
  /-- `observatory/alerts.json` of the monitoring engine. -/
  alerts : Monitoring.AlertsFile
  /-- `lifecycle-overrides.json` of the supervisor. -/
  overrides : Dict String Mode
  /-- The files of the supervisor, the archive, the installations and the backups. -/
  sources : Sources
  router : RouterFiles

/-- `ObservatorySnapshot.to_dict`, with what the snapshot says of sessions and activity. -/
structure Observed where
  snapshot : Snapshot
  sessions : List Value
  activity : List Value

/-- An entry of the sessions; the journal writes no field that is missing. -/
def sessionValue (event : Router.Event) : Value :=
  .dict ([("session_id", some event.sessionId), ("target_service", some event.targetService),
      ("origin_service", event.originService), ("event_type", some event.eventType),
      ("old_state", event.oldState.map (·.value)), ("new_state", event.newState.map (·.value)),
      ("endpoint_id", event.endpointId), ("termination_reason", event.terminationReason),
      ("error", event.error.map (·.name))].filterMap fun field =>
    field.2.map fun text => (field.1, .json (.str text)))

/-- What the observatory makes of the files, where `activity` is what it reads from the logs. -/
def observatoryOf (registry : Registry) (activity : Except Exn (List Value)) (files : Files) :
    Except Exn Observed := do
  let snapshot ← (snapshot registry files.sources).mapError fun _ => .other "unknown service"
  let (sessions, _) ← (sessions (some files.router)).mapError fun _ => .other "malformed journal"
  let activity ← activity
  return ⟨snapshot, sessions.map sessionValue, activity⟩

/-- A monitoring engine; without a state root it keeps no file. -/
structure Monitor where
  engine : Monitoring.Engine
  rooted : Bool

/-- The dashboard with what it reads from. -/
structure Dashboard where
  app : DashboardApp
  observatory : Files → Except Exn Observed
  monitoring : Option Monitor

/-- What one request meets: the readings of the clocks, the query of its target and what the
file operations of `_save` raise before the file is replaced. -/
structure Moment where
  seen : ℚ
  shown : ℚ
  now : DateTime
  query : Form
  saving : Except Exn Unit

/-- The dashboard process and the files. -/
structure House where
  world : World
  files : Files

/-! ## Alerts -/

/-- The text of a severity. -/
def severityText : Severity → String
  | .info => "info"
  | .warning => "warning"
  | .critical => "critical"

/-- The text of a state. -/
def stateText : Monitoring.AlertState → String
  | .active => "ACTIVE"
  | .cleared => "CLEARED"

/-- An entry of the alerts: a record of the engine, or an alert of the snapshot. -/
inductive Listed
  | record (record : Monitoring.Record)
  | alert (alert : Alert)
deriving DecidableEq

namespace Listed

/-- `x.get("severity")`. -/
def severity : Listed → String
  | record r => severityText r.condition.severity
  | alert a => severityText a.severity

/-- `x.get("service_id")`. -/
def serviceId : Listed → Option String
  | record r =>
      match r.condition.subject with
      | .service id => some id
      | .host _ => none
  | alert a => some a.serviceId

/-- `x.get("host_id")`. -/
def hostId : Listed → Option String
  | record r =>
      match r.condition.subject with
      | .service _ => none
      | .host id => some id
  | alert _ => none

/-- `x.get("state","ACTIVE")`. -/
def state : Listed → String
  | record r => stateText r.state
  | alert _ => "ACTIVE"

/-- `x.get("alert_id",x.get("id"))`. -/
def alertId : Listed → String
  | record r => r.alertId
  | alert a => a.id

/-- `x["occurrence_count"]`. -/
def occurrenceCount : Listed → ℕ
  | record r => r.occurrenceCount
  | alert _ => 1

end Listed

/-- The key by which `MonitoringEngine.alerts` sorts: the severity, then the id. -/
def listedBefore (first second : Monitoring.Record) : Prop :=
  severityText first.condition.severity < severityText second.condition.severity ∨
    (severityText first.condition.severity = severityText second.condition.severity ∧
      first.alertId ≤ second.alertId)

instance (first second : Monitoring.Record) : Decidable (listedBefore first second) :=
  inferInstanceAs (Decidable (_ ∨ _))

/-- The order of `MonitoringEngine.alerts`. -/
def sortedRecords (records : List Monitoring.Record) : List Monitoring.Record :=
  records.insertionSort listedBefore

/-- The filters of `/api/v1/alerts`. -/
def selected (query : Form) (alerts : List Listed) : List Listed :=
  let wanted (name : String) (field : Listed → Option String) (listed : Listed) : Bool :=
    ((query.get? name).map Prod.fst).all fun value => field listed = some value
  alerts.filter fun listed =>
    wanted "severity" (some ·.severity) listed && wanted "service" Listed.serviceId listed &&
      wanted "host" Listed.hostId listed && wanted "state" (some ·.state) listed

/-! ## Replies -/

/-- What `api` returns. -/
inductive Answer
  | status (services running : ℕ) (activeCallers : ℤ) (maintenance failed alerts : ℕ)
  | health (counts : List (Health × ℕ))
  | host (host : Host)
  | services (items : List ServiceSummary)
  | service (item : ServiceSummary)
  | alerts (items : List Listed)
  | alert (item : Listed)
  | sessions (items : List Value)
  | activity (items : List Value)
  | readiness (items : List (String × Observatory.Readiness))
  | artifacts (items : List (String × ArtifactSummary))
  | backups (items : List (String × Option BackupSummary))
  | hosts (items : List Host)

/-- What `page` shows. -/
inductive Page
  | overview (services running : ℕ) (activeCallers : ℤ) (maintenance failed alerts : ℕ)
      (items : List ServiceSummary)
  | service (item : ServiceSummary) (controls : Option Session)
  | host (host : Host)
  | services (items : List ServiceSummary)
  | alerts (items : List Listed)
  | sessions (items : List Value)
  | activity (items : List Value)
  | readiness (items : List (String × Observatory.Readiness))
  | artifacts (items : List (String × ArtifactSummary))
  | backups (items : List (String × Option BackupSummary))
  | hosts (items : List Host)
  | audit (records : List AuditRecord)

/-- What a request that reads is answered with. -/
inductive Reply
  | response (response : Response)
  | answer (answer : Answer)
  | page (page : Page)

/-! ## The interface and the pages -/

section Views

variable (observed : Observed)

/-- The services in a state that is up. -/
def running : ℕ := (observed.snapshot.services.filter fun item => item.state ∈ upStates).length

/-- `health_summary`. -/
def healthSummary : List (Health × ℕ) :=
  [Health.healthy, .degraded, .unhealthy, .unknown].map fun health =>
    (health, (observed.snapshot.services.filter fun item => item.health = health).length)

/-- The rows of `readiness`. -/
def readinessRows : List (String × Observatory.Readiness) :=
  observed.snapshot.services.map fun item => (item.id, item.readiness)

/-- The rows of `artifacts`. -/
def artifactRows : List (String × ArtifactSummary) :=
  observed.snapshot.services.filterMap fun item => item.artifact.map fun artifact =>
    (item.id, artifact)

/-- The rows of `backups`. -/
def backupRows : List (String × Option BackupSummary) :=
  observed.snapshot.services.map fun item => (item.id, item.backup)

/-- `api`, where no alerts are asked for. -/
def answerOf (parts : List String) : Option Answer :=
  let items := observed.snapshot.services
  match parts with
  | ["api", "v1", "status"] =>
      some (.status items.length (running observed) (items.map (·.activeSessions)).sum
        (items.filter (·.maintenance)).length (items.filter (·.state = "failed")).length
        observed.snapshot.alerts.length)
  | ["api", "v1", "health"] => some (.health (healthSummary observed))
  | ["api", "v1", "hosts", id] => (observed.snapshot.hosts.find? (·.id = id)).map .host
  | ["api", "v1", "services"] => some (.services items)
  | "api" :: "v1" :: "services" :: id :: _ => (items.find? (·.id = id)).map .service
  | ["api", "v1", "sessions"] => some (.sessions observed.sessions)
  | ["api", "v1", "activity"] => some (.activity observed.activity)
  | ["api", "v1", "readiness"] => some (.readiness (readinessRows observed))
  | ["api", "v1", "artifacts"] => some (.artifacts (artifactRows observed))
  | ["api", "v1", "backups"] => some (.backups (backupRows observed))
  | ["api", "v1", "hosts"] => some (.hosts observed.snapshot.hosts)
  | _ => none

/-- `page`, with the alerts it has asked for. -/
def pageOf (path : String) (alerts : List Listed) (audit : List AuditRecord)
    (session : Option Session) : Option Page :=
  let items := observed.snapshot.services
  if path = "/" ∨ path = "" then
    some (.overview items.length (running observed) (items.map (·.activeSessions)).sum
      (items.filter (·.maintenance)).length (items.filter (·.state = "failed")).length
      alerts.length items)
  else
    match pathParts path with
    | ["service", id] => (items.find? (·.id = id)).map fun item => .service item session
    | ["hosts", id] => (observed.snapshot.hosts.find? (·.id = id)).map .host
    | "services" :: _ => some (.services items)
    | "alerts" :: _ => some (.alerts alerts)
    | "hosts" :: _ => some (.hosts observed.snapshot.hosts)
    | "readiness" :: _ => some (.readiness (readinessRows observed))
    | "artifacts" :: _ => some (.artifacts (artifactRows observed))
    | "backups" :: _ => some (.backups (backupRows observed))
    | "audit" :: _ => some (.audit audit)
    | "sessions" :: _ => some (.sessions observed.sessions)
    | "activity" :: _ => some (.activity observed.activity)
    | _ => none

end Views

/-! ## `do_GET` -/

/-- A program of the dashboard process, which concerns none of the files. -/
def indoors {α : Type} (act : Act World Exn α) : Act House Exn α := fun house =>
  (act.run house.world).map fun result => (result.1, { house with world := result.2 })

namespace Monitor

/-- `MonitoringEngine.evaluate`. -/
def evaluate (monitor : Monitor) (moment : Moment) (snapshot : Snapshot) :
    Act House Exn (List Monitoring.Record) := do
  let house ← get
  let file := if monitor.rooted then house.files.alerts else .missing
  let (records, file) := monitor.engine.evaluate moment.now snapshot file
  Act.whenever monitor.rooted do
    Act.ofExcept moment.saving
    modify fun house => { house with files := { house.files with alerts := file } }
  return records

end Monitor

namespace Dashboard

variable (dashboard : Dashboard) (moment : Moment)

/-- `self.monitoring.alerts(snap) if self.monitoring else …`. -/
def listedAlerts (observed : Observed) : Act House Exn (List Listed) :=
  match dashboard.monitoring with
  | none => pure (observed.snapshot.alerts.map .alert)
  | some monitor => do
      let records ← monitor.evaluate moment observed.snapshot
      return (sortedRecords records).map .record

/-- `self.snapshot()`. -/
def observe : Act House Exn Observed := do
  let house ← get
  Act.ofExcept (dashboard.observatory house.files)

/-- `api`. -/
def api (path : String) : Act House Exn (Option Answer) := do
  let observed ← dashboard.observe
  let parts := pathParts path
  if parts.take 3 = ["api", "v1", "alerts"] then do
    let alerts ← dashboard.listedAlerts moment observed
    let alerts := selected moment.query alerts
    match parts[3]? with
    | none => return some (.alerts alerts)
    | some id => return (alerts.find? (·.alertId = id)).map .alert
  else return answerOf observed parts

/-- `page`. -/
def page (path : String) (session : Option Session) : Act House Exn (Option Page) := do
  let observed ← dashboard.observe
  let alerts ← dashboard.listedAlerts moment observed
  let house ← get
  let audit := if dashboard.app.audit then house.world.audit.reverse.take 100 else []
  return pageOf observed path alerts audit session

/-- The end of `do_GET`. -/
def view (path : String) (token : Option String) : Act House Exn Reply :=
  if startsWith "/api/" path then do
    match ← dashboard.api moment path with
    | none => return .response (sendError 404 none)
    | some answer => return .answer answer
  else do
    let session ← indoors (dashboard.app.sessionOf moment.shown token)
    match ← dashboard.page moment path session with
    | none => return .response (sendError 404 none)
    | some page => return .page page

/-- The `try` statement of `do_GET`. -/
def getPath (request : Request) (path : String) : Act House Exn Reply :=
  if path = "/admin/login" then return .response DashboardApp.loginPage
  else do
    let token := request.cookie "ubb_admin"
    let session ← indoors (dashboard.app.sessionOf moment.seen token)
    if dashboard.app.requireAuth ∧ session = none then return .response DashboardApp.unauthorized
    else if path = "/admin/logout" then do
      return .response (← indoors (DashboardApp.logout token))
    else if path = "/api/v1/audit" then do
      return .response (← indoors dashboard.app.audited)
    else dashboard.view moment path token

/-- `do_GET`. -/
def doGet (request : Request) : Act House Exn Reply := do
  let path ← Act.ofExcept (dashboard.app.python.urlPath request.target)
  tryCatch (dashboard.getPath moment request path) fun exn =>
    if exn = .exit then throw exn
    else return .response (sendError 503 (some "observatory temporarily unavailable"))

end Dashboard

end UltimateBBSBox.Admin

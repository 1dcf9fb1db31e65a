import Mathlib.Data.List.Sort
import UltimateBBSBox.Registry

/-!
# The observatory

`collector.py` of `ubb_observatory`: it reads the registry and the files of the
other components, sums up every service, derives a health for it and lists the
alerts.  It writes nothing.

`Sources` is what the files hold, after `_read_json`; a file that is missing or
does not parse reads as `none`.  A summary keeps what the health, the alerts, the
hosts and the monitoring engine read.
-/

namespace UltimateBBSBox.Observatory

/-! ## What the files hold -/

/-- `instances/<service id>.json` of the supervisor. -/
structure InstanceRecord where
  state : Option String
  activeSessionCount : Option ℤ
  /-- Whether `maintenance_results` has entries. -/
  maintained : Bool
deriving DecidableEq

/-- `metadata/<artifact id>.json` of the archive. -/
structure Metadata where
  /-- `preservation.status`. -/
  status : Option String
deriving DecidableEq

/-- `deployment/amiexpress-current.json`. -/
structure Deployment where
  candidate : Option String
deriving DecidableEq

/-- The fields of a backup manifest that are shown. -/
structure BackupDocument where
  createdAt : Option String
  files : Option ℕ
deriving DecidableEq

/-- A file named `backup-manifest.json` beneath a backup root. -/
structure EvidenceFile where
  /-- The names from the root to the file. -/
  path : List String
  mtime : ℕ
  /-- What it holds, if it parses. -/
  document : Option BackupDocument
deriving DecidableEq

/-- An entry of `install_roots`. -/
structure InstallRoot where
  /-- The statuses of the results in `qualification/<name>.json`. -/
  qualification : String → Option (List (Option String))
  deployment : Option Deployment
  evidence : List EvidenceFile

/-- What the files hold when the observatory reads them. -/
structure Sources where
  instanceFile : String → Option InstanceRecord
  metadata : String → Option Metadata
  installRoots : String → Option InstallRoot
  /-- The evidence beneath `backup_root`, where one is configured. -/
  backupRoot : Option (List EvidenceFile)

/-! ## Summaries -/

/-- What `_qualification` calls a state. -/
inductive Readiness | ready | notReady | blocked | readyWithHumanRequirements | unknown
deriving DecidableEq, Repr

/-- The text of a readiness. -/
def Readiness.name : Readiness → String
  | .ready => "READY"
  | .notReady => "NOT_READY"
  | .blocked => "BLOCKED"
  | .readyWithHumanRequirements => "READY_WITH_HUMAN_REQUIREMENTS"
  | .unknown => "UNKNOWN"

/-- `health`. -/
inductive Health | healthy | degraded | unhealthy | unknown
deriving DecidableEq, Repr

/-- `host_health` of a service. -/
inductive HostHealth | local | unknown
deriving DecidableEq, Repr

/-- What `_artifact` returns. -/
structure ArtifactSummary where
  id : String
  verified : Bool
deriving DecidableEq

/-- What `_backup` returns. -/
structure BackupSummary where
  verified : Bool
  manifest : List String
  createdAt : Option String
  coverage : Option ℕ
deriving DecidableEq

/-- `ServiceSummary`. -/
structure ServiceSummary where
  id : String
  integration : Option String
  endpoint : NormalizedEndpoint
  policy : Mode
  state : String
  activeSessions : ℤ
  maintenance : Bool
  readiness : Readiness
  artifact : Option ArtifactSummary
  deployment : Option Deployment
  backup : Option BackupSummary
  hostHealth : HostHealth
  health : Health
deriving DecidableEq

/-- A text that is present and not empty. -/
def given (text : Option String) : Option String := text.filter (· ≠ "")

/-- `_qualification` of a document with these statuses. -/
def qualificationState (statuses : List (Option String)) : Readiness :=
  if statuses.any (· == some "FAIL") then .notReady
  else if statuses.any (· == some "BLOCKED") then .blocked
  else if statuses.any (· == some "HUMAN_REQUIRED") then .readyWithHumanRequirements
  else if statuses ≠ [] ∧ statuses.all fun status =>
      status == some "PASS" || status == some "SKIP" then
    .ready
  else .unknown

/-- `_qualification`: the document of the artifact, or else the latest one. -/
def qualification (root : Option InstallRoot) (artifactId : String) : Readiness :=
  match root with
  | none => .unknown
  | some root =>
      match (root.qualification artifactId).or (root.qualification "latest") with
      | none => .unknown
      | some statuses => qualificationState statuses

/-- `_artifact`: the first artifact of the integration with metadata. -/
def artifact (sources : Sources) (integration : Option Integration) : Option ArtifactSummary :=
  match integration with
  | none => none
  | some integration =>
      integration.artifacts.findSome? fun artifactId =>
        (sources.metadata artifactId).map fun metadata =>
          ⟨artifactId, metadata.status = some "READY"⟩

/-- The glob `backup*/backup-manifest.json`. -/
def EvidenceFile.besideRoot (file : EvidenceFile) : Bool :=
  match file.path with
  | [directory, _] => "backup".toList.isPrefixOf directory.toList
  | _ => false

/-- The glob `backups/*/backup-manifest.json`. -/
def EvidenceFile.inBackups (file : EvidenceFile) : Bool :=
  match file.path with
  | [first, _, _] => first = "backups"
  | _ => false

/-- The files `_backup` finds, newest first. -/
def evidence (files : List EvidenceFile) : List EvidenceFile :=
  (files.filter EvidenceFile.besideRoot ++ files.filter EvidenceFile.inBackups).insertionSort
    fun first second => second.mtime ≤ first.mtime

/-- What `_backup` makes of a file. -/
def EvidenceFile.summary (file : EvidenceFile) : BackupSummary where
  verified := file.document.isSome
  manifest := file.path
  createdAt := file.document.bind (·.createdAt)
  coverage := file.document.map fun document => document.files.getD 0

/-- `_backup`. -/
def backup (sources : Sources) (integrationId : String) : Option BackupSummary :=
  match sources.backupRoot.or ((sources.installRoots integrationId).map (·.evidence)) with
  | none => none
  | some files => (evidence files).head?.map EvidenceFile.summary

/-- The states of a service that is up. -/
def upStates : List String := ["running", "ready", "maintenance"]

/-- The case split of `services` on the health. -/
def healthOf (location : Location) (mode : Mode) (state : String) (readiness : Readiness) :
    Health :=
  if location = .remote then .unknown
  else if state = "failed" ∨ (mode = .alwaysOn ∧ state ∉ upStates) then .unhealthy
  else if state ∈ upStates ∧ readiness ∈ [Readiness.notReady, .blocked] then .degraded
  else if state = "unknown" ∨ readiness = .unknown then .unknown
  else .healthy

/-- The summary of a service whose declaration is resolved. -/
def summarize (sources : Sources) (declaration : Declaration) : ServiceSummary :=
  let service := declaration.service
  let record := (sources.instanceFile service.id).getD ⟨none, none, false⟩
  let integrationId := given service.integrationId
  let artifact := artifact sources declaration.integration
  let state := record.state.getD "unknown"
  let readiness := match integrationId with
    | none => .unknown
    | some id => qualification (sources.installRoots id) ((artifact.map (·.id)).getD "")
  { id := service.id
    integration := service.integrationId
    endpoint := declaration.endpoint
    policy := service.lifecycle.mode
    state := state
    activeSessions := record.activeSessionCount.getD 0
    maintenance := state = "maintenance" ∨ (record.maintained ∧ state ∈ ["running", "ready"])
    readiness := readiness
    artifact := artifact
    deployment := (integrationId.bind sources.installRoots).bind (·.deployment)
    backup := integrationId.bind (backup sources)
    hostHealth := if declaration.endpoint.location = .remote then .unknown else .local
    health := healthOf declaration.endpoint.location service.lifecycle.mode state readiness }

/-- The loop of `services`. -/
def summarizeAll (registry : Registry) (sources : Sources) :
    List Service → Except RegistryError (List ServiceSummary)
  | [] => return []
  | service :: rest => do
      let declaration ← registry.resolve service.id
      let summaries ← summarizeAll registry sources rest
      return summarize sources declaration :: summaries

/-- `services`. -/
def services (registry : Registry) (sources : Sources) :
    Except RegistryError (List ServiceSummary) := do
  let listed ← registry.listServices default
  let summaries ← summarizeAll registry sources listed
  return summaries.insertionSort fun first second => first.id ≤ second.id

theorem mem_summarizeAll {registry : Registry} {sources : Sources} {listed : List Service}
    {summaries : List ServiceSummary} (h : summarizeAll registry sources listed = .ok summaries)
    {item : ServiceSummary} :
    item ∈ summaries ↔ ∃ service ∈ listed, ∃ declaration,
      registry.resolve service.id = .ok declaration ∧ item = summarize sources declaration := by
  induction listed generalizing summaries with
  | nil =>
      obtain rfl := Except.ok.inj h
      simp
  | cons service rest ih =>
      rw [summarizeAll] at h
      obtain ⟨declaration, hresolve, h⟩ := Except.bind_eq_ok.mp h
      obtain ⟨others, hothers, h⟩ := Except.bind_eq_ok.mp h
      rw [← Except.pure_eq_ok.mp h, List.mem_cons, ih hothers]
      simp [hresolve]

/-- Whether the services can be summed up does not depend on the files. -/
theorem summarizeAll_ok {registry : Registry} {sources sources' : Sources} {listed : List Service}
    {summaries : List ServiceSummary} (h : summarizeAll registry sources listed = .ok summaries) :
    ∃ summaries', summarizeAll registry sources' listed = .ok summaries' := by
  induction listed generalizing summaries with
  | nil => exact ⟨[], rfl⟩
  | cons service rest ih =>
      rw [summarizeAll] at h
      obtain ⟨declaration, hresolve, h⟩ := Except.bind_eq_ok.mp h
      obtain ⟨others, hothers, h⟩ := Except.bind_eq_ok.mp h
      obtain ⟨others', hothers'⟩ := ih hothers
      refine ⟨summarize sources' declaration :: others', ?_⟩
      rw [summarizeAll, Except.bind_eq_ok]
      exact ⟨declaration, hresolve, Except.bind_eq_ok.mpr ⟨others', hothers', rfl⟩⟩

theorem services_ok {registry : Registry} {sources sources' : Sources}
    {summaries : List ServiceSummary} (h : services registry sources = .ok summaries) :
    ∃ summaries', services registry sources' = .ok summaries' := by
  obtain ⟨listed, hlisted, h⟩ := Except.bind_eq_ok.mp h
  obtain ⟨unsorted, hunsorted, h⟩ := Except.bind_eq_ok.mp h
  obtain ⟨unsorted', hunsorted'⟩ := summarizeAll_ok hunsorted
  refine ⟨unsorted'.insertionSort fun first second => first.id ≤ second.id, ?_⟩
  unfold services
  rw [Except.bind_eq_ok]
  exact ⟨listed, hlisted, Except.bind_eq_ok.mpr ⟨unsorted', hunsorted', rfl⟩⟩

/-- The summaries are those of the services of the registry. -/
theorem mem_services {registry : Registry} {sources : Sources} {summaries : List ServiceSummary}
    (h : services registry sources = .ok summaries) {item : ServiceSummary} :
    item ∈ summaries ↔ ∃ service ∈ registry.services, ∃ declaration,
      registry.resolve service.id = .ok declaration ∧ declaration.service = service ∧
        item = summarize sources declaration := by
  unfold services at h
  obtain ⟨listed, hlisted, h⟩ := Except.bind_eq_ok.mp h
  obtain ⟨unsorted, hunsorted, h⟩ := Except.bind_eq_ok.mp h
  rw [← Except.pure_eq_ok.mp h, List.mem_insertionSort, mem_summarizeAll hunsorted,
    Registry.eq_of_listServices_default hlisted]
  refine exists_congr fun service => and_congr_right fun hservice => exists_congr fun declaration =>
    and_congr_right fun hresolve => (and_iff_right ?_).symm
  obtain ⟨hmem, hid⟩ := Registry.service_of_resolve hresolve
  exact Registry.eq_of_id_eq hmem hservice hid

/-- The summary of a service, by its id. -/
theorem summary_of_id {registry : Registry} {sources : Sources} {summaries : List ServiceSummary}
    (h : services registry sources = .ok summaries) {item : ServiceSummary} (hitem : item ∈ summaries)
    {service : Service} (hservice : service ∈ registry.services) (hid : item.id = service.id) :
    ∃ declaration, registry.resolve service.id = .ok declaration ∧
      declaration.service = service ∧ item = summarize sources declaration := by
  obtain ⟨service', hservice', declaration, hresolve, hdeclaration, rfl⟩ := (mem_services h).mp hitem
  have hid' : declaration.service.id = service.id := hid
  rw [hdeclaration] at hid'
  obtain rfl := Registry.eq_of_id_eq hservice' hservice hid'
  exact ⟨declaration, hresolve, hdeclaration, rfl⟩

/-- Every service of the registry has a summary. -/
theorem exists_summary {registry : Registry} {sources : Sources} {summaries : List ServiceSummary}
    (h : services registry sources = .ok summaries) {service : Service}
    (hservice : service ∈ registry.services) : ∃ item ∈ summaries, item.id = service.id := by
  have hresolved : ∀ (listed : List Service) (items : List ServiceSummary),
      summarizeAll registry sources listed = .ok items → ∀ service ∈ listed,
        ∃ declaration, registry.resolve service.id = .ok declaration := by
    intro listed
    induction listed with
    | nil => simp
    | cons first rest ih =>
        intro items hitems service hmem
        rw [summarizeAll] at hitems
        obtain ⟨declaration, hresolve, hitems⟩ := Except.bind_eq_ok.mp hitems
        obtain ⟨others, hothers, _⟩ := Except.bind_eq_ok.mp hitems
        rcases List.mem_cons.mp hmem with rfl | hmem
        · exact ⟨declaration, hresolve⟩
        · exact ih others hothers service hmem
  obtain ⟨listed, hlisted, hrest⟩ := Except.bind_eq_ok.mp h
  obtain ⟨unsorted, hunsorted, _⟩ := Except.bind_eq_ok.mp hrest
  rw [Registry.eq_of_listServices_default hlisted] at hunsorted
  obtain ⟨declaration, hresolve⟩ := hresolved _ _ hunsorted service hservice
  obtain ⟨hmem, hid⟩ := Registry.service_of_resolve hresolve
  have hdeclared := Registry.eq_of_id_eq hmem hservice hid
  exact ⟨summarize sources declaration,
    (mem_services h).mpr ⟨service, hservice, declaration, hresolve, hdeclared, rfl⟩, hid⟩

/-- No two summaries have one id. -/
theorem eq_of_summary_id {registry : Registry} {sources : Sources}
    {summaries : List ServiceSummary} (h : services registry sources = .ok summaries)
    {item item' : ServiceSummary} (hitem : item ∈ summaries) (hitem' : item' ∈ summaries)
    (hid : item.id = item'.id) : item = item' := by
  obtain ⟨service, hservice, declaration, hresolve, hdeclaration, rfl⟩ := (mem_services h).mp hitem'
  have hid' : item.id = service.id := hid.trans (congrArg Service.id hdeclaration)
  obtain ⟨declaration', hresolve', _, rfl⟩ := summary_of_id h hitem hservice hid'
  rw [hresolve] at hresolve'
  rw [Except.ok.inj hresolve']

/-! ## Alerts -/

/-- `severity` of an alert. -/
inductive Severity | info | warning | critical
deriving DecidableEq, Repr

/-- The place of a severity: the graver, the higher. -/
def Severity.level : Severity → ℕ
  | .info => 0
  | .warning => 1
  | .critical => 2

/-- `Alert`. -/
structure Alert where
  id : String
  severity : Severity
  serviceId : String
  message : String
  candidate : Option String
deriving DecidableEq

/-- The rounds of the loop of `alerts` for one service. -/
def alertsOf (item : ServiceSummary) : List Alert :=
  (if item.state = "failed" then
    [⟨s!"failed:{item.id}", .critical, item.id, "service is failed", none⟩] else []) ++
  (if item.policy = .alwaysOn ∧ item.state ∉ upStates ∧ item.state ≠ "unknown" then
    [⟨s!"always-on:{item.id}", .critical, item.id, "always_on service is not running", none⟩]
    else []) ++
  (if item.readiness ∈ [Readiness.notReady, .blocked] then
    [⟨s!"readiness:{item.id}", .warning, item.id, s!"qualification is {item.readiness.name}",
      none⟩] else []) ++
  (if item.artifact.any (!·.verified) then
    [⟨s!"artifact:{item.id}", .critical, item.id, "preservation artifact is not verified", none⟩]
    else []) ++
  (if item.backup = none then
    [⟨s!"backup:{item.id}", .warning, item.id, "no backup evidence recorded", none⟩] else []) ++
  match item.deployment.bind fun deployment => given deployment.candidate with
  | some candidate =>
      [⟨s!"update:{item.id}", .info, item.id, "candidate deployment is available", some candidate⟩]
  | none => []

/-- The order of `alerts`: graver ones first, then by id. -/
def Alert.before (first second : Alert) : Prop :=
  second.severity.level < first.severity.level ∨
    (first.severity.level = second.severity.level ∧ first.id ≤ second.id)

instance (first second : Alert) : Decidable (first.before second) :=
  inferInstanceAs (Decidable (_ ∨ _))

/-- `alerts`. -/
def alerts (summaries : List ServiceSummary) : List Alert :=
  (summaries.flatMap alertsOf).insertionSort Alert.before

theorem mem_alerts {summaries : List ServiceSummary} {alert : Alert} :
    alert ∈ alerts summaries ↔ ∃ item ∈ summaries, alert ∈ alertsOf item := by
  rw [alerts, List.mem_insertionSort, List.mem_flatMap]

theorem serviceId_of_mem_alertsOf {item : ServiceSummary} {alert : Alert}
    (h : alert ∈ alertsOf item) : alert.serviceId = item.id := by
  simp only [alertsOf, List.mem_append, List.mem_ite_nil_right, List.mem_singleton] at h
  rcases h with ((((⟨_, rfl⟩ | ⟨_, rfl⟩) | ⟨_, rfl⟩) | ⟨_, rfl⟩) | ⟨_, rfl⟩) | h
  · rfl
  · rfl
  · rfl
  · rfl
  · rfl
  · split at h
    · rw [List.mem_singleton.mp h]
    · simp at h

/-- The alert of a missing backup is raised where none is shown. -/
theorem noBackup_alert_iff {item : ServiceSummary} :
    (∃ alert ∈ alertsOf item, alert.message = "no backup evidence recorded") ↔
      item.backup = none := by
  have hqualification : ∀ readiness : Readiness,
      s!"qualification is {readiness.name}" ≠ "no backup evidence recorded" := by
    intro readiness
    cases readiness <;> decide
  constructor
  · rintro ⟨alert, h, hmessage⟩
    simp only [alertsOf, List.mem_append, List.mem_ite_nil_right, List.mem_singleton] at h
    rcases h with ((((⟨_, rfl⟩ | ⟨_, rfl⟩) | ⟨_, rfl⟩) | ⟨_, rfl⟩) | ⟨hbackup, _⟩) | h
    · simp at hmessage
    · simp at hmessage
    · exact absurd hmessage (hqualification item.readiness)
    · simp at hmessage
    · exact hbackup
    · split at h
      · rw [List.mem_singleton.mp h] at hmessage
        simp at hmessage
      · cases h
  · intro hbackup
    refine ⟨⟨s!"backup:{item.id}", .warning, item.id, "no backup evidence recorded", none⟩, ?_, rfl⟩
    simp [alertsOf, hbackup]

/-! ## Hosts and snapshots -/

/-- An entry of `hosts`. -/
structure Host where
  id : String
  location : Location
  health : Health
  services : List String
deriving DecidableEq

/-- The host of a remote service. -/
def remoteHost (item : ServiceSummary) : String := (given item.endpoint.host).getD "remote"

/-- `hosts`: the local one, and the remote ones by name. -/
def hosts (summaries : List ServiceSummary) : List Host :=
  let served (health : HostHealth) := summaries.filter fun item => item.hostHealth = health
  let remote := ((served .unknown).map remoteHost).dedup.insertionSort (· ≤ ·)
  ⟨"local", .local, .healthy, (served .local).map (·.id)⟩ ::
    remote.map fun host => ⟨host, .remote, .unknown, (served .unknown).map (·.id)⟩

/-- `ObservatorySnapshot`. -/
structure Snapshot where
  services : List ServiceSummary
  alerts : List Alert
  hosts : List Host
deriving DecidableEq

/-- `snapshot`. -/
def snapshot (registry : Registry) (sources : Sources) : Except RegistryError Snapshot := do
  let summaries ← services registry sources
  return ⟨summaries, alerts summaries, hosts summaries⟩

/-- One local service whose integration has an artifact. -/
def doorRegistry (id : String) : Registry :=
  let door : Service :=
    { id := id
      type := .door
      endpointId := "line"
      integrationId := some "fs-uae"
      exposure := ⟨true, none, none⟩
      access := none
      lifecycle := ⟨.alwaysOn, .multiuser, none, none, none, none, none, none, none⟩
      jobs := [] }
  { services := [door]
    ordered := List.pairwise_singleton _ _
    endpoints := Dict.ofList [("line", ⟨"line", .tcp, some "localhost", none⟩)]
    integrations := Dict.ofList [("fs-uae", ⟨"fs-uae", id, "fs_uae", ["disk"], none⟩)] }

/-- The service in a state, with metadata that says `PENDING` of its artifact. -/
def pendingSources (state : String) : Sources where
  instanceFile _ := some ⟨some state, none, false⟩
  metadata _ := some ⟨some "PENDING"⟩
  installRoots _ := none
  backupRoot := none

end UltimateBBSBox.Observatory

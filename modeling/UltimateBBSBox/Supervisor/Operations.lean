import UltimateBBSBox.Supervisor.Cell
import UltimateBBSBox.Supervisor.Scheduler

/-!
# The supervisor's operations on one service

`supervisor.py`, one definition for each lock-held section, in the order of the
source.  `run_maintenance` is its two sections `beginMaintenance` and
`finishMaintenance` with the unlocked driver call between them; `tick` and
`reconcile` over all services are assembled in `Fleet.lean`.

The mutual recursion of `_ensure_running_locked` and
`_restart_after_failure_locked` goes as deep as the interpreter's stack allows
and is then ended by a `RecursionError`, here at the call for which there is no
room.  The readiness loop runs on a fuel; a section that runs out of it does not
come back.
-/

namespace UltimateBBSBox.Supervisor

open Act

variable {σ : Type} (C : Context σ)

/-! ## Texts -/

/-- `repr` of a text without quotes or control characters. -/
def pyRepr (text : String) : String := "'" ++ text ++ "'"

/-- `str` of the holds mapping. -/
def reprHolds (holds : Dict String ℤ) : String :=
  "\x7b" ++ ", ".intercalate (holds.entries.map fun hold => s!"{pyRepr hold.1}: {hold.2}") ++
    "\x7d"

/-- `f"{float(n):g}"`: six significant digits. -/
def formatG (n : ℕ) : String :=
  let exponent := Nat.log 10 n
  if exponent < 6 then toString n
  else
    let rounded := (roundHalfEven (n / (10 ^ (exponent - 5) : ℕ))).toNat
    let exponent := if rounded = 1000000 then exponent + 1 else exponent
    let rounded := if rounded = 1000000 then 100000 else rounded
    let fraction := ((toString rounded).toList.drop 1).reverse.dropWhile (· = '0') |>.reverse
    let mantissa := (toString rounded).toList.take 1 ++
      if fraction.isEmpty then [] else '.' :: fraction
    String.ofList mantissa ++ "e+" ++ (if exponent < 10 then "0" else "") ++ toString exponent

/-! ## Transitions and holds -/

/-- `_transition`. -/
def transition (newState : LifecycleState) (reason : String) (error : Option String) :
    Prog σ Unit := do
  let c ← get
  Act.ofExcept (validateTransition c.inst.state newState)
  modifyInst fun inst => { inst with state := newState }
  let timestamp ← now C
  record (.journal
    { service := c.inst.serviceId
      oldState := c.inst.state
      newState := newState
      timestamp := timestamp
      reason := reason
      instanceId := c.inst.instanceId
      error := error })
  persist

/-- `_add_hold`. -/
def addHold (reason : String) : Prog σ Unit := do
  modifyInst fun inst =>
    { inst with
      holds := inst.holds.set reason (inst.holds.getD reason 0 + 1)
      idleDeadline := none }
  persist

/-- `_remove_hold`. -/
def removeHold (reason : String) : Prog σ Unit := do
  modifyInst fun inst =>
    let count := inst.holds.getD reason 0
    { inst with
      holds := if count ≤ 1 then inst.holds.pop reason else inst.holds.set reason (count - 1) }
  persist

/-- `_mark_failed_locked`; `error` is `str(error)`. -/
def markFailedLocked (error reason : String) : Prog σ Unit := do
  let c ← get
  whenever (c.inst.state ≠ .failed) (transition C .failed reason (some error))
  modifyInst fun inst => { inst with lastFailure := some error }
  persist

/-- `_schedule_idle_locked`. -/
def scheduleIdleLocked : Prog σ Unit := do
  let c ← get
  let lifecycle := C.lifecycle c
  if lifecycle.mode ≠ .onDemand ∨ c.inst.activeHolds ≠ 0 ∨ c.inst.state ≠ .running then
    pure ()
  else if c.inst.idleDeadline.isSome then
    pure ()
  else do
    let timeout := lifecycle.idleTimeoutSeconds.getD 0
    let deadline ← Act.ofExcept (addSeconds (← now C) timeout)
    modifyInst fun inst => { inst with idleDeadline := some deadline }
    persist

/-! ## Starting and recovering -/

/-- The restart times that are still inside the window, as the comprehension of
`_restart_after_failure_locked` selects them: the window is only converted when
there is a timestamp to compare. -/
def recentRestarts (times : List DateTime) (now : DateTime) (window : ℕ) :
    Except Exn (List DateTime) :=
  match timedelta window with
  | some width => .ok (times.filter fun item => now.instant - item.instant ≤ width)
  | none => if times = [] then .ok [] else .error ⟨.overflowError, "days out of range"⟩

/-- `_restart_after_failure_locked`; `ensureRunning` is the call of
`_ensure_running_locked` it makes when there is no backoff. -/
def restartAfterFailureLocked (ensureRunning : Prog σ Unit) : Prog σ Unit := do
  let c ← get
  let lifecycle := C.lifecycle c
  if lifecycle.restart.getD .never ∉ [RestartPolicy.onFailure, .always] then
    pure ()
  else do
    let now ← now C
    let window := lifecycle.restartWindowSeconds.getD 60
    let prior ← Act.ofExcept (recentRestarts c.inst.restartTimes now window)
    modifyInst fun inst => { inst with restartTimes := prior }
    let maximum := lifecycle.maxRestarts.getD 3
    if maximum ≤ prior.length then do
      let failure := s!"restart limit exhausted ({maximum} in {window}s)"
      modifyInst fun inst =>
        { inst with
          lastFailure := some failure
          restartExhausted := true
          nextRestartAt := none
          holds := inst.holds.pop "recovery" }
      persist
      throw ⟨.restartLimitExceededError, failure⟩
    else do
      modifyInst fun inst =>
        { inst with
          restartTimes := inst.restartTimes ++ [now]
          restartExhausted := false
          holds := inst.holds.set "recovery" 1 }
      record (.attempt now)
      let backoff := lifecycle.restartBackoffSeconds.getD 0
      let nextRestart ← Act.ofExcept (addSeconds now backoff)
      modifyInst fun inst => { inst with nextRestartAt := some nextRestart }
      persist
      whenever (backoff = 0) do
        ensureRunning
        let c ← get
        whenever (c.inst.state = .running) do
          modifyInst fun inst => { inst with holds := inst.holds.pop "recovery" }
          persist

/-- The `while not driver.is_ready(...)` loop. -/
def awaitReady (declaration : Declaration) (readiness : Readiness) (timeout : ℕ)
    (deadline : ℚ) : ℕ → Prog σ Unit
  | 0 => diverge
  | fuel + 1 => do
      if ← driverIsReady C declaration readiness then
        pure ()
      else do
        if deadline ≤ (← monotonic C) then
          throw ⟨.readinessTimeoutError,
            s!"{C.service.id} readiness timed out after {formatG timeout}s"⟩
        else do
          let elapsed ← monotonic C
          sleep C (min C.pollInterval (max 0 (deadline - elapsed)))
          awaitReady declaration readiness timeout deadline fuel

/-- The `try` body of `_ensure_running_locked`. -/
def startAttempt (fuel : ℕ) (declaration : Declaration) (reason : String) : Prog σ Unit := do
  driverStart C declaration
  let c ← get
  let lifecycle := C.lifecycle c
  let timeout := lifecycle.startupTimeoutSeconds.getD 60
  let readiness := lifecycle.readiness.getD ⟨.processAlive, none⟩
  let deadline := (← monotonic C) + timeout
  awaitReady C declaration readiness timeout deadline fuel
  transition C .ready reason none
  transition C .running reason none
  let started ← now C
  modifyInst fun inst =>
    { inst with
      lastStartAt := some started
      lastFailure := none
      nextRestartAt := none
      restartExhausted := false }
  persist

/-- The `driver.stop` of a start attempt that failed. -/
def cleanUp (declaration : Declaration) : Prog σ Unit := do
  if ← driverStatus C declaration then
    driverStop C true declaration
  else
    pure ()

/-- `_ensure_running_locked`, with room on the stack for so many calls of it. -/
def ensureNested (fuel : ℕ) : ℕ → String → Prog σ Unit
  | 0, _ => throw ⟨.recursionError, "maximum recursion depth exceeded"⟩
  | depth + 1, reason => do
      let c ← get
      if c.inst.state ∈ activeStates then
        pure ()
      else if c.inst.state ∈ [LifecycleState.starting, .stopping] then
        throw ⟨.serviceBusyError, s!"service {C.service.id} is {c.inst.state.value}"⟩
      else do
        let declaration ← declaration C
        resolveDriver C
        transition C .starting reason none
        tryCatch (startAttempt C fuel declaration reason) fun exc => do
          tryCatch (cleanUp C declaration) fun _ => pure ()
          markFailedLocked C exc.message "start_failure"
          restartAfterFailureLocked C (ensureNested fuel depth "recovery")
          let c ← get
          whenever (c.inst.state = .failed) (throw exc)

/-- `_ensure_running_locked`, called from outside. -/
def ensureRunningLocked (fuel : ℕ) (reason : String) : Prog σ Unit :=
  ensureNested C fuel (C.nestingLimit + 1) reason

/-- What `start` does before it ensures that the service runs: record the
intent and install the hold. -/
def startHold (reason : String) : Prog σ Unit := do
  if reason = "admin" then do
    modifyInst fun inst => { inst with adminIntent := true }
    modifyInst fun inst =>
      if inst.state = .failed then { inst with restartExhausted := false, restartTimes := [] }
      else inst
    let c ← get
    whenever (c.inst.holds.getD "admin" 0 = 0) (addHold "admin")
  else do
    let c ← get
    whenever (c.inst.holds.getD reason 0 = 0) (addHold reason)

/-- `start`. -/
def start (fuel : ℕ) (reason : String) : Prog σ Document := do
  startHold reason
  ensureRunningLocked C fuel reason
  let c ← get
  return c.inst.toDict false

/-- `notify_failure`. -/
def notifyFailure (fuel : ℕ) (error : String) : Prog σ Document := do
  markFailedLocked C error "runtime_failure"
  restartAfterFailureLocked C (ensureRunningLocked C fuel "recovery")
  let c ← get
  return c.inst.toDict false

/-! ## Stopping -/

/-- `_stop_locked`. -/
def stopLocked (reason : String) : Prog σ Unit := do
  let c ← get
  if c.inst.state = .stopped then
    persist
  else if c.inst.state = .failed then
    transition C .stopped reason none
  else if c.inst.state ∉ activeStates then
    throw ⟨.serviceBusyError, s!"cannot stop {C.service.id} while {c.inst.state.value}"⟩
  else do
    transition C .stopping reason none
    tryCatch (do
      resolveDriver C
      driverStop C false (← declaration C)
      transition C .stopped reason none
      let stopped ← now C
      modifyInst fun inst => { inst with lastStopAt := some stopped, idleDeadline := none }
      persist) fun exc => do
        markFailedLocked C exc.message "stop_failure"
        throw exc

/-- `stop`. -/
def stop (force : Bool) (reason : String) : Prog σ Document := do
  whenever (reason = "admin") do
    modifyInst fun inst => { inst with adminIntent := false, holds := inst.holds.pop "admin" }
  whenever (force = true) do
    modifyInst fun inst => { inst with holds := ∅, sessions := ∅ }
  let c ← get
  whenever (c.inst.activeHolds ≠ 0 ∧ force = false) do
    throw ⟨.serviceBusyError,
      s!"service {C.service.id} has active holds: {reprHolds c.inst.holds}"⟩
  stopLocked C reason
  let c ← get
  return c.inst.toDict false

/-- `restart`. -/
def restart (fuel : ℕ) : Prog σ Document := do
  let _ ← stop C true "restart"
  start C fuel "admin"

/-! ## Sessions -/

/-- `acquire_session`; `sessionId` is what `uuid.uuid4().hex` returned. -/
def acquireSession (fuel : ℕ) (sessionId : String) : Prog σ String := do
  let c ← get
  whenever ((C.lifecycle c).sharing = .singleSession ∧ c.inst.sessions.size ≠ 0) do
    throw ⟨.serviceBusyError,
      s!"single_session service {C.service.id} already has an active session"⟩
  let timestamp ← now C
  modifyInst fun inst => { inst with sessions := inst.sessions.set sessionId timestamp }
  addHold "sessions"
  tryCatch (ensureRunningLocked C fuel "session") fun exc => do
    modifyInst fun inst => { inst with sessions := inst.sessions.pop sessionId }
    removeHold "sessions"
    throw exc
  return sessionId

/-- `release_session`. -/
def releaseSession (sessionId : String) : Prog σ Document := do
  let c ← get
  if c.inst.sessions.get? sessionId = none then
    throw ⟨.supervisorError, s!"unknown session {sessionId} for {C.service.id}"⟩
  else do
    modifyInst fun inst => { inst with sessions := inst.sessions.pop sessionId }
    removeHold "sessions"
    scheduleIdleLocked C
    let c ← get
    return c.inst.toDict false

/-! ## Maintenance -/

/-- `{job["name"]: job for job in ...}`. -/
def jobsByName (service : Service) : Dict String Job :=
  service.jobs.foldl (fun jobs job => jobs.set job.name job) ∅

/-- The first lock-held section of `run_maintenance`; returns `was_active`. -/
def beginMaintenance (fuel : ℕ) (job : Job) : Prog σ Bool := do
  let c ← get
  if job.name ∈ c.jobsRunning then
    throw ⟨.serviceBusyError, s!"maintenance job already running: {C.service.id}/{job.name}"⟩
  else do
    modify fun c => { c with jobsRunning := insert job.name c.jobsRunning }
    let wasActive := decide (c.inst.state ∈ activeStates)
    if wasActive = false ∧ job.wakeIfStopped.getD true = false then do
      modify fun c => { c with jobsRunning := c.jobsRunning.erase job.name }
      throw ⟨.maintenanceError,
        s!"maintenance job {C.service.id}/{job.name} is not allowed to wake a stopped service"⟩
    else do
      addHold "maintenance"
      tryCatch (do
        ensureRunningLocked C fuel "maintenance"
        transition C .maintenance s!"maintenance:{job.name}" none) fun exc => do
          removeHold "maintenance"
          modify fun c => { c with jobsRunning := c.jobsRunning.erase job.name }
          throw exc
      return wasActive

/-- The driver call between the two sections. -/
def callMaintenance (job : Job) : Prog σ (Except String Archive.Fields) :=
  tryCatch (do
    resolveDriver C
    let result ← driverRunMaintenance C (← declaration C) job
    return .ok result) fun exc => return .error exc.message

/-- What the second section stores as the job's result. -/
def maintenanceResult : Except String Archive.Fields → Archive.Fields
  | .ok result => result
  | .error message => [(.of "ok", .bool false), (.of "error", .str message)]

/-- The transition of the second section. -/
def settleMaintenance (job : Job) : Except String Archive.Fields → Prog σ Unit
  | .error message => markFailedLocked C message s!"maintenance_failure:{job.name}"
  | .ok _ => transition C .running s!"maintenance_complete:{job.name}" none

/-- The second lock-held section of `run_maintenance`. -/
def finishMaintenance (fuel : ℕ) (job : Job) (wasActive : Bool)
    (outcome : Except String Archive.Fields) : Prog σ Archive.Fields := do
  let timestamp ← now C
  modifyInst fun inst =>
    { inst with
      maintenanceResults :=
        inst.maintenanceResults.set job.name ⟨timestamp, maintenanceResult outcome⟩
      scheduleLastRun := inst.scheduleLastRun.set job.name timestamp }
  settleMaintenance C job outcome
  removeHold "maintenance"
  modify fun c => { c with jobsRunning := c.jobsRunning.erase job.name }
  match outcome with
  | .ok result => do
      let c ← get
      if wasActive = false ∧ job.shutdownAfter.getD true = true ∧ c.inst.activeHolds = 0 then do
        stopLocked C s!"maintenance_complete:{job.name}"
        return result
      else do
        scheduleIdleLocked C
        return result
  | .error message => do
      restartAfterFailureLocked C (ensureRunningLocked C fuel "recovery")
      throw ⟨.maintenanceError, s!"maintenance {C.service.id}/{job.name} failed: {message}"⟩

/-- The job of that name, or the exception `run_maintenance` starts with. -/
def findJob (jobId : String) : Prog σ Job :=
  match (jobsByName C.service).get? jobId with
  | some job => pure job
  | none => throw ⟨.maintenanceError,
      s!"unknown maintenance job {pyRepr jobId} for {C.service.id}"⟩

/-- `run_maintenance`, with nobody between its sections. -/
def runMaintenance (fuel : ℕ) (jobId : String) : Prog σ Archive.Fields := do
  let job ← findJob C jobId
  let wasActive ← beginMaintenance C fuel job
  let outcome ← callMaintenance C job
  finishMaintenance C fuel job wasActive outcome

/-! ## Reconciling -/

/-- The holds that `_reconcile_locked` derives from lifecycle mode and intent. -/
def reconcileHolds : Prog σ Unit := do
  let c ← get
  modifyInst fun inst =>
    { inst with
      holds :=
        if (C.lifecycle c).mode = .alwaysOn then inst.holds.set "always_on" 1
        else inst.holds.pop "always_on" }
  whenever (c.inst.adminIntent = true) do
    modifyInst fun inst => { inst with holds := inst.holds.set "admin" 1 }

/-- The three transitions that adopt a live runtime. -/
def adopt : Prog σ Unit := do
  transition C .starting "reconcile_adopt" none
  transition C .ready "reconcile_adopt" none
  transition C .running "reconcile_adopt" none

/-- The first `if` chain of `_reconcile_locked`: compare state and runtime. -/
def reconcileState (fuel : ℕ) (alive : Bool) : Prog σ Unit := do
  let c ← get
  if c.inst.state ∈ staleStates then
    if c.inst.state = .stopping then
      transition C (if alive then .failed else .stopped) "reconcile_stale" none
    else if alive then do
      whenever (c.inst.state = .starting) (transition C .ready "reconcile_adopt" none)
      transition C .running "reconcile_adopt" none
    else do
      markFailedLocked C "stale transient state with no live runtime" "reconcile_stale"
      transition C .stopped "reconcile_reset" none
  else if c.inst.state ∈ [LifecycleState.running, .maintenance] ∧ alive = false then do
    markFailedLocked C "runtime is not alive" "reconcile_failure"
    let c ← get
    if c.inst.activeHolds ≠ 0 then
      restartAfterFailureLocked C (ensureRunningLocked C fuel "recovery")
    else
      transition C .stopped "reconcile_no_holds" none
  else if c.inst.state = .maintenance ∧ alive = true then
    transition C .running "reconcile_abandoned_maintenance" none
  else if c.inst.state = .stopped ∧ alive = true then
    adopt C
  else
    pure ()

/-- Has that time come? -/
def reached (deadline : DateTime) (now : DateTime) : Prop := deadline.instant ≤ now.instant

instance (deadline now : DateTime) : Decidable (reached deadline now) :=
  inferInstanceAs (Decidable (_ ≤ _))

/-- The last `if` chain of `_reconcile_locked`: start what is held. -/
def reconcileStart (fuel : ℕ) : Prog σ Unit := do
  let c ← get
  if c.inst.activeHolds ≠ 0 ∧ c.inst.state = .stopped then
    ensureRunningLocked C fuel "reconcile"
  else if c.inst.activeHolds ≠ 0 ∧ c.inst.state = .failed ∧ c.inst.restartExhausted = false then
    match parseTimestamp c.inst.nextRestartAt with
    | none => ensureRunningLocked C fuel "reconcile"
    | some eligible => do
        let now ← now C
        whenever (reached eligible now) (ensureRunningLocked C fuel "reconcile")
  else
    pure ()

/-- `_reconcile_locked`. -/
def reconcileLocked (fuel : ℕ) : Prog σ Unit := do
  reconcileHolds C
  resolveDriver C
  let alive ← driverStatus C (← declaration C)
  reconcileState C fuel alive
  let c ← get
  whenever (c.inst.state = .failed ∧ alive = true) (adopt C)
  reconcileStart C fuel
  scheduleIdleLocked C
  persist

/-! ## Ticking -/

/-- The idle stop of `tick`. -/
def tickIdle (now : DateTime) : Prog σ Unit := do
  let c ← get
  match parseTimestamp c.inst.idleDeadline with
  | none => pure ()
  | some deadline =>
      whenever (reached deadline now ∧ c.inst.activeHolds = 0 ∧ c.inst.state = .running)
        (stopLocked C "idle_timeout")

/-- The due restart of `tick`. -/
def tickRestart (fuel : ℕ) (now : DateTime) : Prog σ Unit := do
  let c ← get
  match parseTimestamp c.inst.nextRestartAt with
  | none => pure ()
  | some nextRestart =>
      whenever (c.inst.state = .failed ∧ reached nextRestart now) do
        ensureRunningLocked C fuel "recovery"
        let c ← get
        whenever (c.inst.state = .running) do
          modifyInst fun inst => { inst with holds := inst.holds.pop "recovery" }
          persist

/-- The condition of the job loop of `tick`. -/
def jobDue (now : DateTime) (job : Job) (c : Cell σ) : Except Exn Bool :=
  if job.name ∈ c.jobsRunning then .ok false
  else Scheduler.isDue job.schedule now (c.inst.scheduleLastRun.get? job.name)

/-- The job loop of `tick`: mark what is due and collect its names. -/
def tickJobs (now : DateTime) : List Job → Prog σ (List String)
  | [] => return []
  | job :: rest => do
      let c ← get
      let due ← Act.ofExcept (jobDue now job c)
      if due = true then do
        modifyInst fun inst =>
          { inst with scheduleLastRun := inst.scheduleLastRun.set job.name now }
        persist
        let names ← tickJobs now rest
        return job.name :: names
      else
        tickJobs now rest

/-- The lock-held section of `tick`; returns the names of the due jobs. -/
def tickLocked (fuel : ℕ) (now : DateTime) : Prog σ (List String) := do
  tickIdle C now
  tickRestart C fuel now
  tickJobs now C.service.jobs

/-- `tick` over a registry of one service, up to the maintenance runs it starts. -/
def tickPass (fuel : ℕ) : Prog σ (List String) := do
  reconcileLocked C fuel
  let now ← now C
  tickLocked C fuel now

/-- `tick` over a registry of one service. -/
def tick (fuel : ℕ) : Prog σ Unit := do
  let due ← tickPass C fuel
  forEach due fun jobId => do
    let _ ← runMaintenance C fuel jobId

/-! ## Overrides and construction -/

/-- `set_lifecycle_mode`, as far as the supervisor's own table goes. -/
def setLifecycleMode (mode : Mode) : Prog σ Unit :=
  modify fun c => { c with override := some mode }

/-- The state a supervisor constructed over the same state directory starts
from: what the state file holds, and nothing of what was only in memory. -/
def reload : Prog σ Unit :=
  modify fun c =>
    { c with
      inst := match c.stateFile with
        | some document => InstanceState.fromDict document
        | none => freshInstance C.service.id
      jobsRunning := ∅ }

end UltimateBBSBox.Supervisor

import Mathlib.Data.Finset.Basic
import UltimateBBSBox.Library.Act
import UltimateBBSBox.Registry
import UltimateBBSBox.Supervisor.Instance

/-!
# The state of one supervised service

Everything the supervisor keeps is indexed by service and guarded by that
service's lock, so a service is a state of its own: its `InstanceState`, its
entries of `_jobs_running` and `lifecycle_overrides`, what was written to its
state file and to the journal, and the world its driver and clock answer from.

`log` records, newest first, every effect on the outside: clock readings,
journal lines, saves, and the calls made to the driver, with the instance as it
was passed.  The state file holds the newest save.  File operations succeed.

Driver and clock are an arbitrary automaton over an arbitrary state `σ`, so any
sequence of answers is some environment's.  What a driver raises is not one of
the supervisor's own exceptions.
-/

namespace UltimateBBSBox.Supervisor

/-- A line of the transition journal. -/
structure Event where
  service : String
  oldState : LifecycleState
  newState : LifecycleState
  timestamp : DateTime
  reason : String
  instanceId : String
  error : Option String

/-- What the supervisor does to, or learns from, the outside. -/
inductive Effect
  | clock (reading : DateTime)
  | journal (event : Event)
  | save (document : Document)
  | resolve
  | status (inst : InstanceState)
  | start (inst : InstanceState)
  | isReady (inst : InstanceState)
  /-- `driver.stop`; `cleanup` marks the one that follows a failed start attempt. -/
  | stop (cleanup : Bool) (inst : InstanceState)
  | runMaintenance (job : Job) (inst : InstanceState)
  /-- `_restart_after_failure_locked` recorded an attempt with this timestamp. -/
  | attempt (timestamp : DateTime)

/-- A driver's answer: what it returns or raises, the `runtime` mapping it
leaves on the instance, and its next state. -/
structure Reply (σ α : Type) where
  result : Except String α
  runtime : Archive.Fields
  env : σ

/-- Clock, driver resolver and driver of one service. -/
structure Environment (σ : Type) where
  now : σ → DateTime × σ
  monotonic : σ → ℚ × σ
  sleep : ℚ → σ → σ
  resolve : σ → Except String Unit × σ
  start : InstanceState → Declaration → σ → Reply σ Unit
  stop : InstanceState → Declaration → σ → Reply σ Unit
  status : InstanceState → Declaration → σ → Reply σ Bool
  isReady : InstanceState → Declaration → Readiness → σ → Reply σ Bool
  runMaintenance : InstanceState → Declaration → Job → σ → Reply σ Archive.Fields

/-- What a supervisor is constructed with, as far as one service sees it. -/
structure Context (σ : Type) where
  service : Service
  /-- `registry.resolve(service.id)`. -/
  declaration : Except RegistryError Declaration
  environment : Environment σ
  pollInterval : ℚ
  /-- How many calls of `_ensure_running_locked` the interpreter's stack holds inside the first. -/
  nestingLimit : ℕ

/-- The supervisor's state of one service. -/
structure Cell (σ : Type) where
  inst : InstanceState
  jobsRunning : Finset String
  override : Option Mode
  log : List Effect
  env : σ

/-- A lock-held section of the supervisor. -/
abbrev Prog (σ α : Type) : Type := Act (Cell σ) Exn α

variable {σ α : Type}

namespace Cell

/-- The state file. -/
def stateFile (c : Cell σ) : Option Document :=
  c.log.findSome? fun
    | .save document => some document
    | _ => none

end Cell

/-- `_lifecycle`. -/
def Context.lifecycle (C : Context σ) (c : Cell σ) : Lifecycle :=
  match c.override with
  | none => C.service.lifecycle
  | some mode => { C.service.lifecycle with mode := mode }

/-- `InstanceState(service_id, f"{service_id}:shared")`. -/
def freshInstance (serviceId : String) : InstanceState where
  serviceId := serviceId
  instanceId := s!"{serviceId}:shared"

/-! ## Primitive sections -/

/-- Update fields of the instance. -/
def modifyInst (f : InstanceState → InstanceState) : Prog σ Unit :=
  modify fun c => { c with inst := f c.inst }

/-- Append an effect to the log. -/
def record (effect : Effect) : Prog σ Unit := modify fun c => { c with log := effect :: c.log }

/-- `_persist`. -/
def persist : Prog σ Unit := do
  let c ← get
  record (.save (c.inst.toDict true))

variable (C : Context σ)

/-- `clock.now()`. -/
def now : Prog σ DateTime := do
  let c ← get
  let answer := C.environment.now c.env
  modify fun c => { c with env := answer.2, log := .clock answer.1 :: c.log }
  return answer.1

/-- `clock.monotonic()`. -/
def monotonic : Prog σ ℚ := do
  let c ← get
  let answer := C.environment.monotonic c.env
  modify fun c => { c with env := answer.2 }
  return answer.1

/-- `clock.sleep(seconds)`. -/
def sleep (seconds : ℚ) : Prog σ Unit :=
  modify fun c => { c with env := C.environment.sleep seconds c.env }

/-- `str(exc)` of what a driver raised. -/
def ofDriver : Except String α → Prog σ α
  | .ok a => pure a
  | .error message => throw ⟨.runtime, message⟩

/-- `_driver`. -/
def resolveDriver : Prog σ Unit := do
  let c ← get
  let answer := C.environment.resolve c.env
  modify fun c => { c with env := answer.2, log := .resolve :: c.log }
  ofDriver answer.1

/-- `_declaration`. -/
def declaration : Prog σ Declaration :=
  match C.declaration with
  | .ok declaration => pure declaration
  | .error error => throw ⟨.registry, error.message⟩

/-- A call of the driver with the instance. -/
def callDriver (call : InstanceState → σ → Reply σ α) (effect : InstanceState → Effect) :
    Prog σ α := do
  let c ← get
  let reply := call c.inst c.env
  modify fun c =>
    { c with
      inst := { c.inst with runtime := reply.runtime }
      env := reply.env
      log := effect c.inst :: c.log }
  ofDriver reply.result

/-- `driver.start`. -/
def driverStart (declaration : Declaration) : Prog σ Unit :=
  callDriver (fun inst => C.environment.start inst declaration) .start

/-- `driver.stop`. -/
def driverStop (cleanup : Bool) (declaration : Declaration) : Prog σ Unit :=
  callDriver (fun inst => C.environment.stop inst declaration) (.stop cleanup)

/-- `bool(driver.status(...).get("alive"))`. -/
def driverStatus (declaration : Declaration) : Prog σ Bool :=
  callDriver (fun inst => C.environment.status inst declaration) .status

/-- `driver.is_ready`. -/
def driverIsReady (declaration : Declaration) (readiness : Readiness) : Prog σ Bool :=
  callDriver (fun inst => C.environment.isReady inst declaration readiness) .isReady

/-- `driver.run_maintenance`. -/
def driverRunMaintenance (declaration : Declaration) (job : Job) : Prog σ Archive.Fields :=
  callDriver (fun inst => C.environment.runMaintenance inst declaration job)
    (.runMaintenance job)

/-- `t + dt.timedelta(seconds=seconds)`. -/
def addSeconds (t : DateTime) (seconds : ℚ) : Except Exn DateTime :=
  match (timedelta seconds).bind t.add with
  | some later => .ok later
  | none => .error ⟨.overflowError, "date value out of range"⟩

end UltimateBBSBox.Supervisor

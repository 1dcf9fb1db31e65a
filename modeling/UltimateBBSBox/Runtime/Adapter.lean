import Mathlib.Algebra.Order.Monoid.WithTop
import Mathlib.Algebra.Order.Ring.Unbundled.Rat
import UltimateBBSBox.Library.Act
import UltimateBBSBox.Library.Ledger
import UltimateBBSBox.Library.Text

/-!
# The process adapter

`ProcessAdapter` of `ubb_runtime/adapters.py`, and `RuntimeDriverBridge.start` of
`manager.py`.  A call works on the two tables of the adapter and on `instance.runtime`.

What the system answers is given to each call in advance: what there is to see of the
process whenever the call looks (`Look`), the readings of the clock, and how every
operation ends that may raise.  So is what `validate_config` and `build_command` say of a
configuration.  A call that waits longer than there are answers does not come back.

PTY masters and processes are named by the number of their opening, since the system uses
its numbers again.  Pipes, environment variables and the digest of the command are left
out.
-/

namespace UltimateBBSBox.Runtime

open Act

/-! ## Exceptions -/

/-- Exceptions that are no `RuntimeAdapterError`. -/
inductive Foreign
  | osError
  | processLookupError
  | permissionError
  | valueError
  | unicodeDecodeError
  | indexError
  | timeoutExpired
  | termiosError
  | attributeError
  | typeError
  | other
deriving DecidableEq

/-- `isinstance(exc, OSError)`. -/
def Foreign.isOSError (cls : Foreign) : Bool := cls ∈ [osError, processLookupError, permissionError]

/-- `isinstance(exc, ValueError)`. -/
def Foreign.isValueError (cls : Foreign) : Bool := cls ∈ [valueError, unicodeDecodeError]

/-- What a call raises; a `RuntimeStartError` with the exception that it was made of. -/
inductive Exn
  | configError (message : String)
  | startError (cause : Foreign)
  | stopError (message : String)
  | streamError (message : String)
  | foreign (cls : Foreign)
deriving DecidableEq

/-! ## The state -/

/-- What there is to see of the recorded process at one moment: whether it runs, its exit
code when it does not, and its entry in `/proc`, which is the executable and the start
ticks of the process that has the pid.  Where no process is recorded, none runs. -/
structure Look where
  runs : Bool
  exitCode : ℤ
  proc : Except Foreign (Text × Text)

/-- `instance.runtime`. -/
structure Metadata where
  adapter : Option String
  pid : Option ℤ
  processExecutable : Option Text
  processStartTicks : Option Text
deriving DecidableEq

/-- A `Popen`: the number of the process, its pid, and whether it has pipes. -/
structure Process where
  number : ℕ
  pid : ℤ
  stdio : Bool
deriving DecidableEq

/-- The tables `_processes` and `_pty_masters`, with the PTY masters that were opened and
closed, the process at the other end of each, and how many processes were started; the
`runtime` of the instance of a call, and what was seen last of its process. -/
structure State where
  processes : Dict Text Process
  ptyMasters : Ledger Text
  terminals : List (ℕ × ℕ)
  started : ℕ
  runtime : Metadata
  now : Look

/-- The process is looked at. -/
def State.seen (look : Look) (s : State) : State := { s with now := look }

/-- A type of `stream`. -/
inductive StreamType | pty | tcp | stdio
deriving DecidableEq

/-- `runtime_config`: `pty`, the type in `stream`, whether there is a graceful stop command,
and the seconds to wait for the end, which may be infinite. -/
structure Config where
  pty : Bool
  stream : Option StreamType
  gracefulStopCommand : Bool
  stopTimeoutSeconds : Option (WithTop ℚ)

/-! ## Status -/

/-- `RuntimeStatus`. -/
structure Status where
  alive : Bool
  pid : Option ℤ
  exitCode : Option ℤ
  identityVerified : Bool
  diagnostics : Option String

/-- `_proc_identity`: what cannot be read is no identity. -/
def procIdentity (proc : Except Foreign (Text × Text)) : Except Exn (Option (Text × Text)) :=
  match proc with
  | .ok identity => .ok (some identity)
  | .error cls => if cls.isOSError ∨ cls = .indexError then .ok none else .error (.foreign cls)

/-- The identity is the recorded one. -/
def Metadata.verifies (runtime : Metadata) : Option (Text × Text) → Bool
  | none => false
  | some (executable, startTicks) =>
      executable ≠ [] ∧ startTicks ≠ [] ∧ runtime.processExecutable = some executable ∧
        runtime.processStartTicks = some startTicks

/-- What `status` says of a process at a look. -/
def statusOf (s : State) (instanceId : Text) (look : Look) : Except Exn Status :=
  match s.processes.get? instanceId with
  | some process =>
      .ok ⟨look.runs, some process.pid, if look.runs then none else some look.exitCode, true, none⟩
  | none =>
      match s.runtime.pid with
      | none => .ok ⟨false, none, none, false, none⟩
      | some pid =>
          if pid ≤ 1 then .ok ⟨false, none, none, false, none⟩
          else do
            let identity ← procIdentity look.proc
            let verified := s.runtime.verifies identity
            return ⟨verified, some pid, none, verified,
              if verified then none else some "recorded process identity cannot be proven"⟩

/-- `status`. -/
def status (instanceId : Text) (look : Look) : Act State Exn Status := do
  modify (State.seen look)
  let s ← get
  Act.ofExcept (statusOf s instanceId look)

/-! ## Cleanup -/

/-- What `cleanup` leaves. -/
def cleaned (instanceId : Text) (s : State) : State :=
  { s with
    processes := s.processes.pop instanceId
    ptyMasters := s.ptyMasters.closeFor instanceId
    runtime := { s.runtime with pid := none, processExecutable := none, processStartTicks := none } }

/-- `cleanup`. -/
def cleanup (instanceId : Text) : Act State Exn Unit := modify (cleaned instanceId)

/-! ## Starting -/

/-- What a call of `start` meets: the process as `status` sees it, `build_command` and
`validate_config`, `openpty` and `setraw`, `Popen` with the pid, and the entry of the new
process in `/proc`. -/
structure StartWorld where
  look : Look
  command : Except Exn (List Text)
  prepared : Except Exn Unit
  openpty : Option Foreign
  setraw : Option Foreign
  popen : Except Foreign ℤ
  proc : Except Foreign (Text × Text)

/-- `RuntimeStartResult`. -/
structure StartResult where
  started : Bool
  pid : Option ℤ
  command : List Text
  alreadyRunning : Bool

/-- `use_pty`. -/
def Config.usePty (config : Config) : Bool := config.pty ∨ config.stream = some .pty

/-- The exceptions that `start` catches while it starts a process. -/
def Foreign.isCaught (cls : Foreign) : Bool := cls.isOSError ∨ cls.isValueError

/-- `os.close(master)`, if there is one. -/
def closeMaster (master : Option ℕ) (s : State) : State :=
  match master with
  | some master => { s with ptyMasters := s.ptyMasters.close master }
  | none => s

/-- An exception while a process is started, with the master that was opened. -/
def startFailed {α : Type} (master : Option ℕ) (cls : Foreign) : Act State Exn α :=
  if cls.isCaught then do
    modify (closeMaster master)
    throw (.startError cls)
  else throw (.foreign cls)

/-- `pty.openpty()` and `tty.setraw(slave)`, where a terminal is used. -/
def openTerminal (config : Config) (world : StartWorld) : Act State Exn (Option ℕ) :=
  if config.usePty then
    match world.openpty with
    | some cls => startFailed none cls
    | none => do
        let s ← get
        let master := s.ptyMasters.opened
        modify fun s => { s with ptyMasters := s.ptyMasters.lose }
        match world.setraw with
        | some cls => startFailed (some master) cls
        | none => return some master
  else return none

/-- `Popen`, with the slave of the terminal as its streams. -/
def spawn (config : Config) (world : StartWorld) (master : Option ℕ) : Act State Exn Process :=
  match world.popen with
  | .error cls => startFailed master cls
  | .ok pid => do
      let s ← get
      modify fun s =>
        { s with
          started := s.started + 1
          terminals := (master.map fun master => (master, s.started)).toList ++ s.terminals }
      return ⟨s.started, pid, config.stream = some .stdio⟩

/-- What `start` puts into the two tables. -/
def recorded (instanceId : Text) (process : Process) (master : Option ℕ) (s : State) : State :=
  { s with
    processes := s.processes.set instanceId process
    ptyMasters := match master with
      | some master => s.ptyMasters.record instanceId master
      | none => s.ptyMasters }

/-- The part of `start` that starts the process and records it. -/
def launch (runtimeName : String) (instanceId : Text) (config : Config) (world : StartWorld)
    (command : List Text) : Act State Exn StartResult := do
  let master ← openTerminal config world
  let process ← spawn config world master
  modify (recorded instanceId process master)
  let identity ← Act.ofExcept (procIdentity world.proc)
  modify fun s =>
    { s with
      runtime :=
        { adapter := some runtimeName
          pid := some process.pid
          processExecutable := identity.map Prod.fst
          processStartTicks := identity.map Prod.snd } }
  return ⟨true, some process.pid, command, false⟩

/-- `start`. -/
def start (runtimeName : String) (instanceId : Text) (config : Config) (world : StartWorld) :
    Act State Exn StartResult := do
  let current ← status instanceId world.look
  let command ← Act.ofExcept world.command
  if current.alive then return ⟨false, current.pid, command, true⟩
  else do
    Act.ofExcept world.prepared
    launch runtimeName instanceId config world command

/-- `instance.runtime.setdefault("adapter", self.runtime_name)`. -/
def named (runtimeName : String) (s : State) : State :=
  { s with runtime := { s.runtime with adapter := some (s.runtime.adapter.getD runtimeName) } }

/-- `RuntimeDriverBridge.start`: `prepare` validates once more and names the adapter. -/
def bridgeStart (runtimeName : String) (instanceId : Text) (config : Config)
    (validated : Except Exn Unit) (world : StartWorld) : Act State Exn StartResult := do
  Act.ofExcept validated
  modify (named runtimeName)
  start runtimeName instanceId config world

/-! ## Stopping -/

/-- One round of the wait: a reading of the clock, and a look at the process. -/
structure Round where
  clock : ℚ
  look : Look

/-- What a call of `stop` meets: the process as `status` sees it first, the graceful stop
command, SIGTERM, the clock when the wait begins, the rounds of the wait, SIGKILL, and the
process when the call goes on after it. -/
structure StopWorld where
  first : Look
  graceful : Option Foreign
  terminate : Option Foreign
  clock : ℚ
  rounds : List Round
  kill : Option Foreign
  last : Look

/-- `RuntimeStopResult`. -/
structure StopResult where
  stopped : Bool
  forced : Bool
  exitCode : Option ℤ

/-- `float(config.get("stop_timeout_seconds", 5))`. -/
def Config.timeout (config : Config) : WithTop ℚ := config.stopTimeoutSeconds.getD 5

/-- The graceful stop command; a timeout and an `OSError` are passed over. -/
def gracefulStop (config : Config) (result : Option Foreign) : Except Exn Unit :=
  match config.gracefulStopCommand, result with
  | true, some cls =>
      if cls.isOSError ∨ cls = .timeoutExpired then .ok () else .error (.foreign cls)
  | _, _ => .ok ()

/-- `os.killpg`: whether there was a process to be signalled. -/
def killpg (result : Option Foreign) : Except Exn Bool :=
  match result with
  | none => .ok true
  | some .processLookupError => .ok false
  | some cls => .error (.foreign cls)

/-- The wait of `stop` until the deadline: a result where the process has ended. -/
def grace (instanceId : Text) (deadline : WithTop ℚ) : List Round → Act State Exn (Option StopResult)
  | [] => diverge
  | round :: rest => do
      if (round.clock : WithTop ℚ) < deadline then do
        let s ← get
        match s.processes.get? instanceId with
        | some _ =>
            modify (State.seen round.look)
            if round.look.runs then grace instanceId deadline rest
            else do
              cleanup instanceId
              return some ⟨true, false, some round.look.exitCode⟩
        | none =>
            let current ← status instanceId round.look
            if current.alive then grace instanceId deadline rest
            else do
              cleanup instanceId
              return some ⟨true, false, none⟩
      else return none

/-- The end of `stop`: SIGKILL, and a bounded wait for a process that was started here. -/
def forceStop (instanceId : Text) (world : StopWorld) : Act State Exn StopResult := do
  let forced ← Act.ofExcept (killpg world.kill)
  modify (State.seen world.last)
  let s ← get
  match s.processes.get? instanceId with
  | some _ =>
      if world.last.runs then throw (.stopError "runtime did not exit after SIGKILL")
      else do
        cleanup instanceId
        return ⟨true, forced, some world.last.exitCode⟩
  | none =>
      cleanup instanceId
      return ⟨true, forced, none⟩

/-- `stop`. -/
def stop (instanceId : Text) (config : Config) (world : StopWorld) : Act State Exn StopResult := do
  let current ← status instanceId world.first
  if current.alive then do
    Act.ofExcept (gracefulStop config world.graceful)
    let _ ← Act.ofExcept (killpg world.terminate)
    let ended ← grace instanceId (world.clock + config.timeout) world.rounds
    match ended with
    | some result => return result
    | none => forceStop instanceId world
  else do
    cleanup instanceId
    return ⟨true, false, current.exitCode⟩

/-! ## Streams -/

/-- A stream, by what it reads from. -/
inductive Stream
  | pty (master : ℕ)
  | pipe (process : ℕ)
  | tcp
deriving DecidableEq

/-- `stream_type`. -/
def Config.streamType (config : Config) : Option StreamType :=
  config.stream.or (if config.pty then some .pty else none)

/-- `open_stream`; a stream has a duplicate of the descriptor of its own. -/
def openStream (instanceId : Text) (config : Config) (dup : Option Foreign)
    (connect : Except Exn Unit) : Act State Exn Stream := do
  let s ← get
  match config.streamType with
  | some .pty =>
      match s.ptyMasters.recorded.get? instanceId, dup with
      | none, _ => throw (.streamError "runtime has no active PTY")
      | some _, some cls => throw (.foreign cls)
      | some master, none => return .pty master
  | some .stdio =>
      match s.processes.get? instanceId, dup with
      | some ⟨number, _, true⟩, none => return .pipe number
      | some ⟨_, _, true⟩, some cls => throw (.foreign cls)
      | _, _ => throw (.streamError "runtime stdio is unavailable after process reconciliation")
  | some .tcp => do
      Act.ofExcept connect
      return .tcp
  | none => throw (.streamError "runtime_config.stream must select pty, stdio, or tcp")

end UltimateBBSBox.Runtime

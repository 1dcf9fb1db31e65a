import UltimateBBSBox.Router.Policy
import UltimateBBSBox.Supervisor.Fleet

/-!
# The router's operations

`router.py`, cut where an operation takes a lock that another session or the
supervisor guards: `open_session` is its registration, its authorization (which
reads the parent under the parent's lock), its `acquire_session` and its
connection, each with the part of the one `try` block it covers; a close is the
section under the session's lock and the restoration of the parent under the
parent's; a handoff starts under the parent's lock and registers the child.

What connectors, stream resolvers and streams answer comes from `Answers`, and
so does the outside world of the supervised service when the supervisor is
called.
-/

namespace UltimateBBSBox.Router

open Act

variable {σ α : Type}

/-! ## State -/

/-- A line of the session journal. -/
structure Event where
  sessionId : String
  targetService : String
  originService : Option String
  eventType : String
  oldState : Option SessionState
  newState : Option SessionState
  endpointId : Option String
  terminationReason : Option String
  error : Option ErrorClass

/-- A call that the router makes, or the answer of `acquire_session`. -/
inductive Call
  /-- `supervisor.acquire_session` is called for a session. -/
  | acquire (sessionId serviceId : String)
  /-- `supervisor.acquire_session` returned a lifecycle session. -/
  | acquired (serviceId lifecycleId : String)
  /-- `supervisor.release_session` is called. -/
  | release (serviceId lifecycleId : String)
  | resolveStream (sessionId serviceId : String)
  | connect (sessionId : String) (endpoint : NormalizedEndpoint) (timeout : ℚ)
  | closeStream (sessionId : String)
deriving DecidableEq

/-- The router's sessions, the supervisor it calls, its journal and, newest
first, its calls and what came of those of the supervisor: the class of the
exception, if one was raised. -/
structure State (σ : Type) where
  sessions : Dict String Session
  supervisor : String → Supervisor.World σ
  journal : List Event
  calls : List Call
  outcomes : List (Option ErrorClass)

/-- The supervisor's entry for a lifecycle session. -/
def State.held (s : State σ) (serviceId lifecycleId : String) : Option DateTime :=
  (s.supervisor serviceId).cell.inst.sessions.get? lifecycleId

/-- The lifecycle sessions that the supervisor has returned to the router, with
their services. -/
def State.acquired (s : State σ) : List (String × String) := s.calls.filterMap fun
  | .acquired serviceId lifecycleId => some (serviceId, lifecycleId)
  | _ => none

/-- The calls of `release_session`. -/
def State.releases (s : State σ) : List (String × String) := s.calls.filterMap fun
  | .release serviceId lifecycleId => some (serviceId, lifecycleId)
  | _ => none

/-- The sessions for which the supervisor, a connector or the stream resolver
was called. -/
def State.contacts (s : State σ) : List String := s.calls.filterMap fun
  | .acquire sessionId _ | .resolveStream sessionId _ | .connect sessionId _ _ => some sessionId
  | _ => none

/-- What a router is constructed with; `connectors` are the endpoint types that
have a connector. -/
structure Setup (σ : Type) where
  site : Supervisor.Site σ
  connectors : List EndpointType
  connectTimeout : ℚ
  streamResolver : Bool

/-- A call of a stream. -/
inductive StreamCall
  | read (size : ℕ)
  | write (data : List UInt8)
deriving DecidableEq

/-- What comes of a read or a write on a stream: the bytes that were read, none
of them at the end of the stream, the number of bytes written, an `OSError`, or
another exception. -/
inductive Transfer
  | bytes (data : List UInt8)
  | written (count : ℕ)
  | osError
  | raised (exc : Exn)
deriving DecidableEq

/-- What the outside answers in one section. -/
structure Answers (σ : Type) where
  /-- The world of the supervised service, and the fuel of the supervisor's section. -/
  env : σ
  fuel : ℕ
  /-- What `uuid.uuid4().hex` returns in `acquire_session`. -/
  lifecycleId : String
  connect : Except Exn Stream
  closeStream : Except Exn Unit
  /-- What came of reading or writing. -/
  transfer : Transfer

/-- A section of the router. -/
abbrev Prog (σ α : Type) : Type := Act (State σ) Exn α

/-! ## Primitive sections -/

/-- `_session`. -/
def session (sessionId : String) : Prog σ Session := do
  let s ← get
  match s.sessions.get? sessionId with
  | some session => pure session
  | none => throw ⟨.sessionNotFoundError, s!"unknown session: {sessionId}"⟩

/-- Store a session. -/
def put (session : Session) : Prog σ Unit :=
  modify fun s => { s with sessions := s.sessions.set session.id session }

/-- Record a call. -/
def record (call : Call) : Prog σ Unit := modify fun s => { s with calls := call :: s.calls }

/-- The class of what was raised, if anything was. -/
def outcome : Except Exn α → Option ErrorClass
  | .ok _ => none
  | .error exc => some exc.cls

/-- `_event`. -/
def event (session : Session) (eventType : String) (old new : Option SessionState)
    (reason : Option String) (error : Option Exn) : Prog σ Unit :=
  modify fun s =>
    { s with
      journal :=
        { sessionId := session.id
          targetService := session.targetService
          originService := session.originService
          eventType := eventType
          oldState := old
          newState := new
          endpointId := session.endpoint.map (·.id)
          terminationReason := reason
          error := error.map (·.cls) } :: s.journal }

/-- `_transition`; returns the session in its new state. -/
def transition (session : Session) (new : SessionState) (eventType : String)
    (reason : Option String) (error : Option Exn) : Prog σ Session := do
  Act.ofExcept (validateTransition session.state new)
  let moved := { session with state := new }
  put moved
  event moved eventType (some session.state) (some new) reason error
  return moved

variable (R : Setup σ) (answers : Answers σ)

/-- A supervisor method of one service. -/
def callSupervisor (serviceId : String)
    (act : Supervisor.Context σ → Supervisor.Prog σ α) : Prog σ α := do
  let s ← get
  match R.site.registry.find? serviceId with
  | none => do
      let exc : Exn := ⟨.supervisor .serviceNotFoundError, s!"unknown service: {serviceId}"⟩
      modify fun s => { s with outcomes := some exc.cls :: s.outcomes }
      throw exc
  | some service =>
      let world := s.supervisor service.id
      match (act (R.site.context service)).run (world.cell.withEnv answers.env) with
      | none => diverge
      | some (result, cell) => do
          let result := result.mapError Exn.ofSupervisor
          modify fun s =>
            { s with
              supervisor := Function.update s.supervisor service.id { world with cell }
              outcomes := outcome result :: s.outcomes }
          Act.ofExcept result

/-! ## Opening -/

/-- `_validate_origin`. -/
def validateOrigin (request : RouteRequest) (originSessionId : Option String) : Prog σ Unit :=
  if request.routeType ≠ .viaService then
    pure ()
  else
    match originSessionId with
    | none | some "" =>
        throw ⟨.sessionBusyError, "via_service route requires an active origin session"⟩
    | some originSessionId => do
        let origin ← session originSessionId
        if ¬ origin.state.Open then
          throw ⟨.sessionBusyError, s!"origin session {origin.id} is not active"⟩
        else if some origin.targetService ≠ request.originService then
          throw ⟨.sessionBusyError, "origin session does not match the claimed origin service"⟩
        else
          pure ()

/-- `authorize_route`. -/
def authorizeRoute (request : RouteRequest) (originSessionId : Option String) :
    Prog σ Declaration := do
  validateOrigin request originSessionId
  Act.ofExcept (authorize R.site.registry request)

/-- A call of `open_session` under way. -/
structure Opening where
  sessionId : String
  request : RouteRequest
  parentSessionId : Option String
  handoffMode : Option HandoffMode
  /-- Is it `handoff` that makes the call? -/
  byHandoff : Bool
deriving DecidableEq

/-- The session as it is created. -/
def Opening.created (o : Opening) : Session where
  id := o.sessionId
  targetService := o.request.targetService
  originService := o.request.originService
  routeType := o.request.routeType
  terminal := o.request.terminal
  callerMetadata := o.request.callerMetadata
  parentSessionId := o.parentSessionId
  handoffMode := o.handoffMode
  returnToOrigin := o.handoffMode = some .returnToOrigin

variable (o : Opening)

/-- `_register`, under the id that the id factory returned. -/
def register : Prog σ Unit := do
  let s ← get
  if s.sessions.get? o.sessionId ≠ none then
    throw ⟨.routerError, s!"duplicate generated session id: {o.sessionId}"⟩
  else do
    put o.created
    event o.created "created" none (some .created) none none

/-- `_release_hold`; returns the session as it is then.  A lifecycle session id
is never the empty text. -/
def releaseHold (current : Session) : Prog σ Session :=
  match current.lifecycleSessionId with
  | none => pure current
  | some lifecycleId =>
      if current.holdReleased = true then
        pure current
      else do
        record (.release current.targetService lifecycleId)
        let _ ← callSupervisor R answers current.targetService fun C =>
          Supervisor.releaseSession C lifecycleId
        let released := { current with holdReleased := true }
        put released
        return released

/-- The `except` clause of `open_session`. -/
def openFailed (sessionId : String) (exc : Exn) : Prog σ α := do
  let current ← session sessionId
  -- what closing the stream raises is dropped
  whenever (current.stream.isSome = true) (record (.closeStream sessionId))
  let current ← releaseHold R answers current
  let current ←
    if current.state ≠ .failed then
      transition current .failed "open_failed" (some "open_failed") (some exc)
    else pure current
  put { current with terminationReason := some "open_failed" }
  throw exc

/-- `open_session` up to the supervisor call. -/
def authorizing : Prog σ Unit :=
  tryCatch (do
    let current ← session o.sessionId
    let current ← transition current .authorizing "authorizing" none none
    validateOrigin o.request o.parentSessionId
    let resolution ← Act.ofExcept (authorize R.site.registry o.request)
    let current := { current with endpoint := some resolution.endpoint }
    put current
    let _ ← transition current .acquiring "authorized" none none)
    (openFailed R answers o.sessionId)

/-- The supervisor call of `open_session`. -/
def acquiring : Prog σ Unit :=
  tryCatch (do
    let current ← session o.sessionId
    record (.acquire o.sessionId current.targetService)
    let lifecycleId ← callSupervisor R answers current.targetService fun C =>
      Supervisor.acquireSession C answers.fuel answers.lifecycleId
    record (.acquired current.targetService lifecycleId)
    let current := { current with lifecycleSessionId := some lifecycleId }
    put current
    let _ ← transition current .connecting "lifecycle_acquired" none none)
    (openFailed R answers o.sessionId)

/-- The stream of a session: from the stream resolver where there is one, else
from the connector of the endpoint's type. -/
def connect (current : Session) : Prog σ Stream :=
  if R.streamResolver = true then do
    record (.resolveStream current.id current.targetService)
    Act.ofExcept answers.connect
  else
    match current.endpoint with
    | none => throw ⟨.foreign "TypeError", "'NoneType' object is not subscriptable"⟩
    | some endpoint => do
        let timeout := (endpoint.connectTimeoutSeconds.map (↑)).getD R.connectTimeout
        record (.connect current.id endpoint timeout)
        if endpoint.type ∈ R.connectors then
          Act.ofExcept answers.connect
        else
          throw ⟨.unsupportedTransportError,
            s!"transport '{endpoint.type.name}' is declared but not implemented in M4"⟩

/-- The connection of `open_session`. -/
def connecting : Prog σ Unit :=
  tryCatch (do
    let current ← session o.sessionId
    let stream ← connect R answers current
    let current := { current with stream := some stream }
    put current
    let _ ← transition current .active "connected" none none)
    (openFailed R answers o.sessionId)

/-! ## Closing -/

/-- `TERMINATION_REASONS`. -/
def terminationReasons : List String :=
  ["caller_closed", "endpoint_eof", "transport_error", "handoff_replaced", "parent_closed",
    "open_failed", "shutdown"]

/-- The exception an answer raises. -/
def raised : Except Exn Unit → Option Exn
  | .ok _ => none
  | .error exc => some exc

/-- `stream.close()` of a session that has a stream; returns what it raised. -/
def closeStream (current : Session) : Prog σ (Option Exn) :=
  if current.stream.isSome = true then do
    record (.closeStream current.id)
    return raised answers.closeStream
  else
    return none

/-- The end of `close_session` under the session's lock. -/
def finishClose (current : Session) (reason : String) : Option Exn → Prog σ Bool
  | some exc => do
      let _ ← transition current .failed "close_failed" (some reason) (some exc)
      throw ⟨.routerError, s!"session cleanup failed: {exc.cls.name}"⟩
  | none => do
      let _ ← transition current .closed "closed" (some reason) none
      return true

/-- `close_session` under the session's lock; returns whether it has to restore
the parent. -/
def closeSession (sessionId reason : String) : Prog σ Bool := do
  let current ← session sessionId
  let reason := if reason ∈ terminationReasons then reason else "other"
  if current.state ∈ [SessionState.closed, .closing] then
    return false
  else do
    let current ← transition current .closing "closing" (some reason) none
    let closeError ← closeStream answers current
    let released ← tryCatch (do return (← releaseHold R answers current, none)) fun exc =>
      return (current, some exc)
    let current := { released.1 with terminationReason := some reason }
    put current
    finishClose current reason (closeError.or released.2)

/-- `_restore_parent`. -/
def restoreParent (childId : String) : Prog σ Unit := do
  let child ← session childId
  match child.returnToOrigin, child.parentSessionId with
  | true, some parentId => do
      let s ← get
      match s.sessions.get? parentId with
      | none => pure ()
      | some parent =>
          whenever (parent.state = .handingOff) do
            let _ ← transition parent .active "handoff_returned" none none
  | _, _ => pure ()

/-! ## Handing off -/

/-- The request that `handoff` makes from a session. -/
def Session.handoffRequest (parent : Session) (targetServiceId : String)
    (terminal : Option TerminalCapabilities) (callerMetadata : Option Archive.Fields) : RouteRequest where
  targetService := targetServiceId
  routeType := .viaService
  originService := some parent.targetService
  terminal := terminal.getD parent.terminal
  callerMetadata := callerMetadata.getD []

/-- `handoff` under the parent's lock; returns the child's request. -/
def startHandoff (parentId targetServiceId : String) (terminal : Option TerminalCapabilities)
    (callerMetadata : Option Archive.Fields) : Prog σ RouteRequest := do
  let parent ← session parentId
  if parent.state ≠ .active then
    throw ⟨.sessionBusyError, s!"session {parent.id} cannot hand off while {parent.state.value}"⟩
  else do
    let _ ← transition parent .handingOff "handoff_started" none none
    return parent.handoffRequest targetServiceId terminal callerMetadata

/-- The `except` clause of `handoff`. -/
def handoffFailed (parentId : String) : Prog σ Unit := do
  let parent ← session parentId
  whenever (parent.state = .handingOff) do
    let _ ← transition parent .active "handoff_failed" none none

/-! ## Reading and writing -/

/-- `read` and `write` under the session's lock. -/
def requireActive (sessionId : String) : Prog σ Unit := do
  let current ← session sessionId
  whenever (current.state ≠ .active) do
    throw ⟨.sessionBusyError, s!"session {current.id} is not active"⟩

/-- The reason for which `read` or `write` closes the session afterwards, if it does. -/
def closingReason : StreamCall → Transfer → Option String
  | .read _, .bytes [] => some "endpoint_eof"
  | _, .osError => some "transport_error"
  | _, _ => none

/-- What `read` or `write` raises in the end, if anything. -/
def transferError : StreamCall → Transfer → Option Exn
  | .read _, .osError => some ⟨.transportError, "stream read failed"⟩
  | .write _, .osError => some ⟨.transportError, "stream write failed"⟩
  | _, .raised exc => some exc
  | _, _ => none

end UltimateBBSBox.Router

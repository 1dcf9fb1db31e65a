import UltimateBBSBox.Archive.Values
import UltimateBBSBox.Registry
import UltimateBBSBox.Supervisor.Lifecycle

/-!
# Sessions, their state graph and the router's exceptions

`models.py`, `state_machine.py` and `errors.py` of `ubb_router`.  The creation
time is stored with a session and never read by the router; the model leaves it
out.
-/

namespace UltimateBBSBox.Router

/-- `RouteType`. -/
inductive RouteType | direct | viaService
deriving DecidableEq, Repr

/-- `HandoffMode`. -/
inductive HandoffMode | replace | returnToOrigin
deriving DecidableEq, Repr

/-- `TerminalCapabilities`, with what `__post_init__` asks of them. -/
structure TerminalCapabilities where
  encoding : String := "utf-8"
  display : String := "raw"
  width : ℤ := 80
  height : ℤ := 24
  baud : Option ℤ := none
  binarySafe : Bool := true
  newline : String := "preserve"
  extensions : Archive.Fields := []
  named : encoding ≠ "" ∧ display ≠ "" := by decide
  sized : 1 ≤ width ∧ 1 ≤ height := by decide
  paced : ∀ b ∈ baud, 1 ≤ b := by decide
deriving DecidableEq

instance : Inhabited TerminalCapabilities := ⟨{}⟩

/-- `RouteRequest`. -/
structure RouteRequest where
  targetService : String
  routeType : RouteType := .direct
  originService : Option String := none
  terminal : TerminalCapabilities := default
  callerMetadata : Archive.Fields := []
deriving DecidableEq

/-- `SessionState`. -/
inductive SessionState
  | created | authorizing | acquiring | connecting | active | handingOff | closing | closed | failed
deriving DecidableEq, Repr

namespace SessionState

/-- The enumeration's `value`. -/
def value : SessionState → String
  | created => "created"
  | authorizing => "authorizing"
  | acquiring => "acquiring"
  | connecting => "connecting"
  | active => "active"
  | handingOff => "handing_off"
  | closing => "closing"
  | closed => "closed"
  | failed => "failed"

end SessionState

open SessionState

/-- A byte stream, known by a number. -/
abbrev Stream : Type := ℕ

/-- `Session`. -/
structure Session where
  id : String
  targetService : String
  originService : Option String
  routeType : RouteType
  terminal : TerminalCapabilities
  callerMetadata : Archive.Fields
  state : SessionState := .created
  lifecycleSessionId : Option String := none
  endpoint : Option NormalizedEndpoint := none
  terminationReason : Option String := none
  parentSessionId : Option String := none
  handoffMode : Option HandoffMode := none
  returnToOrigin : Bool := false
  stream : Option Stream := none
  holdReleased : Bool := false
deriving DecidableEq

/-! ## Exceptions -/

/-- The classes of exceptions that the router raises or lets through:
`errors.py`, those of the registry and of the supervisor, and whatever class a
connector, a stream resolver or a stream raises. -/
inductive ErrorClass
  | routerError | authorizationError | unknownServiceError | invalidSessionTransitionError
  | sessionNotFoundError | sessionBusyError | transportError | unsupportedTransportError
  | registry (cls : RegistryErrorClass)
  | supervisor (cls : Supervisor.ErrorClass)
  | foreign (name : String)
deriving DecidableEq, Repr

/-- `type(error).__name__`. -/
def ErrorClass.name : ErrorClass → String
  | .routerError => "RouterError"
  | .authorizationError => "AuthorizationError"
  | .unknownServiceError => "UnknownServiceError"
  | .invalidSessionTransitionError => "InvalidSessionTransitionError"
  | .sessionNotFoundError => "SessionNotFoundError"
  | .sessionBusyError => "SessionBusyError"
  | .transportError => "TransportError"
  | .unsupportedTransportError => "UnsupportedTransportError"
  | .registry .unknownReferenceError => "UnknownReferenceError"
  | .registry .unsupportedEndpointTypeError => "UnsupportedEndpointTypeError"
  | .registry .duplicateIdError => "DuplicateIdError"
  | .registry .invalidManifestError => "InvalidManifestError"
  | .supervisor .supervisorError => "SupervisorError"
  | .supervisor .invalidTransitionError => "InvalidTransitionError"
  | .supervisor .serviceNotFoundError => "ServiceNotFoundError"
  | .supervisor .serviceBusyError => "ServiceBusyError"
  | .supervisor .readinessTimeoutError => "ReadinessTimeoutError"
  | .supervisor .restartLimitExceededError => "RestartLimitExceededError"
  | .supervisor .maintenanceError => "MaintenanceError"
  | .supervisor .driverError => "DriverError"
  | .supervisor .overflowError => "OverflowError"
  | .supervisor .valueError => "ValueError"
  | .supervisor .recursionError => "RecursionError"
  | .supervisor .runtime => "RuntimeError"
  | .supervisor .registry => "RegistryError"
  | .foreign name => name

/-- A raised exception: its class and `str(exc)`. -/
structure Exn where
  cls : ErrorClass
  message : String
deriving DecidableEq, Repr

/-- A registry error as the router lets it through. -/
def Exn.ofRegistry (e : RegistryError) : Exn := ⟨.registry e.cls, e.message⟩

/-- A supervisor exception as the router lets it through. -/
def Exn.ofSupervisor (e : Supervisor.Exn) : Exn := ⟨.supervisor e.cls, e.message⟩

/-! ## The state graph -/

/-- `TRANSITIONS`. -/
def transitions : SessionState → List SessionState
  | created => [authorizing, failed]
  | authorizing => [acquiring, failed]
  | acquiring => [connecting, failed]
  | connecting => [active, failed]
  | active => [handingOff, closing, failed]
  | handingOff => [active, closing, failed]
  | closing => [closed, failed]
  | failed => [closing, closed]
  | closed => []

/-- `validate_transition`. -/
def validateTransition (old new : SessionState) : Except Exn Unit :=
  if new ∉ transitions old then
    .error ⟨.invalidSessionTransitionError,
      s!"invalid session transition: {old.value} -> {new.value}"⟩
  else .ok ()

theorem validateTransition_eq_ok_iff {old new : SessionState} :
    validateTransition old new = .ok () ↔ new ∈ transitions old := by
  unfold validateTransition
  split <;> simp_all

/-- A session that has come up and has not ended. -/
def SessionState.Open (state : SessionState) : Prop := state ∈ [active, handingOff]

instance (state : SessionState) : Decidable state.Open := inferInstanceAs (Decidable (_ ∈ _))

end UltimateBBSBox.Router

import UltimateBBSBox.Library.Act
import UltimateBBSBox.Archive.Values
import UltimateBBSBox.Admin.Accounts

/-!
# The action service

`AdminActionService` checks the role of the session and hands the action on to the
supervisor, the backup callback or an integration.  Those are not part of the service:
it is written here over any program `call` that carries a delegate out, and over the
registry it looks a maintenance job up in.
-/

namespace UltimateBBSBox.Admin

/-! ## What delegates return -/

/-- Python values, as far as `_jsonable` and `json.dumps` tell them apart.  A `record` is
an object whose `to_dict` returns, a `raising` one an object whose `to_dict` raises, and
`foreign` stands for everything else that `json.dumps` refuses. -/
inductive Value
  | json (value : Archive.Value)
  | foreign
  | record (fields : Value)
  | raising (exn : Exn)
  | list (items : List Value)
  | dict (entries : List (String × Value))

mutual

/-- `_jsonable`. -/
def jsonable : Value → Except Exn Value
  | .record fields => .ok fields
  | .raising exn => .error exn
  | .list items => (jsonableItems items).map .list
  | .dict entries => (jsonableEntries entries).map .dict
  | .json value => .ok (.json value)
  | .foreign => .ok .foreign

def jsonableItems : List Value → Except Exn (List Value)
  | [] => .ok []
  | item :: rest => do return (← jsonable item) :: (← jsonableItems rest)

def jsonableEntries : List (String × Value) → Except Exn (List (String × Value))
  | [] => .ok []
  | (key, item) :: rest => do return (key, ← jsonable item) :: (← jsonableEntries rest)

end

mutual

/-- Whether `json.dumps` accepts a value. -/
def serializable : Value → Bool
  | .json _ => true
  | .list items => serializableItems items
  | .dict entries => serializableEntries entries
  | .foreign | .record _ | .raising _ => false

def serializableItems : List Value → Bool
  | [] => true
  | item :: rest => serializable item && serializableItems rest

def serializableEntries : List (String × Value) → Bool
  | [] => true
  | (_, item) :: rest => serializable item && serializableEntries rest

end

/-! ## Delegates -/

/-- The calls that change something. -/
inductive Delegate
  | start (service reason : String)
  | stop (service : String)
  | setLifecycleMode (service mode : String)
  | runMaintenance (service job : String)
  | backupApi (service : String)
  | qualifyApi (integration release : String)
  | qualify (integration archiveRoot release root : String)
  | promote (integration root release : String)
  | rollback (integration root : String)
deriving DecidableEq

/-- The role that may have a delegate called. -/
def Delegate.role : Delegate → String
  | .setLifecycleMode .. | .promote .. | .rollback .. => "administrator"
  | .start .. | .stop .. | .runMaintenance .. | .backupApi .. | .qualifyApi .. | .qualify .. =>
      "operator"

/-! ## The service -/

/-- What the service was constructed with; `integrations` are the identifiers the
integration registry knows. -/
structure AdminActionService where
  supervisor : Bool
  setsLifecycleMode : Bool
  backupApi : Bool
  qualifyApi : Bool
  integrations : Option (List String)
  installRoots : Dict String String
  archiveRoot : Option String

/-- The collaborators of the service, in the state `S` of the whole program: what a
delegate does, and the names of the maintenance jobs of a service in the registry. -/
structure Collaborators (S : Type) where
  call : Delegate → Act S Exn Value
  jobs : String → Except Exn (List (Option String))

/-- A path or text that is given and not empty. -/
def given (text : Option String) : Option String := text.filter (· ≠ "")

namespace AdminActionService

variable {S : Type} (service : AdminActionService) (others : Collaborators S)

/-- `_p`: the role ranks at least as high as the one needed. -/
def p (role needed : String) : Act S Exn Unit :=
  if rank role < rank needed then throw (.permissionError "insufficient role") else pure ()

/-- A method of the supervisor. -/
def supervised (delegate : Delegate) : Act S Exn Value :=
  if service.supervisor then others.call delegate
  else throw (.other "'NoneType' object has no such attribute")

/-- A method of an integration. -/
def integrated (identifier : String) (delegate : Delegate) : Act S Exn Value :=
  match service.integrations with
  | none => throw (.other "'NoneType' object has no attribute 'get'")
  | some known =>
      if identifier ∈ known then others.call delegate
      else throw (.other (s!"unknown integration: " ++ identifier))

def start (s role : String) : Act S Exn Value := do
  p role "operator"
  service.supervised others (.start s "admin")

def stop (s role : String) : Act S Exn Value := do
  p role "operator"
  service.supervised others (.stop s)

def restart (s role : String) : Act S Exn Value := do
  p role "operator"
  let _ ← service.supervised others (.stop s)
  service.supervised others (.start s "admin")

def lifecycle (s mode role : String) : Act S Exn Value := do
  p role "administrator"
  if mode ≠ "always_on" ∧ mode ≠ "on_demand" then
    throw (.valueError "invalid lifecycle mode")
  else if ¬ (service.supervisor ∧ service.setsLifecycleMode) then
    throw (.notImplementedError "deployment lifecycle API unavailable")
  else service.supervised others (.setLifecycleMode s mode)

def maintenance (s job role : String) : Act S Exn Value := do
  p role "operator"
  service.supervised others (.runMaintenance s job)

/-- `_job`: the registry is read before the role is looked at. -/
def job (s job role : String) : Act S Exn Value :=
  if service.supervisor then do
    let jobs ← Act.ofExcept (others.jobs s)
    if jobs.any (· == some job) then service.maintenance others s job role
    else throw (.valueError "maintenance job is not registered")
  else throw (.other "'NoneType' object has no attribute 'registry'")

def backup (s role : String) : Act S Exn Value := do
  p role "operator"
  if service.backupApi then others.call (.backupApi s)
  else throw (.notImplementedError "backup API unavailable")

def qualify (identifier release role : String) : Act S Exn Value := do
  p role "operator"
  if service.qualifyApi then others.call (.qualifyApi identifier release)
  else
    match given (service.installRoots.get? identifier), given service.archiveRoot with
    | some root, some archiveRoot =>
        service.integrated others identifier (.qualify identifier archiveRoot release root)
    | _, _ => throw (.notImplementedError "qualification API unavailable")

/-- `promote` and `rollback` need the integrations and the root they are deployed in. -/
def deployed (identifier : String) (delegate : String → Delegate) : Act S Exn Value :=
  if service.integrations.isNone then
    throw (.notImplementedError "integration API unavailable")
  else
    match given (service.installRoots.get? identifier) with
    | none => throw (.notImplementedError "integration deployment root unavailable")
    | some root => service.integrated others identifier (delegate root)

def promote (identifier release role : String) : Act S Exn Value := do
  p role "administrator"
  service.deployed others identifier fun root => .promote identifier root release

def rollback (identifier role : String) : Act S Exn Value := do
  p role "administrator"
  service.deployed others identifier fun root => .rollback identifier root

end AdminActionService

end UltimateBBSBox.Admin

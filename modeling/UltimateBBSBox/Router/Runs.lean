import UltimateBBSBox.Library.Machine
import UltimateBBSBox.Router.Operations

/-!
# Runs of the router

A task is a router operation at a point where it takes its next lock.  A step
begins an operation, lets one that is under way take its next section, or is a
step of the supervisor that somebody else makes.  Operations of different
sessions interleave in any order; `tasks` lists those that are under way.

`open_session` is a public method, so an operation may begin with any request,
any parent and any handoff mode.
-/

namespace UltimateBBSBox.Router

open Act

variable {σ : Type}

/-- A router operation at a point where it takes its next lock. -/
inductive Task
  | openSession (o : Opening)
  | authorize (o : Opening)
  | acquire (o : Opening)
  | connect (o : Opening)
  | handoff (parentId targetServiceId : String) (mode : HandoffMode) (childId : String)
      (terminal : Option TerminalCapabilities) (callerMetadata : Option Archive.Fields)
  /-- `handoff` whose child did not open; `exc` is raised again. -/
  | handoffFailed (parentId : String) (exc : Exn)
  | closeSession (sessionId reason : String)
  /-- A closed session's parent is still to be restored; `exc` is raised then. -/
  | restoreParent (childId : String) (exc : Option Exn)
  /-- `read` or `write`. -/
  | transfer (sessionId : String) (call : StreamCall)
  /-- The call of the stream, without a lock. -/
  | awaitTransfer (sessionId : String) (call : StreamCall)
deriving DecidableEq

namespace Task

/-- The points at which operations begin. -/
def Entry : Task → Prop
  | .openSession o => o.byHandoff = false
  | .handoff .. | .closeSession .. | .transfer .. => True
  | _ => False

instance (task : Task) : Decidable task.Entry := by
  cases task <;> (unfold Entry; infer_instance)

/-- Go on with nothing more than an exception, if there is one. -/
def finish (exc : Option Exn) : Prog σ (List Task) :=
  match exc with
  | none => return []
  | some exc => throw exc

/-- How `handoff` goes on once the child is open. -/
def afterConnect (o : Opening) : List Task :=
  match o.byHandoff, o.handoffMode, o.parentSessionId with
  | true, some .replace, some parentId => [.closeSession parentId "handoff_replaced"]
  | _, _, _ => []

/-- How `handoff` goes on if opening the child raised. -/
def afterOpenError (o : Opening) (exc : Exn) : List Task :=
  match o.byHandoff, o.parentSessionId with
  | true, some parentId => [.handoffFailed parentId exc]
  | _, _ => []

variable (R : Setup σ) (answers : Answers σ)

/-- A close, and what follows it. -/
def close (sessionId reason : String) (exc : Option Exn) : Prog σ (List Task) := do
  if ← Router.closeSession R answers sessionId reason then
    return [.restoreParent sessionId exc]
  else
    finish exc

/-- The next section of an operation; returns how it goes on. -/
def lockedSection : Task → Prog σ (List Task)
  | .openSession o => do
      register o
      return [.authorize o]
  | .authorize o => do
      authorizing R answers o
      return [.acquire o]
  | .acquire o => do
      acquiring R answers o
      return [.connect o]
  | .connect o => do
      connecting R answers o
      return afterConnect o
  | .handoff parentId targetServiceId mode childId terminal callerMetadata => do
      let request ← startHandoff parentId targetServiceId terminal callerMetadata
      let o : Opening := ⟨childId, request, some parentId, some mode, true⟩
      tryCatch (do
        register o
        return [.authorize o])
        fun exc => return [.handoffFailed parentId exc]
  | .handoffFailed parentId exc => do
      Router.handoffFailed parentId
      throw exc
  | .closeSession sessionId reason => close R answers sessionId reason none
  | .restoreParent childId exc => do
      Router.restoreParent childId
      finish exc
  | .transfer sessionId call => do
      requireActive sessionId
      return [.awaitTransfer sessionId call]
  | .awaitTransfer sessionId call =>
      let exc := transferError call answers.transfer
      match closingReason call answers.transfer with
      | none => finish exc
      | some reason => close R answers sessionId reason exc

/-- How the operation goes on if its section raises. -/
def afterError (exc : Exn) : Task → List Task
  | .authorize o | .acquire o | .connect o => afterOpenError o exc
  | _ => []

/-- The session that the task is opening. -/
def opening? : Task → Option String
  | .authorize o | .acquire o | .connect o => some o.sessionId
  | _ => none

end Task

/-- The router's state and the operations that are under way. -/
structure World (σ : Type) where
  state : State σ
  tasks : List Task

/-- What happens in a step. -/
inductive Action (σ : Type)
  | call (task : Task)
  | resume (task : Task)
  | supervisor (serviceId : String) (label : Supervisor.Label σ)

/-- A step and what the outside answers in it. -/
structure Label (σ : Type) where
  action : Action σ
  answers : Answers σ

namespace World

variable (R : Setup σ)

/-- An operation takes its next section; the tasks of `rest` are not concerned. -/
def advance (w : World σ) (answers : Answers σ) (task : Task) (rest : List Task) :
    Option (Except Exn Unit × World σ) :=
  match (task.lockedSection R answers).run w.state with
  | none => none
  | some (.ok next, s) => some (.ok (), ⟨s, rest ++ next⟩)
  | some (.error e, s) => some (.error e, ⟨s, rest ++ task.afterError e⟩)

/-- A step of the router or of the supervisor. -/
def step (w : World σ) (l : Label σ) : Option (Except Exn Unit × World σ) :=
  match l.action with
  | .call task => if task.Entry then w.advance R l.answers task w.tasks else none
  | .resume task =>
      if task ∈ w.tasks then w.advance R l.answers task (w.tasks.erase task) else none
  | .supervisor serviceId label =>
      match R.site.registry.find? serviceId with
      | none => none
      | some service =>
          ((w.state.supervisor service.id).step (R.site.context service) label).map
            fun result =>
              (result.1.mapError Exn.ofSupervisor,
                { w with
                  state :=
                    { w.state with
                      supervisor :=
                        Function.update w.state.supervisor service.id result.2 } })

/-- A router without sessions over a supervisor in any state. -/
def initial (supervisor : String → Supervisor.World σ) : World σ where
  state := ⟨∅, supervisor, [], [], []⟩
  tasks := []

/-- The task that takes a section in a step. -/
def taskOf (l : Label σ) : Option Task :=
  match l.action with
  | .call task | .resume task => some task
  | .supervisor _ _ => none

/-- Ids of lifecycle sessions are fresh: `uuid4` does not repeat itself. -/
def Fresh (w : World σ) (l : Label σ) : Prop :=
  match l.action with
  | .resume (.acquire o) =>
      w.state.held o.request.targetService l.answers.lifecycleId = none ∧
        l.answers.lifecycleId ∉ w.state.acquired.map Prod.snd
  | .supervisor serviceId label =>
      (w.state.supervisor serviceId).Fresh label ∧
        match label.op with
        | .acquireSession lifecycleId => lifecycleId ∉ w.state.acquired.map Prod.snd
        | _ => True
  | _ => True

instance (w : World σ) (l : Label σ) : Decidable (w.Fresh l) :=
  match l with
  | ⟨.call _, _⟩ => instDecidableTrue
  | ⟨.resume (.acquire o), answers⟩ =>
      inferInstanceAs (Decidable
        (w.state.held o.request.targetService answers.lifecycleId = none ∧
          answers.lifecycleId ∉ w.state.acquired.map Prod.snd))
  | ⟨.resume (.openSession _), _⟩ | ⟨.resume (.authorize _), _⟩ | ⟨.resume (.connect _), _⟩
  | ⟨.resume (.handoff _ _ _ _ _ _), _⟩ | ⟨.resume (.handoffFailed _ _), _⟩
  | ⟨.resume (.closeSession _ _), _⟩ | ⟨.resume (.restoreParent _ _), _⟩
  | ⟨.resume (.transfer _ _), _⟩ | ⟨.resume (.awaitTransfer _ _), _⟩ => instDecidableTrue
  | ⟨.supervisor _ label, _⟩ =>
      have new : Decidable
          (match label.op with
            | .acquireSession lifecycleId => lifecycleId ∉ w.state.acquired.map Prod.snd
            | _ => True) :=
        match label.op with
        | .acquireSession lifecycleId =>
            inferInstanceAs (Decidable (lifecycleId ∉ w.state.acquired.map Prod.snd))
        | .start _ | .stop _ _ | .releaseSession _ | .notifyFailure _ | .transition _ _
        | .reconcile | .tick _ | .beginMaintenance _ | .callMaintenance _ | .finishMaintenance _
        | .setLifecycleMode _ | .reload => instDecidableTrue
      @instDecidableAnd _ _ inferInstance new

end World

/-! ## A scripted outside world

For concrete runs: a service `menu` that callers reach directly, and a service
`door` that they reach via `menu`. -/

/-- Both services, with the idle timeout of `menu`, over the supervisor's
scripted world; streams come from a resolver. -/
def scripted (idleTimeoutSeconds : ℕ) : Setup Supervisor.Script where
  site :=
    { registry :=
        { services :=
            [{ id := "door"
               type := .door
               endpointId := "local"
               integrationId := none
               exposure := ⟨false, some ["menu"], none⟩
               access := none
               lifecycle := Supervisor.onDemand .multiuser
               jobs := [] },
             { id := "menu"
               type := .bbs
               endpointId := "local"
               integrationId := none
               exposure := ⟨true, none, none⟩
               access := none
               lifecycle :=
                 { Supervisor.onDemand .multiuser with
                   idleTimeoutSeconds := some idleTimeoutSeconds }
               jobs := [] }]
          ordered := by
            simp only [List.pairwise_cons, List.mem_singleton, forall_eq, List.not_mem_nil,
              false_imp_iff, implies_true, List.Pairwise.nil, and_true]
            decide
          endpoints := Dict.set ∅ "local" ⟨"local", .localProcess, none, none⟩
          integrations := ∅ }
      environment := fun _ => .scripted
      pollInterval := 1 / 10
      nestingLimit := 400 }
  connectors := []
  connectTimeout := 10
  streamResolver := true

/-- A supervisor over an empty state directory. -/
def scriptedSupervisor (serviceId : String) : Supervisor.World Supervisor.Script where
  cell := ⟨Supervisor.freshInstance serviceId, ∅, none, [], {}⟩
  running := []

/-- What the outside answers: the next lifecycle session id, and whether
connecting and closing succeed. -/
def scriptedAnswers (lifecycleId : String) (connects closes : Bool) :
    Answers Supervisor.Script where
  env := {}
  fuel := 5
  lifecycleId := lifecycleId
  connect := if connects = true then .ok 0 else .error ⟨.transportError, "connection refused"⟩
  closeStream := if closes = true then .ok () else .error ⟨.foreign "OSError", "broken pipe"⟩
  transfer := .bytes [0]

/-- The sections of an operation that opens a session, after its first one. -/
def opening (o : Opening) (answers : Answers Supervisor.Script) : List (Label Supervisor.Script) :=
  [⟨.resume (.authorize o), answers⟩, ⟨.resume (.acquire o), answers⟩,
    ⟨.resume (.connect o), answers⟩]

/-- A call of `open_session` for `menu`. -/
def menuOpening (sessionId : String) : Opening :=
  ⟨sessionId, { targetService := "menu" }, none, none, false⟩

/-- `open_session` for `menu`, without a failure. -/
def openMenu (sessionId lifecycleId : String) : List (Label Supervisor.Script) :=
  ⟨.call (.openSession (menuOpening sessionId)), scriptedAnswers lifecycleId true true⟩ ::
    opening (menuOpening sessionId) (scriptedAnswers lifecycleId true true)

/-- `handoff` from a session of `menu` to `door`, up to the opening of the child. -/
def handoffToDoor (parentId childId lifecycleId : String) (connects : Bool) :
    List (Label Supervisor.Script) :=
  ⟨.call (.handoff parentId "door" .returnToOrigin childId none none),
      scriptedAnswers lifecycleId connects true⟩ ::
    opening
      ⟨childId, { targetService := "door", routeType := .viaService, originService := some "menu" },
        some parentId, some .returnToOrigin, true⟩
      (scriptedAnswers lifecycleId connects true)

end UltimateBBSBox.Router

import UltimateBBSBox.Library.Lockstep
import UltimateBBSBox.Router.Execution

/-!
# What the session journal discloses

`journal.py`, and what `_event` passes to it.  Two runs of the router may differ
in terminal capabilities, caller metadata, the bytes that are read and written,
the texts of exceptions and the reasons for closing that are not among
`TERMINATION_REASONS`: if they perform the same operations and their calls end
alike, then they append the same records.

`shown` removes from the data of the router what may differ.  `Mirrors` says
that two states are equal otherwise; every section run on both sides keeps it
(`lockstep_lockedSection`), as long as the supervisor's answers are the same on
both sides, which their logs of `outcomes` tell.
-/

namespace UltimateBBSBox.Router

open Act

variable {σ σ' α α' : Type}

/-! ## Records -/

/-- The mapping that `_event` passes to the journal. -/
def Event.toDict (event : Event) (timestamp : String) : Archive.Fields :=
  [(.of "timestamp", .str timestamp),
    (.of "session_id", .str event.sessionId),
    (.of "target_service", .str event.targetService),
    (.of "origin_service", .ofText event.originService),
    (.of "event_type", .str event.eventType),
    (.of "old_state", .ofText (event.oldState.map (·.value))),
    (.of "new_state", .ofText (event.newState.map (·.value))),
    (.of "endpoint_id", .ofText event.endpointId),
    (.of "termination_reason", .ofText event.terminationReason),
    (.of "error", .ofText (event.error.map (·.name)))]

/-- The keys that `SessionJournal.append` lets through. -/
def allowedKeys : List String :=
  ["timestamp", "session_id", "target_service", "origin_service", "event_type", "old_state",
    "new_state", "endpoint_id", "termination_reason", "error"]

/-- The record that `SessionJournal.append` writes of a mapping. -/
def appended (event : Archive.Fields) : Archive.Fields :=
  allowedKeys.filterMap fun key =>
    match event.get? key with
    | none | some .null => none
    | some value => some (.of key, value)

/-- The records of the journal, oldest first; `clock n` is what the clock reads
at the `n`-th of them. -/
def State.records (s : State σ) (clock : ℕ → String) : List Archive.Fields :=
  s.journal.reverse.zipIdx.map fun (event, n) => appended (event.toDict (clock n))

/-! ## What may differ -/

/-- A request without terminal capabilities and caller metadata. -/
def RouteRequest.shown (request : RouteRequest) : RouteRequest :=
  { request with terminal := default, callerMetadata := [] }

/-- A call of `open_session` with what is shown of its request. -/
def Opening.shown (o : Opening) : Opening := { o with request := o.request.shown }

/-- An exception without its text. -/
def Exn.shown (exc : Exn) : Exn := { exc with message := "" }

theorem Exn.cls_of_shown {exc exc' : Exn} (h : exc.shown = exc'.shown) : exc.cls = exc'.cls := by
  simpa [Exn.shown] using h

theorem Exn.shown_of_cls {exc exc' : Exn} (h : exc.cls = exc'.cls) : exc.shown = exc'.shown := by
  simp [Exn.shown, h]

/-- The reason that `close_session` records. -/
def recordedReason (reason : String) : String :=
  if reason ∈ terminationReasons then reason else "other"

/-- A call of a stream without the bytes to write. -/
def StreamCall.shown : StreamCall → StreamCall
  | .read size => .read size
  | .write _ => .write []

/-- What came of a call of a stream, without the bytes: only whether there were any. -/
def Transfer.shown : Transfer → Transfer
  | .bytes [] => .bytes []
  | .bytes (_ :: _) => .bytes [0]
  | .written _ => .written 0
  | .osError => .osError
  | .raised exc => .raised exc.shown

/-- An operation without what may differ. -/
def Task.shown : Task → Task
  | .openSession o => .openSession o.shown
  | .authorize o => .authorize o.shown
  | .acquire o => .acquire o.shown
  | .connect o => .connect o.shown
  | .handoff parentId targetServiceId mode childId _ _ =>
      .handoff parentId targetServiceId mode childId none none
  | .handoffFailed parentId exc => .handoffFailed parentId exc.shown
  | .closeSession sessionId reason => .closeSession sessionId (recordedReason reason)
  | .restoreParent childId exc => .restoreParent childId (exc.map Exn.shown)
  | .transfer sessionId call => .transfer sessionId call.shown
  | .awaitTransfer sessionId call => .awaitTransfer sessionId call.shown

/-- Calls of connectors and streams end alike: they return, or raise the same
class of exception; a read meets the end of the stream or does not. -/
structure Answers.Alike (answers : Answers σ) (answers' : Answers σ') : Prop where
  connect : outcome answers.connect = outcome answers'.connect
  closeStream : outcome answers.closeStream = outcome answers'.closeStream
  transfer : answers.transfer.shown = answers'.transfer.shown

/-- The same registry, and connectors for the same endpoint types. -/
structure Setup.Alike (R : Setup σ) (R' : Setup σ') : Prop where
  registry : R.site.registry = R'.site.registry
  connectors : R.connectors = R'.connectors
  streamResolver : R.streamResolver = R'.streamResolver

/-- The same session but for terminal capabilities and caller metadata; which
lifecycle session and which stream it has may differ too. -/
structure Session.Mirrors (current current' : Session) : Prop where
  id : current.id = current'.id
  targetService : current.targetService = current'.targetService
  originService : current.originService = current'.originService
  state : current.state = current'.state
  lifecycle : current.lifecycleSessionId.isSome = current'.lifecycleSessionId.isSome
  endpoint : current.endpoint = current'.endpoint
  parentSessionId : current.parentSessionId = current'.parentSessionId
  returnToOrigin : current.returnToOrigin = current'.returnToOrigin
  stream : current.stream.isSome = current'.stream.isSome
  holdReleased : current.holdReleased = current'.holdReleased

/-- The same sessions but for what may differ, the same journal, and the same
answers of the supervisor so far. -/
structure State.Mirrors (s : State σ) (s' : State σ') : Prop where
  sessions : ∀ id, Option.Rel Session.Mirrors (s.sessions.get? id) (s'.sessions.get? id)
  journal : s.journal = s'.journal
  outcomes : s.outcomes = s'.outcomes

/-! ## Programs that only add to the outcomes -/

instance (current : Session) : Logs State.outcomes (put current : Prog σ Unit) :=
  logs_modify fun _ => List.suffix_rfl

instance (call : Call) : Logs State.outcomes (record call : Prog σ Unit) :=
  logs_modify fun _ => List.suffix_rfl

instance (current : Session) (eventType : String) (old new : Option SessionState)
    (reason : Option String) (error : Option Exn) :
    Logs State.outcomes (event current eventType old new reason error : Prog σ Unit) :=
  logs_modify fun _ => List.suffix_rfl

instance (current : Session) (new : SessionState) (eventType : String) (reason : Option String)
    (error : Option Exn) :
    Logs State.outcomes (transition current new eventType reason error : Prog σ Session) := by
  unfold transition
  infer_instance

instance (sessionId : String) : Logs State.outcomes (session sessionId : Prog σ Session) := by
  unfold session
  refine Logs.bind inferInstance fun s => ?_
  split <;> infer_instance

section Sections

variable (R : Setup σ) (answers : Answers σ) (o : Opening)

variable {R answers} in
/-- A call of the supervisor logs what came of it, and leaves sessions and journal alone. -/
theorem callSupervisor_logs {serviceId : String}
    {act : Supervisor.Context σ → Supervisor.Prog σ α} {s t : State σ} {r : Except Exn α}
    (hrun : (callSupervisor R answers serviceId act).run s = some (r, t)) :
    t.sessions = s.sessions ∧ t.journal = s.journal ∧ t.outcomes = outcome r :: s.outcomes := by
  unfold callSupervisor at hrun
  rw [run_bind, run_get] at hrun
  dsimp only at hrun
  split at hrun
  · cases hrun
    exact ⟨rfl, rfl, rfl⟩
  · split at hrun
    · cases hrun
    · rename_i result _ _
      cases result <;> (cases hrun; exact ⟨rfl, rfl, rfl⟩)

instance (serviceId : String) (act : Supervisor.Context σ → Supervisor.Prog σ α) :
    Logs State.outcomes (callSupervisor R answers serviceId act) := by
  refine Logs.of_extends fun s t r hrun => ?_
  unfold Extends
  rw [(callSupervisor_logs hrun).2.2]
  exact List.suffix_cons ..

instance (request : RouteRequest) (originSessionId : Option String) :
    Logs State.outcomes (validateOrigin request originSessionId : Prog σ Unit) := by
  unfold validateOrigin
  refine Logs.ite inferInstance ?_
  split <;> infer_instance

instance : Logs State.outcomes (register o : Prog σ Unit) := by
  unfold register
  infer_instance

instance (current : Session) : Logs State.outcomes (releaseHold R answers current) := by
  unfold releaseHold
  split <;> infer_instance

instance (sessionId : String) (exc : Exn) :
    Logs State.outcomes (openFailed R answers sessionId exc : Prog σ α) := by
  unfold openFailed
  infer_instance

instance (current : Session) : Logs State.outcomes (connect R answers current) := by
  unfold connect
  refine Logs.ite inferInstance ?_
  split <;> infer_instance

instance (current : Session) : Logs State.outcomes (closeStream answers current) := by
  unfold closeStream
  infer_instance

instance (current : Session) (reason : String) (exc : Option Exn) :
    Logs State.outcomes (finishClose current reason exc : Prog σ Bool) := by
  unfold finishClose
  split <;> infer_instance

instance (sessionId reason : String) :
    Logs State.outcomes (closeSession R answers sessionId reason) := by
  unfold closeSession
  infer_instance

instance (childId : String) : Logs State.outcomes (restoreParent childId : Prog σ Unit) := by
  unfold restoreParent
  refine Logs.bind inferInstance fun child => ?_
  split
  · refine Logs.bind inferInstance fun s => ?_
    split <;> infer_instance
  · infer_instance

instance (parentId targetServiceId : String) (terminal : Option TerminalCapabilities)
    (callerMetadata : Option Archive.Fields) : Logs State.outcomes
      (startHandoff parentId targetServiceId terminal callerMetadata : Prog σ RouteRequest) := by
  unfold startHandoff
  infer_instance

instance (exc : Option Exn) : Logs State.outcomes (Task.finish exc : Prog σ (List Task)) := by
  unfold Task.finish
  split <;> infer_instance

instance (sessionId reason : String) (exc : Option Exn) :
    Logs State.outcomes (Task.close R answers sessionId reason exc) := by
  unfold Task.close
  infer_instance

/-- No section drops an outcome. -/
theorem logs_lockedSection (task : Task) :
    Logs State.outcomes (task.lockedSection R answers) := by
  cases task with
  | openSession o => exact Logs.bind inferInstance inferInstance
  | authorize o =>
      simp only [Task.lockedSection, authorizing]
      infer_instance
  | acquire o =>
      simp only [Task.lockedSection, acquiring]
      infer_instance
  | connect o =>
      simp only [Task.lockedSection, connecting]
      infer_instance
  | handoff parentId targetServiceId mode childId terminal callerMetadata =>
      simp only [Task.lockedSection]
      infer_instance
  | handoffFailed parentId exc =>
      simp only [Task.lockedSection, handoffFailed]
      infer_instance
  | closeSession sessionId reason =>
      exact inferInstanceAs (Logs State.outcomes (Task.close R answers sessionId reason none))
  | restoreParent childId exc => exact Logs.bind inferInstance inferInstance
  | transfer sessionId call =>
      simp only [Task.lockedSection, requireActive]
      infer_instance
  | awaitTransfer sessionId call =>
      simp only [Task.lockedSection]
      split <;> infer_instance

end Sections

/-! ## Sections in lockstep -/

/-- Two programs of the router keep their states mirrored, and raise exceptions
of the same class. -/
def InStep (ok : α → α' → Prop) (act : Prog σ α) (act' : Prog σ' α') : Prop :=
  Lockstep State.outcomes State.outcomes State.Mirrors ok (fun e e' => e.cls = e'.cls) act act'

/-- What is stored under an id on one side is stored there on the other. -/
theorem State.Mirrors.get? {s : State σ} {s' : State σ'} (h : s.Mirrors s') (id : String) :
    (s.sessions.get? id = none ∧ s'.sessions.get? id = none) ∨
      ∃ current current', s.sessions.get? id = some current ∧
        s'.sessions.get? id = some current' ∧ current.Mirrors current' := by
  have hget := h.sessions id
  generalize s.sessions.get? id = x, s'.sessions.get? id = x' at hget
  cases hget with
  | none => exact .inl ⟨rfl, rfl⟩
  | some h => exact .inr ⟨_, _, rfl, rfl, h⟩

section Primitives

variable {current current' : Session}

theorem inStep_put (h : current.Mirrors current') :
    InStep (fun _ _ => True) (put current : Prog σ Unit) (put current' : Prog σ' Unit) := by
  refine lockstep_modify fun s s' hlow => { hlow with sessions := fun id => ?_ }
  simp only [Dict.get?_set, h.id]
  split
  · exact .some h
  · exact hlow.sessions id

theorem inStep_record (call call' : Call) :
    InStep (fun _ _ => True) (record call : Prog σ Unit) (record call' : Prog σ' Unit) :=
  lockstep_modify fun _ _ hlow => { hlow with }

theorem inStep_event {eventType : String} {old new : Option SessionState}
    {reason : Option String} {error error' : Option Exn} (h : current.Mirrors current')
    (herror : error.map Exn.cls = error'.map Exn.cls) :
    InStep (fun _ _ => True) (event current eventType old new reason error : Prog σ Unit)
      (event current' eventType old new reason error' : Prog σ' Unit) := by
  refine lockstep_modify fun s s' hlow => { hlow with journal := ?_ }
  simp only [h.id, h.targetService, h.originService, h.endpoint, herror, hlow.journal]

theorem inStep_session (sessionId : String) :
    InStep Session.Mirrors (session sessionId : Prog σ Session)
      (session sessionId : Prog σ' Session) := by
  unfold session InStep
  refine lockstep_get fun s s' hlow => ?_
  rcases hlow.get? sessionId with ⟨hget, hget'⟩ | ⟨current, current', hget, hget', h⟩
  · rw [hget, hget']
    exact lockstep_throw rfl
  · rw [hget, hget']
    exact lockstep_pure h

theorem inStep_transition {new : SessionState} {eventType : String} {reason : Option String}
    {error error' : Option Exn} (h : current.Mirrors current')
    (herror : error.map Exn.cls = error'.map Exn.cls) :
    InStep Session.Mirrors (transition current new eventType reason error : Prog σ Session)
      (transition current' new eventType reason error' : Prog σ' Session) := by
  have hmoved : Session.Mirrors { current with state := new } { current' with state := new } :=
    { h with state := rfl }
  unfold transition
  rw [h.state]
  refine lockstep_bind (P := fun _ _ => True) ?_ fun _ _ _ =>
    lockstep_bind (inStep_put hmoved) fun _ _ _ =>
      lockstep_bind (inStep_event hmoved herror) fun _ _ _ => lockstep_pure hmoved
  cases validateTransition current'.state new with
  | ok _ => exact lockstep_pure trivial
  | error e => exact lockstep_throw rfl

end Primitives

section Sections

variable {R : Setup σ} {R' : Setup σ'} {answers : Answers σ} {answers' : Answers σ'}

/-- Calls of the supervisor in lockstep: either their answers part the logs, or they agree. -/
theorem inStep_callSupervisor {serviceId serviceId' : String}
    {act : Supervisor.Context σ → Supervisor.Prog σ α}
    {act' : Supervisor.Context σ' → Supervisor.Prog σ' α'} :
    InStep (fun _ _ => True) (callSupervisor R answers serviceId act)
      (callSupervisor R' answers' serviceId' act') := by
  intro s s' hlow r t r' t' hrun hrun'
  obtain ⟨hsessions, hjournal, houtcomes⟩ := callSupervisor_logs hrun
  obtain ⟨hsessions', hjournal', houtcomes'⟩ := callSupervisor_logs hrun'
  rw [← hlow.outcomes] at houtcomes'
  by_cases hsame : outcome r = outcome r'
  · refine .inr ⟨⟨?_, ?_, ?_⟩, ?_⟩
    · rw [hsessions, hsessions']
      exact hlow.sessions
    · rw [hjournal, hjournal', hlow.journal]
    · rw [houtcomes, houtcomes', hsame]
    · cases r <;> cases r' <;> simp_all [Agree, outcome]
  · exact .inl (parted_of_cons houtcomes houtcomes' hsame)

theorem inStep_validateOrigin {request request' : RouteRequest}
    (hrequest : request.shown = request'.shown) (originSessionId : Option String) :
    InStep (fun _ _ => True) (validateOrigin request originSessionId : Prog σ Unit)
      (validateOrigin request' originSessionId : Prog σ' Unit) := by
  obtain ⟨htarget, htype, horigin⟩ : request.targetService = request'.targetService ∧
      request.routeType = request'.routeType ∧ request.originService = request'.originService := by
    simpa [RouteRequest.shown] using hrequest
  unfold validateOrigin
  rw [htype, horigin]
  refine lockstep_ite Iff.rfl (fun _ _ => lockstep_pure trivial) fun _ _ => ?_
  split
  · exact lockstep_throw rfl
  · exact lockstep_throw rfl
  · refine lockstep_bind (inStep_session _) fun origin origin' h => ?_
    refine lockstep_ite (by rw [h.state]) (fun _ _ => lockstep_throw rfl) fun _ _ => ?_
    exact lockstep_ite (by rw [h.targetService]) (fun _ _ => lockstep_throw rfl) fun _ _ =>
      lockstep_pure trivial

theorem inStep_register {o o' : Opening} (h : o.shown = o'.shown) :
    InStep (fun _ _ => True) (register o : Prog σ Unit) (register o' : Prog σ' Unit) := by
  have hcreated : o.created.Mirrors o'.created := by
    simp only [Opening.shown, RouteRequest.shown, Opening.mk.injEq, RouteRequest.mk.injEq] at h
    constructor <;> simp [Opening.created, h]
  unfold register
  refine lockstep_get fun s s' hlow => ?_
  have hid : o.sessionId = o'.sessionId := hcreated.id
  refine lockstep_ite ?_ (fun _ _ => lockstep_throw rfl) fun _ _ => ?_
  · rcases hlow.get? o.sessionId with ⟨hget, hget'⟩ | ⟨_, _, hget, hget', _⟩ <;>
      simp [← hid, hget, hget']
  · exact lockstep_bind (inStep_put hcreated) fun _ _ _ => inStep_event hcreated rfl

theorem inStep_releaseHold {current current' : Session} (h : current.Mirrors current') :
    InStep Session.Mirrors (releaseHold R answers current) (releaseHold R' answers' current') := by
  have hlifecycle := h.lifecycle
  unfold releaseHold
  cases hid : current.lifecycleSessionId with
  | none =>
      cases hid' : current'.lifecycleSessionId with
      | none => exact lockstep_pure h
      | some _ => simp [hid, hid'] at hlifecycle
  | some lifecycleId =>
      cases hid' : current'.lifecycleSessionId with
      | none => simp [hid, hid'] at hlifecycle
      | some lifecycleId' =>
          refine lockstep_ite (by rw [h.holdReleased]) (fun _ _ => lockstep_pure h) fun _ _ => ?_
          have hreleased : Session.Mirrors
              { current with lifecycleSessionId := some lifecycleId, holdReleased := true }
              { current' with lifecycleSessionId := some lifecycleId', holdReleased := true } :=
            { h with lifecycle := rfl, holdReleased := rfl }
          exact lockstep_bind (inStep_record _ _) fun _ _ _ =>
            lockstep_bind inStep_callSupervisor fun _ _ _ =>
              lockstep_bind (inStep_put hreleased) fun _ _ _ => lockstep_pure hreleased

theorem inStep_openFailed {sessionId : String} {exc exc' : Exn} (hexc : exc.cls = exc'.cls)
    {ok : α → α' → Prop} :
    InStep ok (openFailed R answers sessionId exc) (openFailed R' answers' sessionId exc') := by
  unfold openFailed
  refine lockstep_bind (inStep_session _) fun current current' h => ?_
  refine lockstep_bind (P := fun _ _ => True)
    (lockstep_whenever (by rw [h.stream]) trivial fun _ _ => inStep_record _ _) fun _ _ _ => ?_
  refine lockstep_bind (inStep_releaseHold h) fun current current' h => ?_
  -- the end of the clause, whichever branch comes before it
  have hend : ∀ {current current' : Session}, current.Mirrors current' →
      InStep ok
        (do
          put { current with terminationReason := some "open_failed" }
          throw exc : Prog σ α)
        (do
          put { current' with terminationReason := some "open_failed" }
          throw exc' : Prog σ' α') := fun h =>
    lockstep_bind (inStep_put { h with }) fun _ _ _ => lockstep_throw hexc
  refine lockstep_ite (by rw [h.state]) (fun _ _ => ?_) fun _ _ => hend h
  exact lockstep_bind (inStep_transition h (congrArg some hexc)) fun _ _ => hend

/-- An opening is decided by what is shown of it. -/
theorem Opening.shown_iff {o o' : Opening} (h : o.shown = o'.shown) :
    o.sessionId = o'.sessionId ∧ o.request.shown = o'.request.shown ∧
      o.parentSessionId = o'.parentSessionId ∧ o.handoffMode = o'.handoffMode ∧
      o.byHandoff = o'.byHandoff := by
  simpa [Opening.shown] using h

theorem authorize_of_shown {registry : Registry} {request request' : RouteRequest}
    (h : request.shown = request'.shown) :
    authorize registry request = authorize registry request' := by
  obtain ⟨htarget, htype, horigin⟩ : request.targetService = request'.targetService ∧
      request.routeType = request'.routeType ∧ request.originService = request'.originService := by
    simpa [RouteRequest.shown] using h
  unfold authorize
  rw [htarget, htype, horigin]

variable {o o' : Opening}

theorem inStep_authorizing (hR : R.Alike R') (h : o.shown = o'.shown) :
    InStep (fun _ _ => True) (authorizing R answers o) (authorizing R' answers' o') := by
  obtain ⟨hid, hrequest, hparent, _⟩ := Opening.shown_iff h
  unfold authorizing
  rw [hid, hparent, authorize_of_shown hrequest, hR.registry]
  refine lockstep_tryCatch ?_ fun e e' he => inStep_openFailed he
  refine lockstep_bind (inStep_session _) fun current current' h => ?_
  refine lockstep_bind (inStep_transition h rfl) fun current current' h => ?_
  refine lockstep_bind (inStep_validateOrigin hrequest _) fun _ _ _ => ?_
  refine lockstep_bind (P := Eq) ?_ fun resolution resolution' hresolution => ?_
  · cases authorize R'.site.registry o'.request with
    | ok resolution => exact lockstep_pure rfl
    | error e => exact lockstep_throw rfl
  · subst hresolution
    have hresolved : Session.Mirrors { current with endpoint := some resolution.endpoint }
        { current' with endpoint := some resolution.endpoint } := { h with endpoint := rfl }
    exact lockstep_bind (inStep_put hresolved) fun _ _ _ =>
      lockstep_bind (inStep_transition hresolved rfl) fun _ _ _ => lockstep_pure trivial

theorem inStep_acquiring (h : o.shown = o'.shown) :
    InStep (fun _ _ => True) (acquiring R answers o) (acquiring R' answers' o') := by
  obtain ⟨hid, _⟩ := Opening.shown_iff h
  unfold acquiring
  rw [hid]
  refine lockstep_tryCatch ?_ fun e e' he => inStep_openFailed he
  refine lockstep_bind (inStep_session _) fun current current' h => ?_
  refine lockstep_bind (inStep_record _ _) fun _ _ _ => ?_
  refine lockstep_bind inStep_callSupervisor fun lifecycleId lifecycleId' _ => ?_
  refine lockstep_bind (inStep_record _ _) fun _ _ _ => ?_
  have hheld : Session.Mirrors { current with lifecycleSessionId := some lifecycleId }
      { current' with lifecycleSessionId := some lifecycleId' } := { h with lifecycle := rfl }
  exact lockstep_bind (inStep_put hheld) fun _ _ _ =>
    lockstep_bind (inStep_transition hheld rfl) fun _ _ _ => lockstep_pure trivial

/-- Calls with the same outcome agree. -/
theorem agree_of_outcome {result : Except Exn α} {result' : Except Exn α'}
    (h : outcome result = outcome result') :
    Agree (fun _ _ => True) (fun e e' => e.cls = e'.cls) result result' := by
  cases result with
  | ok a => cases result' with
    | ok a' => trivial
    | error e' => cases h
  | error e => cases result' with
    | ok a' => cases h
    | error e' => exact Option.some.inj h

theorem inStep_connect (hR : R.Alike R') (hanswers : answers.Alike answers')
    {current current' : Session} (h : current.Mirrors current') :
    InStep (fun _ _ => True) (connect R answers current) (connect R' answers' current') := by
  have hanswer : InStep (fun _ _ => True) (Act.ofExcept answers.connect : Prog σ Stream)
      (Act.ofExcept answers'.connect : Prog σ' Stream) :=
    lockstep_ofExcept (agree_of_outcome hanswers.connect)
  unfold connect
  refine lockstep_ite (by rw [hR.streamResolver]) (fun _ _ => ?_) fun _ _ => ?_
  · exact lockstep_bind (inStep_record _ _) fun _ _ _ => hanswer
  · rw [h.endpoint]
    cases current'.endpoint with
    | none => exact lockstep_throw rfl
    | some endpoint =>
        refine lockstep_bind (inStep_record _ _) fun _ _ _ => ?_
        exact lockstep_ite (by rw [hR.connectors]) (fun _ _ => hanswer) fun _ _ =>
          lockstep_throw rfl

theorem inStep_connecting (hR : R.Alike R') (hanswers : answers.Alike answers')
    (h : o.shown = o'.shown) :
    InStep (fun _ _ => True) (connecting R answers o) (connecting R' answers' o') := by
  obtain ⟨hid, _⟩ := Opening.shown_iff h
  unfold connecting
  rw [hid]
  refine lockstep_tryCatch ?_ fun e e' he => inStep_openFailed he
  refine lockstep_bind (inStep_session _) fun current current' h => ?_
  refine lockstep_bind (inStep_connect hR hanswers h) fun stream stream' _ => ?_
  have hconnected : Session.Mirrors { current with stream := some stream }
      { current' with stream := some stream' } := { h with stream := rfl }
  exact lockstep_bind (inStep_put hconnected) fun _ _ _ =>
    lockstep_bind (inStep_transition hconnected rfl) fun _ _ _ => lockstep_pure trivial

theorem inStep_closeStream (hanswers : answers.Alike answers') {current current' : Session}
    (h : current.Mirrors current') :
    InStep (fun exc exc' => exc.map Exn.cls = exc'.map Exn.cls) (closeStream answers current)
      (closeStream answers' current') := by
  have hraised : (raised answers.closeStream).map Exn.cls =
      (raised answers'.closeStream).map Exn.cls := by
    have hclose := hanswers.closeStream
    generalize answers.closeStream = result, answers'.closeStream = result' at hclose
    cases result <;> cases result' <;> simp_all [raised, outcome]
  unfold closeStream
  refine lockstep_ite (by rw [h.stream]) (fun _ _ => ?_) fun _ _ => lockstep_pure rfl
  exact lockstep_bind (inStep_record _ _) fun _ _ _ => lockstep_pure hraised

theorem inStep_finishClose {current current' : Session} (h : current.Mirrors current')
    (reason : String) {exc exc' : Option Exn} (hexc : exc.map Exn.cls = exc'.map Exn.cls) :
    InStep Eq (finishClose current reason exc : Prog σ Bool)
      (finishClose current' reason exc' : Prog σ' Bool) := by
  cases exc with
  | none =>
      cases exc' with
      | none => exact lockstep_bind (inStep_transition h rfl) fun _ _ _ => lockstep_pure rfl
      | some _ => cases hexc
  | some exc =>
      cases exc' with
      | none => cases hexc
      | some exc' => exact lockstep_bind (inStep_transition h hexc) fun _ _ _ => lockstep_throw rfl

theorem inStep_closeSession (hanswers : answers.Alike answers') (sessionId : String)
    {reason reason' : String} (hreason : recordedReason reason = recordedReason reason') :
    InStep Eq (closeSession R answers sessionId reason)
      (closeSession R' answers' sessionId reason') := by
  unfold recordedReason at hreason
  unfold closeSession
  rw [hreason]
  generalize (if reason' ∈ terminationReasons then reason' else "other") = recorded
  refine lockstep_bind (inStep_session _) fun current current' h => ?_
  refine lockstep_ite (by rw [h.state]) (fun _ _ => lockstep_pure rfl) fun _ _ => ?_
  refine lockstep_bind (inStep_transition h rfl) fun current current' h => ?_
  refine lockstep_bind (inStep_closeStream hanswers h) fun closeError closeError' hclose => ?_
  refine lockstep_bind (P := fun released released' => released.1.Mirrors released'.1 ∧
    released.2.map Exn.cls = released'.2.map Exn.cls) ?_ fun released released' hreleased => ?_
  · refine lockstep_tryCatch ?_ fun exc exc' hexc => lockstep_pure ⟨h, congrArg some hexc⟩
    exact lockstep_bind (inStep_releaseHold h) fun _ _ h => lockstep_pure ⟨h, rfl⟩
  · have hended : Session.Mirrors { released.1 with terminationReason := some recorded }
        { released'.1 with terminationReason := some recorded } := { hreleased.1 with }
    refine lockstep_bind (inStep_put hended) fun _ _ _ => inStep_finishClose hended recorded ?_
    rw [Option.map_or, Option.map_or, hclose, hreleased.2]

theorem inStep_restoreParent (childId : String) :
    InStep (fun _ _ => True) (restoreParent childId : Prog σ Unit)
      (restoreParent childId : Prog σ' Unit) := by
  unfold restoreParent
  refine @lockstep_bind _ _ _ _ _ _ _ _ _ _ _ _ _ _ _ _ _ _ _ ?_ ?_ (inStep_session _)
    fun child child' h => ?_
  · intro child
    split
    · refine Logs.bind inferInstance fun s => ?_
      split <;> infer_instance
    · infer_instance
  · intro child
    split
    · refine Logs.bind inferInstance fun s => ?_
      split <;> infer_instance
    · infer_instance
  · rw [h.returnToOrigin, h.parentSessionId]
    split
    · rename_i parentId _ _
      refine lockstep_get fun s s' hlow => ?_
      rcases hlow.get? parentId with ⟨hget, hget'⟩ | ⟨parent, parent', hget, hget', h⟩
      · rw [hget, hget']
        exact lockstep_pure trivial
      · rw [hget, hget']
        refine lockstep_whenever (by rw [h.state]) trivial fun _ _ => ?_
        exact lockstep_bind (inStep_transition h rfl) fun _ _ _ => lockstep_pure trivial
    · exact lockstep_pure trivial

theorem inStep_startHandoff (parentId targetServiceId : String)
    {terminal terminal' : Option TerminalCapabilities} {metadata metadata' : Option Archive.Fields} :
    InStep (fun request request' => request.shown = request'.shown)
      (startHandoff parentId targetServiceId terminal metadata : Prog σ RouteRequest)
      (startHandoff parentId targetServiceId terminal' metadata' : Prog σ' RouteRequest) := by
  unfold startHandoff
  refine lockstep_bind (inStep_session _) fun parent parent' h => ?_
  refine lockstep_ite (by rw [h.state]) (fun _ _ => lockstep_throw rfl) fun _ _ => ?_
  refine lockstep_bind (inStep_transition h rfl) fun _ _ _ => lockstep_pure ?_
  simp [Session.handoffRequest, RouteRequest.shown, h.targetService]

theorem inStep_handoffFailed (parentId : String) :
    InStep (fun _ _ => True) (handoffFailed parentId : Prog σ Unit)
      (handoffFailed parentId : Prog σ' Unit) := by
  unfold handoffFailed
  refine lockstep_bind (inStep_session _) fun parent parent' h => ?_
  refine lockstep_whenever (by rw [h.state]) trivial fun _ _ => ?_
  exact lockstep_bind (inStep_transition h rfl) fun _ _ _ => lockstep_pure trivial

theorem inStep_requireActive (sessionId : String) :
    InStep (fun _ _ => True) (requireActive sessionId : Prog σ Unit)
      (requireActive sessionId : Prog σ' Unit) := by
  unfold requireActive
  refine lockstep_bind (inStep_session _) fun current current' h => ?_
  exact lockstep_whenever (by rw [h.state]) trivial fun _ _ => lockstep_throw rfl

/-! ## Operations in lockstep -/

/-- The operations go on alike. -/
def NextAlike (next next' : List Task) : Prop := next.map Task.shown = next'.map Task.shown

theorem inStep_finish {exc exc' : Option Exn} (h : exc.map Exn.shown = exc'.map Exn.shown) :
    InStep NextAlike (Task.finish exc : Prog σ (List Task))
      (Task.finish exc' : Prog σ' (List Task)) := by
  cases exc with
  | none => cases exc' with
    | none => exact lockstep_pure rfl
    | some _ => cases h
  | some exc => cases exc' with
    | none => cases h
    | some exc' => exact lockstep_throw (Exn.cls_of_shown (by simpa using h))

theorem inStep_close (hanswers : answers.Alike answers') (sessionId : String)
    {reason reason' : String} (hreason : recordedReason reason = recordedReason reason')
    {exc exc' : Option Exn} (hexc : exc.map Exn.shown = exc'.map Exn.shown) :
    InStep NextAlike (Task.close R answers sessionId reason exc)
      (Task.close R' answers' sessionId reason' exc') := by
  unfold Task.close
  refine lockstep_bind (inStep_closeSession hanswers sessionId hreason) fun closed closed' h => ?_
  refine lockstep_ite (by rw [h]) (fun _ _ => lockstep_pure ?_) fun _ _ => inStep_finish hexc
  simp [NextAlike, Task.shown, hexc]

/-- What is shown of a call of a stream decides whether the session is closed,
and what is raised. -/
theorem closingReason_of_shown {call call' : StreamCall} {transfer transfer' : Transfer}
    (hcall : call.shown = call'.shown) (htransfer : transfer.shown = transfer'.shown) :
    closingReason call transfer = closingReason call' transfer' ∧
      (transferError call transfer).map Exn.shown =
        (transferError call' transfer').map Exn.shown := by
  have hreason : ∀ (call : StreamCall) (transfer : Transfer),
      closingReason call transfer = closingReason call.shown transfer.shown ∧
        (transferError call transfer).map Exn.shown =
          (transferError call.shown transfer.shown).map Exn.shown := by
    intro call transfer
    cases call <;> rcases transfer with (_ | ⟨_, _⟩) | _ | _ | _ <;> exact ⟨rfl, rfl⟩
  rw [(hreason call transfer).1, (hreason call transfer).2, (hreason call' transfer').1,
    (hreason call' transfer').2, hcall, htransfer]
  exact ⟨rfl, rfl⟩

theorem afterConnect_of_shown (h : o.shown = o'.shown) :
    Task.afterConnect o = Task.afterConnect o' := by
  obtain ⟨_, _, hparent, hmode, hby⟩ := Opening.shown_iff h
  unfold Task.afterConnect
  rw [hparent, hmode, hby]

/-- Every section in lockstep with itself. -/
theorem inStep_lockedSection (hR : R.Alike R') (hanswers : answers.Alike answers')
    {task task' : Task} (h : task.shown = task'.shown) :
    InStep NextAlike (task.lockedSection R answers) (task'.lockedSection R' answers') := by
  cases task with
  | openSession o => cases task' with
    | openSession o' =>
        have ho : o.shown = o'.shown := by simpa [Task.shown] using h
        exact lockstep_bind (inStep_register ho) fun _ _ _ =>
          lockstep_pure (by simp [NextAlike, Task.shown, ho])
    | _ => simp [Task.shown] at h
  | authorize o => cases task' with
    | authorize o' =>
        have ho : o.shown = o'.shown := by simpa [Task.shown] using h
        exact lockstep_bind (inStep_authorizing hR ho) fun _ _ _ =>
          lockstep_pure (by simp [NextAlike, Task.shown, ho])
    | _ => simp [Task.shown] at h
  | acquire o => cases task' with
    | acquire o' =>
        have ho : o.shown = o'.shown := by simpa [Task.shown] using h
        exact lockstep_bind (inStep_acquiring ho) fun _ _ _ =>
          lockstep_pure (by simp [NextAlike, Task.shown, ho])
    | _ => simp [Task.shown] at h
  | connect o => cases task' with
    | connect o' =>
        have ho : o.shown = o'.shown := by simpa [Task.shown] using h
        exact lockstep_bind (inStep_connecting hR hanswers ho) fun _ _ _ =>
          lockstep_pure (congrArg _ (afterConnect_of_shown ho))
    | _ => simp [Task.shown] at h
  | handoff parentId targetServiceId mode childId terminal callerMetadata => cases task' with
    | handoff parentId' targetServiceId' mode' childId' terminal' callerMetadata' =>
        obtain ⟨rfl, rfl, rfl, rfl⟩ : parentId = parentId' ∧ targetServiceId = targetServiceId' ∧
            mode = mode' ∧ childId = childId' := by simpa [Task.shown] using h
        refine lockstep_bind (inStep_startHandoff _ _) fun request request' hrequest => ?_
        have ho : Opening.shown ⟨childId, request, some parentId, some mode, true⟩ =
            Opening.shown ⟨childId, request', some parentId, some mode, true⟩ := by
          simp [Opening.shown, hrequest]
        refine lockstep_tryCatch ?_ fun exc exc' hexc => lockstep_pure ?_
        · exact lockstep_bind (inStep_register ho) fun _ _ _ =>
            lockstep_pure (by simp [NextAlike, Task.shown, ho])
        · simp [NextAlike, Task.shown, Exn.shown_of_cls hexc]
    | _ => simp [Task.shown] at h
  | handoffFailed parentId exc => cases task' with
    | handoffFailed parentId' exc' =>
        obtain ⟨rfl, hexc⟩ : parentId = parentId' ∧ exc.shown = exc'.shown := by
          simpa [Task.shown] using h
        exact lockstep_bind (inStep_handoffFailed _) fun _ _ _ =>
          lockstep_throw (Exn.cls_of_shown hexc)
    | _ => simp [Task.shown] at h
  | closeSession sessionId reason => cases task' with
    | closeSession sessionId' reason' =>
        obtain ⟨rfl, hreason⟩ : sessionId = sessionId' ∧
            recordedReason reason = recordedReason reason' := by simpa [Task.shown] using h
        exact inStep_close hanswers _ hreason rfl
    | _ => simp [Task.shown] at h
  | restoreParent childId exc => cases task' with
    | restoreParent childId' exc' =>
        obtain ⟨rfl, hexc⟩ : childId = childId' ∧ exc.map Exn.shown = exc'.map Exn.shown := by
          simpa [Task.shown] using h
        exact lockstep_bind (inStep_restoreParent _) fun _ _ _ => inStep_finish hexc
    | _ => simp [Task.shown] at h
  | transfer sessionId call => cases task' with
    | transfer sessionId' call' =>
        obtain ⟨rfl, hcall⟩ : sessionId = sessionId' ∧ call.shown = call'.shown := by
          simpa [Task.shown] using h
        exact lockstep_bind (inStep_requireActive _) fun _ _ _ =>
          lockstep_pure (by simp [NextAlike, Task.shown, hcall])
    | _ => simp [Task.shown] at h
  | awaitTransfer sessionId call => cases task' with
    | awaitTransfer sessionId' call' =>
        obtain ⟨rfl, hcall⟩ : sessionId = sessionId' ∧ call.shown = call'.shown := by
          simpa [Task.shown] using h
        obtain ⟨hreason, hexc⟩ := closingReason_of_shown hcall hanswers.transfer
        unfold Task.lockedSection
        dsimp only
        rw [hreason]
        cases closingReason call' answers'.transfer with
        | none => exact inStep_finish hexc
        | some reason => exact inStep_close hanswers _ rfl hexc
    | _ => simp [Task.shown] at h

end Sections

/-! ## Steps and runs side by side -/

/-- The same task is called or resumed, but for what may differ. -/
def Action.Alike : Action σ → Action σ' → Prop
  | .call task, .call task' | .resume task, .resume task' => task.shown = task'.shown
  | _, _ => False

instance (action : Action σ) (action' : Action σ') : Decidable (action.Alike action') :=
  match action, action' with
  | .call task, .call task' | .resume task, .resume task' =>
      inferInstanceAs (Decidable (task.shown = task'.shown))
  | .call _, .resume _ | .call _, .supervisor _ _ | .resume _, .call _ | .resume _, .supervisor _ _
  | .supervisor _ _, _ => instDecidableFalse

/-- The same step of the router, but for what may differ, and its calls end alike. -/
structure Label.Alike (l : Label σ) (l' : Label σ') : Prop where
  action : l.action.Alike l'.action
  answers : l.answers.Alike l'.answers

/-- The steps that the router takes. -/
def routerSteps (labels : List (Label σ)) : List (Label σ) :=
  labels.filter fun l => (World.taskOf l).isSome

namespace World

variable {R : Setup σ} {R' : Setup σ'} {w u : World σ} {w' u' : World σ'} {l : Label σ}
  {l' : Label σ'} {r r' : Except Exn Unit}

/-- The states mirror each other, and the same operations are under way. -/
structure Mirrors (w : World σ) (w' : World σ') : Prop where
  state : w.state.Mirrors w'.state
  tasks : (w.tasks.map Task.shown).Perm (w'.tasks.map Task.shown)

/-- The answers of the supervisor in the two worlds. -/
abbrev Apart (w : World σ) (w' : World σ') : Prop :=
  Parted State.outcomes State.outcomes w.state w'.state

theorem extends_of_advance {answers : Answers σ} {task : Task} {rest : List Task}
    (h : w.advance R answers task rest = some (r, u)) : Extends State.outcomes w.state u.state := by
  unfold advance at h
  split at h
  · cases h
  · rename_i hrun
    cases h
    exact (logs_lockedSection R answers task).extends hrun
  · rename_i hrun
    cases h
    exact (logs_lockedSection R answers task).extends hrun

/-- No step drops an answer of the supervisor. -/
theorem extends_of_step (h : w.step R l = some (r, u)) :
    Extends State.outcomes w.state u.state := by
  unfold step at h
  split at h
  · split at h
    · exact extends_of_advance h
    · cases h
  · split at h
    · exact extends_of_advance h
    · cases h
  · split at h
    · cases h
    · rw [Option.map_eq_some_iff] at h
      obtain ⟨result, _, hresult⟩ := h
      cases hresult
      exact refl_of (Extends State.outcomes) _

theorem afterError_of_shown {task task' : Task} {e e' : Exn} (h : task.shown = task'.shown)
    (he : e.cls = e'.cls) : NextAlike (task.afterError e) (task'.afterError e') := by
  have hopen : ∀ {o o' : Opening}, o.shown = o'.shown →
      NextAlike (Task.afterOpenError o e) (Task.afterOpenError o' e') := by
    intro o o' ho
    obtain ⟨_, _, hparent, _, hby⟩ := Opening.shown_iff ho
    unfold Task.afterOpenError
    rw [hparent, hby]
    split
    · simp [NextAlike, Task.shown, Exn.shown_of_cls he]
    · rfl
  cases task <;> cases task' <;> simp only [Task.shown, reduceCtorEq] at h <;>
    first
      | exact hopen (by simpa using h)
      | rfl

/-- Two worlds that mirror each other, after the same section. -/
theorem mirrors_of_advance {answers : Answers σ} {answers' : Answers σ'} {task task' : Task}
    {rest rest' : List Task} (hR : R.Alike R') (hanswers : answers.Alike answers')
    (hstate : w.state.Mirrors w'.state) (htask : task.shown = task'.shown)
    (hrest : (rest.map Task.shown).Perm (rest'.map Task.shown))
    (h : w.advance R answers task rest = some (r, u))
    (h' : w'.advance R' answers' task' rest' = some (r', u')) : u.Apart u' ∨ u.Mirrors u' := by
  unfold advance at h h'
  cases hrun : (task.lockedSection R answers).run w.state with
  | none => simp [hrun] at h
  | some result =>
  cases hrun' : (task'.lockedSection R' answers').run w'.state with
  | none => simp [hrun'] at h'
  | some result' =>
  obtain ⟨result, s⟩ := result
  obtain ⟨result', s'⟩ := result'
  rw [hrun] at h
  rw [hrun'] at h'
  have hlock := inStep_lockedSection hR hanswers htask _ _ hstate _ _ _ _ hrun hrun'
  -- both sections return or both raise, or the worlds are apart
  cases result with
  | ok next =>
      cases h
      cases result' with
      | ok next' =>
          cases h'
          refine hlock.imp_right fun ⟨hstate, hnext⟩ => ⟨hstate, ?_⟩
          have hnext : next.map Task.shown = next'.map Task.shown := hnext
          rw [List.map_append, List.map_append, hnext]
          exact hrest.append_right _
      | error e' =>
          cases h'
          exact hlock.imp_right fun ⟨_, hagree⟩ => hagree.elim
  | error e =>
      cases h
      cases result' with
      | ok next' =>
          cases h'
          exact hlock.imp_right fun ⟨_, hagree⟩ => hagree.elim
      | error e' =>
          cases h'
          refine hlock.imp_right fun ⟨hstate, hagree⟩ => ⟨hstate, ?_⟩
          have hnext := afterError_of_shown htask hagree
          unfold NextAlike at hnext
          rw [List.map_append, List.map_append, hnext]
          exact hrest.append_right _

/-- Two worlds that mirror each other, after the same step of the router. -/
theorem mirrors_of_step (hR : R.Alike R') (hl : l.Alike l') (hw : w.Mirrors w')
    (h : w.step R l = some (r, u)) (h' : w'.step R' l' = some (r', u')) :
    u.Apart u' ∨ u.Mirrors u' := by
  obtain ⟨action, answers⟩ := l
  obtain ⟨action', answers'⟩ := l'
  have haction := hl.action
  cases action with
  | call task => cases action' with
    | call task' =>
        simp only [step] at h h'
        split at h
        · split at h'
          · exact mirrors_of_advance hR hl.answers hw.state haction hw.tasks h h'
          · cases h'
        · cases h
    | _ => exact haction.elim
  | resume task => cases action' with
    | resume task' =>
        simp only [step] at h h'
        split at h
        · rename_i hmem
          split at h'
          · rename_i hmem'
            -- what is left of the two lists of tasks still matches
            have hrest : ((w.tasks.erase task).map Task.shown).Perm
                ((w'.tasks.erase task').map Task.shown) := by
              have hperm := ((List.perm_cons_erase hmem).map Task.shown).symm.trans
                (hw.tasks.trans ((List.perm_cons_erase hmem').map Task.shown))
              have haction : task.shown = task'.shown := haction
              rw [List.map_cons, List.map_cons, haction] at hperm
              exact hperm.cons_inv
            exact mirrors_of_advance hR hl.answers hw.state haction hrest h h'
          · cases h'
        · cases h
    | _ => exact haction.elim
  | supervisor => cases action' <;> exact haction.elim

/-- Nothing differs but the supervisor. -/
structure Unseen (w u : World σ) : Prop where
  sessions : u.state.sessions = w.state.sessions
  journal : u.state.journal = w.state.journal
  outcomes : u.state.outcomes = w.state.outcomes
  tasks : u.tasks = w.tasks

theorem Unseen.refl (w : World σ) : w.Unseen w := ⟨rfl, rfl, rfl, rfl⟩

/-- A step of the supervisor is not seen. -/
theorem unseen_of_supervisor (hl : taskOf l = none) (h : w.step R l = some (r, u)) :
    w.Unseen u := by
  obtain ⟨action, answers⟩ := l
  cases action with
  | call => cases hl
  | resume => cases hl
  | supervisor serviceId label =>
      simp only [step] at h
      split at h
      · cases h
      · rw [Option.map_eq_some_iff] at h
        obtain ⟨result, _, hresult⟩ := h
        cases hresult
        exact ⟨rfl, rfl, rfl, rfl⟩

theorem Mirrors.of_unseen (h : w.Mirrors w') (hu : w.Unseen u) (hu' : w'.Unseen u') :
    u.Mirrors u' := by
  refine ⟨⟨?_, ?_, ?_⟩, ?_⟩
  · rw [hu.sessions, hu'.sessions]
    exact h.state.sessions
  · rw [hu.journal, hu'.journal, h.state.journal]
  · rw [hu.outcomes, hu'.outcomes, h.state.outcomes]
  · rw [hu.tasks, hu'.tasks]
    exact h.tasks

/-- Along a trace no answer of the supervisor is dropped. -/
theorem extends_of_trace {labels : List (Label σ)} (h : Machine.Trace (step R) w labels u) :
    Extends State.outcomes w.state u.state :=
  h.rel (E := Extends fun w : World σ => w.state.outcomes) fun _ _ _ _ => extends_of_step

/-- Two runs that take the same steps of the router, whatever the supervisor does
in between: the answers of the supervisor differ somewhere, or the worlds mirror
each other to the end. -/
theorem mirrors_of_trace (hR : R.Alike R') {labels : List (Label σ)} {labels' : List (Label σ')}
    (h : Machine.Trace (step R) w labels u) (h' : Machine.Trace (step R') w' labels' u')
    (hlabels : List.Forall₂ Label.Alike (routerSteps labels) (routerSteps labels'))
    (hw : w.Mirrors w') : u.Apart u' ∨ u.Mirrors u' := by
  induction h generalizing w' labels' with
  | nil w =>
      induction h' with
      | nil => exact .inr hw
      | @cons _ _ _ l' _ _ hstep _ ih =>
          cases htask : taskOf l' with
          | none =>
              refine ih ?_ (hw.of_unseen (.refl _) (unseen_of_supervisor htask hstep))
              simpa [routerSteps, htask] using hlabels
          | some task => simp [routerSteps, htask] at hlabels
  | @cons w v u l r labels hstep htrace ih =>
      cases htask : taskOf l with
      | none =>
          refine ih h' ?_ (hw.of_unseen (unseen_of_supervisor htask hstep) (.refl _))
          simpa [routerSteps, htask] using hlabels
      | some task =>
          have hfirst : routerSteps (l :: labels) = l :: routerSteps labels := by
            simp [routerSteps, htask]
          rw [hfirst] at hlabels
          induction h' with
          | nil => cases hlabels
          | @cons _ _ _ l' _ labels' hstep' htrace' ih' =>
              cases htask' : taskOf l' with
              | none =>
                  refine ih' ih ?_ (hw.of_unseen (.refl _) (unseen_of_supervisor htask' hstep'))
                  simpa [routerSteps, htask'] using hlabels
              | some task' =>
                  have hfirst' : routerSteps (l' :: labels') = l' :: routerSteps labels' := by
                    simp [routerSteps, htask']
                  rw [hfirst'] at hlabels
                  obtain ⟨hl, hlabels⟩ := List.forall₂_cons.mp hlabels
                  rcases mirrors_of_step hR hl hw hstep hstep' with hapart | hv
                  · exact .inl
                      (hapart.mono (extends_of_trace htrace) (extends_of_trace htrace'))
                  · exact ih htrace' hlabels hv

end World

/-! ## Non-interference -/

/-- Two runs of the router over the same registry that take the same steps, with
calls that end alike, append the same records to the session journal, whatever
the terminal capabilities, the caller metadata, the bytes that are read and
written, the texts of exceptions and the reasons outside `TERMINATION_REASONS`
are; and the same operations are under way afterwards. -/
theorem journal_discloses_nothing {R : Setup σ} {R' : Setup σ'} (hR : R.Alike R')
    {supervisor : String → Supervisor.World σ} {supervisor' : String → Supervisor.World σ'}
    {labels : List (Label σ)} {labels' : List (Label σ')} {w : World σ} {w' : World σ'}
    (hrun : Machine.Trace (World.step R) (World.initial supervisor) labels w)
    (hrun' : Machine.Trace (World.step R') (World.initial supervisor') labels' w')
    (hlabels : List.Forall₂ Label.Alike (routerSteps labels) (routerSteps labels'))
    (houtcomes : w.state.outcomes = w'.state.outcomes) :
    (∀ clock, w.state.records clock = w'.state.records clock) ∧
      (w.tasks.map Task.shown).Perm (w'.tasks.map Task.shown) := by
  have hinitial : (World.initial supervisor).Mirrors (World.initial supervisor') :=
    ⟨⟨fun _ => .none, rfl, rfl⟩, .refl _⟩
  rcases World.mirrors_of_trace hR hrun hrun' hlabels hinitial with hapart | hw
  · exact absurd houtcomes hapart.ne
  · refine ⟨fun clock => ?_, hw.tasks⟩
    unfold State.records
    rw [hw.state.journal]

/-- A session is opened with a secret in its metadata, written to and closed with
the secret for a reason; another one is refused with the secret in the message. -/
def secretive (secret : String) (data : List UInt8) : List (Label Supervisor.Script) :=
  let request : RouteRequest :=
    { targetService := "menu", callerMetadata := [(.of "password", .str secret)] }
  let o : Opening := ⟨"a", request, none, none, false⟩
  let refused : Answers Supervisor.Script :=
    { scriptedAnswers "2" true true with connect := .error ⟨.foreign "RuntimeError", secret⟩ }
  ⟨.call (.openSession o), scriptedAnswers "1" true true⟩ ::
      opening o (scriptedAnswers "1" true true) ++
    [⟨.call (.transfer "a" (.write data)), scriptedAnswers "" true true⟩,
      ⟨.resume (.awaitTransfer "a" (.write data)),
        { scriptedAnswers "" true true with transfer := .written data.length }⟩,
      ⟨.call (.closeSession "a" secret), scriptedAnswers "" true true⟩,
      ⟨.resume (.restoreParent "a" none), scriptedAnswers "" true true⟩,
      ⟨.call (.openSession (menuOpening "b")), refused⟩] ++
    opening (menuOpening "b") refused

theorem journal_discloses_no_password : ∃ w w' : World Supervisor.Script,
    Machine.Trace (World.step (scripted 0)) (World.initial scriptedSupervisor)
      (secretive "swordfish" [1]) w ∧
    Machine.Trace (World.step (scripted 0)) (World.initial scriptedSupervisor)
      (secretive "open sesame" [2, 3]) w' ∧
    w.state.journal.length = 12 ∧ ∀ clock, w.state.records clock = w'.state.records clock := by
  have hexec : ((Machine.exec (World.step (scripted 0)) (fun _ _ => True)
      (World.initial scriptedSupervisor) (secretive "swordfish" [1])).map
      fun w => (w.state.outcomes, w.state.journal.length)) =
      some ([none, none, none, none], 12) := by decide +kernel
  have hexec' : ((Machine.exec (World.step (scripted 0)) (fun _ _ => True)
      (World.initial scriptedSupervisor) (secretive "open sesame" [2, 3])).map
      fun w => w.state.outcomes) = some [none, none, none, none] := by decide +kernel
  have hlabels : List.Forall₂ Label.Alike (routerSteps (secretive "swordfish" [1]))
      (routerSteps (secretive "open sesame" [2, 3])) := by
    repeat' first
      | exact .nil
      | refine .cons ⟨by decide, by decide, by decide, by decide⟩ ?_
  obtain ⟨w, hw, hobserved⟩ := Option.map_eq_some_iff.mp hexec
  obtain ⟨w', hw', houtcomes'⟩ := Option.map_eq_some_iff.mp hexec'
  obtain ⟨houtcomes, hlength⟩ := Prod.mk.inj hobserved
  have hrun := Machine.trace_of_exec hw
  have hrun' := Machine.trace_of_exec hw'
  exact ⟨w, w', hrun, hrun', hlength, (journal_discloses_nothing ⟨rfl, rfl, rfl⟩ hrun hrun' hlabels
    (houtcomes.trans houtcomes'.symm)).1⟩

end UltimateBBSBox.Router

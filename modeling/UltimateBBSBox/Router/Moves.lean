import UltimateBBSBox.Router.Execution

/-!
# What one step can do

`Moves` lists everything a section can do to the router's state and how its
operation goes on, an exception included.  `moves_of_lockedSection` says that
nothing else happens; every invariant of the router is proved over this list.
-/

namespace UltimateBBSBox.Router

open Act

variable {σ : Type}

/-! ## Sessions on their way -/

namespace Opening

variable (o : Opening)

/-- The session once it is authorized. -/
def acquiring (endpoint : NormalizedEndpoint) : Session :=
  { o.created with state := .acquiring, endpoint := some endpoint }

/-- The session once it has its hold. -/
def connecting (endpoint : NormalizedEndpoint) (lifecycleId : String) : Session :=
  { o.acquiring endpoint with state := .connecting, lifecycleSessionId := some lifecycleId }

/-- The session if it fails without a hold. -/
def failed (endpoint : Option NormalizedEndpoint) : Session :=
  { o.created with
    state := .failed, endpoint := endpoint, terminationReason := some "open_failed" }

end Opening

/-- A session after it was closed. -/
def Session.ended (current : Session) (state : SessionState) (reason : String) : Session :=
  { current with state := state, terminationReason := some reason }

namespace Task

/-- The session that the section closes, the reason, and what is raised afterwards. -/
def closing? (answers : Answers σ) : Task → Option (String × String × Option Exn)
  | .closeSession sessionId reason => some (sessionId, reason, none)
  | .awaitTransfer sessionId call =>
      (closingReason call answers.transfer).map fun reason =>
        (sessionId, reason, transferError call answers.transfer)
  | _ => none

/-- The session that the section returns to. -/
def returning? (s : State σ) : Task → Option String
  | .handoffFailed parentId _ => some parentId
  | .restoreParent childId _ =>
      (s.sessions.get? childId).bind fun child =>
        if child.returnToOrigin = true then child.parentSessionId else none
  | _ => none

/-- The session that the task is opening is where the task expects it. -/
def Ready (s : State σ) : Task → Prop
  | .authorize o => s.sessions.get? o.sessionId = some o.created
  | .acquire o => ∃ endpoint, s.sessions.get? o.sessionId = some (o.acquiring endpoint)
  | .connect o => ∃ endpoint lifecycleId,
      s.sessions.get? o.sessionId = some (o.connecting endpoint lifecycleId)
  | _ => True

/-- The ids that the section introduces are new. -/
def Fresh (answers : Answers σ) (s : State σ) : Task → Prop
  | .acquire o => s.held o.request.targetService answers.lifecycleId = none ∧
      answers.lifecycleId ∉ s.acquired.map Prod.snd
  | _ => True

end Task

/-- The route of a session was validated: a route via a service named an open
session of that service. -/
def OriginOpen (s : State σ) (request : RouteRequest) (originSessionId : Option String) : Prop :=
  request.routeType = .viaService → ∃ originId origin, originSessionId = some originId ∧
    s.sessions.get? originId = some origin ∧ origin.state.Open ∧
      some origin.targetService = request.originService

/-- The supervisor does not change, and neither it nor the outside is called. -/
def State.Quiet (s s' : State σ) : Prop :=
  s'.supervisor = s.supervisor ∧ s'.releases = s.releases ∧ s'.outgoing = s.outgoing

/-! ## The list -/

variable (R : Setup σ) (answers : Answers σ) (s : State σ)

/-- The session gets its stream: it comes from the resolver, or a connector of
the endpoint's type, and does not raise. -/
def Connects (current : Session) : Prop :=
  (∃ stream, answers.connect = .ok stream) ∧
    (R.streamResolver = true ∨ ∃ endpoint ∈ current.endpoint, endpoint.type ∈ R.connectors)

instance (current : Session) : Decidable (Connects R answers current) := by
  unfold Connects
  infer_instance

/-- What a section of a task can do, and the tasks that follow it. -/
inductive Moves : Task → List Task → State σ → Prop
  | registered {o : Opening} {s' : State σ} (hfresh : s.sessions.get? o.sessionId = none)
      (hsessions : s'.sessions = s.sessions.set o.sessionId o.created) (hquiet : s.Quiet s') :
      Moves (.openSession o) [.authorize o] s'
  | handedOff {parentId targetServiceId childId : String} {mode : HandoffMode} {parent : Session}
      {terminal : Option TerminalCapabilities} {callerMetadata : Option Archive.Fields}
      {o : Opening} {s' : State σ} (hparent : s.sessions.get? parentId = some parent)
      (hstate : parent.state = .active) (hfresh : s.sessions.get? childId = none)
      (ho : o = ⟨childId, parent.handoffRequest targetServiceId terminal callerMetadata,
        some parentId, some mode, true⟩)
      (hsessions : s'.sessions = (s.sessions.set parentId { parent with state := .handingOff }).set
        childId o.created) (hquiet : s.Quiet s') :
      Moves (.handoff parentId targetServiceId mode childId terminal callerMetadata)
        [.authorize o] s'
  | rejected {parentId targetServiceId childId : String} {mode : HandoffMode} {parent : Session}
      {terminal : Option TerminalCapabilities} {callerMetadata : Option Archive.Fields}
      {e : Exn} {s' : State σ} (hparent : s.sessions.get? parentId = some parent)
      (hstate : parent.state = .active)
      (hsessions : s'.sessions = s.sessions.set parentId { parent with state := .handingOff })
      (hquiet : s.Quiet s') :
      Moves (.handoff parentId targetServiceId mode childId terminal callerMetadata)
        [.handoffFailed parentId e] s'
  | authorized {o : Opening} {declaration : Declaration} {s' : State σ}
      (hget : s.sessions.get? o.sessionId = some o.created)
      (hauthorize : Router.authorize R.site.registry o.request = .ok declaration)
      (horigin : OriginOpen s o.request o.parentSessionId)
      (hsessions : s'.sessions = s.sessions.set o.sessionId (o.acquiring declaration.endpoint))
      (hquiet : s.Quiet s') : Moves (.authorize o) [.acquire o] s'
  | denied {o : Opening} {e : Exn} {s' : State σ}
      (hget : s.sessions.get? o.sessionId = some o.created)
      (hsessions : s'.sessions = s.sessions.set o.sessionId (o.failed none))
      (hquiet : s.Quiet s') : Moves (.authorize o) (Task.afterOpenError o e) s'
  | acquired {o : Opening} {endpoint : NormalizedEndpoint} {timestamp : DateTime} {s' : State σ}
      (hget : s.sessions.get? o.sessionId = some (o.acquiring endpoint))
      (hservice : R.site.registry.find? o.request.targetService ≠ none)
      (hsessions : s'.sessions =
        s.sessions.set o.sessionId (o.connecting endpoint answers.lifecycleId))
      (hheld : s.HeldExcept s' o.request.targetService answers.lifecycleId (some timestamp))
      (hreleases : s'.releases = s.releases)
      (hacquired : s'.acquired = (o.request.targetService, answers.lifecycleId) :: s.acquired)
      (hcontacts : s'.contacts = o.sessionId :: s.contacts) : Moves (.acquire o) [.connect o] s'
  | notAcquired {o : Opening} {endpoint : NormalizedEndpoint} {e : Exn} {s' : State σ}
      (hget : s.sessions.get? o.sessionId = some (o.acquiring endpoint))
      (hsessions : s'.sessions = s.sessions.set o.sessionId (o.failed (some endpoint)))
      (hheld : ∀ serviceId id, s'.held serviceId id = s.held serviceId id)
      (hreleases : s'.releases = s.releases) (hacquired : s'.acquired = s.acquired)
      (hcontacts : s'.contacts = o.sessionId :: s.contacts) :
      Moves (.acquire o) (Task.afterOpenError o e) s'
  | connected {o : Opening} {endpoint : NormalizedEndpoint} {lifecycleId : String} {s' : State σ}
      (stream : Stream) (hget : s.sessions.get? o.sessionId = some (o.connecting endpoint lifecycleId))
      (hsessions : s'.sessions = s.sessions.set o.sessionId
        { o.connecting endpoint lifecycleId with state := .active, stream := some stream })
      (hsupervisor : s'.supervisor = s.supervisor) (hreleases : s'.releases = s.releases)
      (hacquired : s'.acquired = s.acquired) (hcontacts : s'.contacts = o.sessionId :: s.contacts) :
      Moves (.connect o) (Task.afterConnect o) s'
  | notConnected {o : Opening} {endpoint : NormalizedEndpoint} {lifecycleId : String} {e : Exn}
      {s' : State σ} (hget : s.sessions.get? o.sessionId = some (o.connecting endpoint lifecycleId))
      (hraised : ¬ Connects R answers (o.connecting endpoint lifecycleId))
      (hsessions : s'.sessions = s.sessions.set o.sessionId
        ((o.connecting endpoint lifecycleId).cleaned.ended .failed "open_failed"))
      (hcleaned : Cleaned R answers s s' (o.connecting endpoint lifecycleId) true)
      (hacquired : s'.acquired = s.acquired) (hcontacts : s'.contacts = o.sessionId :: s.contacts) :
      Moves (.connect o) (Task.afterOpenError o e) s'
  | stuck {o : Opening} {endpoint : NormalizedEndpoint} {lifecycleId : String} {e : Exn}
      {s' : State σ} (hget : s.sessions.get? o.sessionId = some (o.connecting endpoint lifecycleId))
      (hraised : ¬ Connects R answers (o.connecting endpoint lifecycleId))
      (hsessions : s'.sessions = s.sessions)
      (hcleaned : Cleaned R answers s s' (o.connecting endpoint lifecycleId) false)
      (hacquired : s'.acquired = s.acquired) (hcontacts : s'.contacts = o.sessionId :: s.contacts) :
      Moves (.connect o) (Task.afterOpenError o e) s'
  | returned {task : Task} {parentId : String} {parent : Session} {s' : State σ}
      (hreturning : task.returning? s = some parentId)
      (hparent : s.sessions.get? parentId = some parent) (hstate : parent.state = .handingOff)
      (hsessions : s'.sessions = s.sessions.set parentId { parent with state := .active })
      (hquiet : s.Quiet s') : Moves task [] s'
  | closed {task : Task} {sessionId reason : String} {exc : Option Exn} {current : Session}
      {s' : State σ} (reason' : String) (hclosing : task.closing? answers = some (sessionId, reason, exc))
      (hget : s.sessions.get? sessionId = some current)
      (hstate : current.state.Open ∨ current.state = .failed)
      (hsessions : s'.sessions = s.sessions.set sessionId (current.cleaned.ended .closed reason'))
      (hcleaned : Cleaned R answers s s' current true) (houtgoing : s'.outgoing = s.outgoing) :
      Moves task [.restoreParent sessionId exc] s'
  | closeFailed {task : Task} {sessionId reason : String} {exc : Option Exn}
      {current current' : Session} {released : Bool} {s' : State σ} (reason' : String)
      (hclosing : task.closing? answers = some (sessionId, reason, exc))
      (hget : s.sessions.get? sessionId = some current)
      (hstate : current.state.Open ∨ current.state = .failed)
      (hcurrent : current' = if released = true then current.cleaned else current)
      (hraised : (current.stream ≠ none ∧ raised answers.closeStream ≠ none) ∨ released = false)
      (hsessions : s'.sessions = s.sessions.set sessionId (current'.ended .failed reason'))
      (hcleaned : Cleaned R answers s s' current released) (houtgoing : s'.outgoing = s.outgoing) :
      Moves task [] s'
  | idle {task : Task} {next : List Task} {s' : State σ} (hopening : task.opening? = none)
      (hreturning : ∀ parentId parent, task.returning? s = some parentId →
        s.sessions.get? parentId = some parent → parent.state ≠ .handingOff)
      (hclosing : ∀ sessionId reason exc current,
        task.closing? answers = some (sessionId, reason, exc) →
        s.sessions.get? sessionId = some current → ¬ current.state.Open)
      (hnext : ∀ t ∈ next, ∃ sessionId call, t = .awaitTransfer sessionId call)
      (hsessions : s'.sessions = s.sessions) (hquiet : s.Quiet s') : Moves task next s'

variable {R answers s}

/-! ## Opening and handing off -/

/-- Registering a session, if its id is new. -/
theorem register_spec {o : Opening} :
    wlp (register o)
      (fun _ s' => s.sessions.get? o.sessionId = none ∧
        s'.sessions = s.sessions.set o.sessionId o.created ∧ s.Quiet s')
      (fun _ s' => s' = s) s :=
  wlp_bind.mpr <| wlp_get.mpr <| wlp_ite.mpr
    ⟨fun _ => wlp_throw.mpr rfl, fun hfresh => wlp_bind.mpr <| wlp_put.mpr <| wlp_modify.mpr
      ⟨not_not.mp hfresh, rfl, rfl, rfl, rfl⟩⟩

theorem moves_openSession {o : Opening} :
    wlp (Task.lockedSection R answers (.openSession o))
      (fun next => Moves R answers s (.openSession o) next)
      (fun _ => Moves R answers s (.openSession o) []) s := by
  refine wlp_bind.mpr <| wlp_mono register_spec (fun _ s' h' => wlp_pure.mpr ?_) fun _ s' h' => ?_
  · exact .registered h'.1 h'.2.1 h'.2.2
  · exact .idle rfl (by simp [Task.returning?]) (by simp [Task.closing?]) (by simp)
      (by rw [h']) (by rw [h']; exact ⟨rfl, rfl, rfl⟩)

theorem moves_handoff {parentId targetServiceId childId : String} {mode : HandoffMode}
    {terminal : Option TerminalCapabilities} {callerMetadata : Option Archive.Fields} {task : Task}
    (htask : task = .handoff parentId targetServiceId mode childId terminal callerMetadata)
    (hkeys : ∀ id current, s.sessions.get? id = some current → current.id = id) :
    wlp (Task.lockedSection R answers task) (fun next => Moves R answers s task next)
      (fun _ => Moves R answers s task []) s := by
  subst htask
  have hidle : Moves R answers s
      (.handoff parentId targetServiceId mode childId terminal callerMetadata) [] s :=
    .idle rfl (by simp [Task.returning?]) (by simp [Task.closing?]) (by simp) rfl ⟨rfl, rfl, rfl⟩
  refine wlp_bind.mpr <| wlp_bind.mpr <| wlp_session.mpr ⟨fun parent hparent => ?_, fun _ => hidle⟩
  refine wlp_ite.mpr ⟨fun _ => wlp_throw.mpr hidle, fun hactive => ?_⟩
  have hactive : parent.state = .active := not_not.mp hactive
  have hid := hkeys _ _ hparent
  refine wlp_bind.mpr <| (wlp_transition_of_mem (by simp [hactive, transitions])).mpr <|
    wlp_pure.mpr <| wlp_tryCatch.mpr <| wlp_bind.mpr <| wlp_mono register_spec (fun _ s' h' => ?_)
      fun e s' h' => wlp_pure.mpr ?_
  · obtain ⟨hfresh, hsessions, hquiet⟩ := h'
    refine wlp_pure.mpr <| .handedOff hparent hactive ?_ rfl ?_ hquiet
    · change (s.sessions.set parent.id _).get? childId = none at hfresh
      rw [hid, Dict.get?_set] at hfresh
      split at hfresh
      · cases hfresh
      · exact hfresh
    · rw [hsessions]
      change (s.sessions.set parent.id _).set _ _ = _
      rw [hid]
  · refine .rejected hparent hactive ?_ (by rw [h']; exact ⟨rfl, rfl, rfl⟩)
    rw [h']
    change s.sessions.set parent.id _ = _
    rw [hid]

/-! ## Authorizing, acquiring and connecting -/

theorem validateOrigin_spec {request : RouteRequest} {originSessionId : Option String} :
    wlp (validateOrigin request originSessionId)
      (fun _ s' => s' = s ∧ OriginOpen s request originSessionId) (fun _ s' => s' = s) s := by
  unfold validateOrigin
  refine wlp_ite.mpr ⟨fun hdirect => wlp_pure.mpr ⟨rfl, fun hvia => absurd hvia hdirect⟩,
    fun _ => ?_⟩
  split
  · exact wlp_throw.mpr rfl
  · exact wlp_throw.mpr rfl
  · rename_i originId _
    refine wlp_bind.mpr <| wlp_session.mpr ⟨fun origin horigin => ?_, fun _ => rfl⟩
    refine wlp_ite.mpr ⟨fun _ => wlp_throw.mpr rfl, fun hopen => ?_⟩
    refine wlp_ite.mpr ⟨fun _ => wlp_throw.mpr rfl, fun hservice => wlp_pure.mpr ⟨rfl, fun _ => ?_⟩⟩
    exact ⟨originId, origin, rfl, horigin, not_not.mp hopen, not_not.mp hservice⟩

/-- The `except` clause of `open_session`, for a session that is stored as `current`. -/
theorem openFailed_spec {sessionId : String} {exc : Exn} {current : Session} {s₀ : State σ}
    (hget : s₀.sessions.get? sessionId = some current) (hid : current.id = sessionId)
    (hstream : current.stream = none) (hstate : .failed ∈ transitions current.state)
    {Q : Unit → State σ → Prop} :
    wlp (openFailed R answers sessionId exc) Q
      (fun _ s' => s'.outgoing = s₀.outgoing ∧
        ((Cleaned R answers s₀ s' current true ∧ s'.sessions =
          s₀.sessions.set sessionId (current.cleaned.ended .failed "open_failed")) ∨
        (Cleaned R answers s₀ s' current false ∧ s'.sessions = s₀.sessions))) s₀ := by
  refine wlp_bind.mpr <| (wlp_session_of_some hget).mpr <| wlp_bind.mpr <| wlp_whenever.mpr
    ⟨fun hstream' => by simp [hstream] at hstream', fun _ => ?_⟩
  refine wlp_bind.mpr <| wlp_mono releaseHold_spec (fun released s₁ h₁ => ?_) fun _ s₁ h₁ =>
    ⟨h₁.2.1, .inr ⟨h₁.1, h₁.2.2⟩⟩
  obtain ⟨rfl, hcleaned, houtgoing, hset⟩ := h₁
  have hstate' : .failed ∈ transitions current.cleaned.state := hstate
  refine wlp_ite.mpr ⟨fun _ => ?_, fun hfailed => ?_⟩
  · refine wlp_bind.mpr <| (wlp_transition_of_mem hstate').mpr ?_
    refine wlp_bind.mpr <| wlp_put.mpr <| wlp_throw.mpr ⟨houtgoing, .inl ⟨?_, ?_⟩⟩
    · exact hcleaned.of_eq rfl rfl
    · change (s₁.sessions.set current.id _).set current.id _ = _
      rw [Dict.set_set, hset, hid]
      rfl
  · have hfailed : current.cleaned.state = .failed := not_not.mp hfailed
    rw [hfailed] at hstate'
    simp [transitions] at hstate'

theorem moves_authorize {o : Opening} (hget : s.sessions.get? o.sessionId = some o.created) :
    wlp (Task.lockedSection R answers (.authorize o)) (fun next => Moves R answers s (.authorize o) next)
      (fun e => Moves R answers s (.authorize o) (Task.afterOpenError o e)) s := by
  let s₁ := s.moved o.created .authorizing "authorizing" none none
  -- every exception is raised before anything else changes
  have hfailed : ∀ e, wlp (openFailed R answers o.sessionId e)
      (fun _ => Moves R answers s (.authorize o) [.acquire o])
      (fun e => Moves R answers s (.authorize o) (Task.afterOpenError o e)) s₁ := fun e => by
    have hstored : s₁.sessions.get? o.sessionId = some { o.created with state := .authorizing } :=
      Dict.get?_set_self _ _ _
    refine wlp_mono (openFailed_spec (Q := fun _ => Moves R answers s (.authorize o) [.acquire o])
      hstored rfl rfl (by simp [transitions])) (fun _ _ h' => h') fun e' s' h' => ?_
    obtain ⟨houtgoing, ⟨hcleaned, hsessions⟩ | ⟨hcleaned, _⟩⟩ := h'
    · cases hcleaned with
      | nothing _ hsupervisor hreleases =>
          refine .denied hget ?_ ⟨hsupervisor, hreleases, houtgoing⟩
          rw [hsessions]
          exact Dict.set_set _ _ _ _
      | released hlifecycle => cases hlifecycle
    · cases hcleaned with
      | unknown hlifecycle => cases hlifecycle
      | unfit hlifecycle => cases hlifecycle
  refine wlp_bind.mpr <| wlp_tryCatch.mpr <| wlp_bind.mpr <| (wlp_session_of_some hget).mpr ?_
  refine wlp_bind.mpr <| (wlp_transition_of_mem (by simp [Opening.created, transitions])).mpr ?_
  refine wlp_bind.mpr <| wlp_mono (validateOrigin_spec (s := s₁)) (fun _ s₂ h₂ => ?_)
    fun e _ h' => h' ▸ hfailed e
  obtain ⟨rfl, horigin⟩ := h₂
  refine wlp_bind.mpr <| wlp_ofExcept.mpr ⟨fun declaration hauthorize => ?_, fun e _ => hfailed e⟩
  refine wlp_bind.mpr <| wlp_put.mpr <| wlp_bind.mpr <|
    (wlp_transition_of_mem (by simp [transitions])).mpr ?_
  refine wlp_pure.mpr <| wlp_pure.mpr <| .authorized hget hauthorize (fun hvia => ?_) ?_
    ⟨rfl, rfl, rfl⟩
  · obtain ⟨originId, origin, hparent, horigin, hopen, hservice⟩ := horigin hvia
    have hne : originId ≠ o.sessionId := by
      rintro rfl
      rw [show s₁.sessions.get? o.sessionId = some _ from Dict.get?_set_self _ _ _,
        Option.some.injEq] at horigin
      simp [← horigin, SessionState.Open] at hopen
    exact ⟨originId, origin, hparent, by rw [← horigin]; exact (Dict.get?_set_ne _ _ hne).symm,
      hopen, hservice⟩
  · change ((s.sessions.set _ _).set _ _).set _ _ = _
    rw [Dict.set_set, Dict.set_set]
    rfl

theorem moves_acquire {o : Opening} {endpoint : NormalizedEndpoint}
    (hget : s.sessions.get? o.sessionId = some (o.acquiring endpoint))
    (hfresh : Task.Fresh answers s (.acquire o)) :
    wlp (Task.lockedSection R answers (.acquire o)) (fun next => Moves R answers s (.acquire o) next)
      (fun e => Moves R answers s (.acquire o) (Task.afterOpenError o e)) s := by
  let target := o.request.targetService
  let s₁ := s.withCall (.acquire o.sessionId target)
  -- the supervisor raised and holds what it held before
  have hfailed : ∀ (s₂ : State σ) (e : Exn), s₂.sessions = s.sessions → s₂.calls = s₁.calls →
      (∀ serviceId id, s₂.held serviceId id = s.held serviceId id) →
      wlp (openFailed R answers o.sessionId e)
        (fun _ : Unit => Moves R answers s (.acquire o) [.connect o])
        (fun e => Moves R answers s (.acquire o) (Task.afterOpenError o e)) s₂ := by
    intro s₂ e hsame hcalls hheld
    have hstored : s₂.sessions.get? o.sessionId = some (o.acquiring endpoint) := hsame ▸ hget
    refine wlp_mono (openFailed_spec (Q := fun _ => Moves R answers s (.acquire o) [.connect o])
      hstored rfl rfl (by simp [Opening.acquiring, transitions])) (fun _ _ h' => h')
      fun e' s' h' => ?_
    obtain ⟨houtgoing, ⟨hcleaned, hsessions⟩ | ⟨hcleaned, _⟩⟩ := h'
    · cases hcleaned with
      | nothing _ hsupervisor hreleases =>
          obtain ⟨hacquired, hcontacts⟩ := Prod.mk.injEq .. ▸ houtgoing
          refine .notAcquired hget ?_ (fun serviceId id => ?_) ?_ ?_ ?_
          · rw [hsessions, hsame]
            rfl
          · rw [← hheld]
            unfold State.held
            rw [hsupervisor]
          · rw [hreleases]
            unfold State.releases
            rw [hcalls]
            rfl
          · rw [hacquired]
            unfold State.acquired
            rw [hcalls]
            rfl
          · rw [hcontacts]
            unfold State.contacts
            rw [hcalls]
            rfl
      | released hlifecycle => cases hlifecycle
    · cases hcleaned with
      | unknown hlifecycle => cases hlifecycle
      | unfit hlifecycle => cases hlifecycle
  refine wlp_bind.mpr <| wlp_tryCatch.mpr <| wlp_bind.mpr <| (wlp_session_of_some hget).mpr ?_
  refine wlp_bind.mpr <| wlp_record.mpr <| wlp_bind.mpr ?_
  cases hservice : R.site.registry.find? target with
  | none =>
      have htarget : (o.acquiring endpoint).targetService = target := rfl
      simp only [callSupervisor, wlp_bind, wlp_get, htarget, hservice, wlp_modify, wlp_throw]
      exact hfailed _ _ rfl rfl fun _ _ => rfl
  | some service =>
      obtain ⟨_, hid⟩ := Registry.mem_services_of_find? hservice
      have hfind : R.site.registry.find? service.id = some service := hid ▸ hservice
      change wlp (callSupervisor R answers target _) _ _ s₁
      rw [← hid]
      refine (wlp_callSupervisor hfind).mpr ?_
      rw [hid]
      refine wlp_mono (Supervisor.acquireSession_spec answers.fuel hfresh.1) (fun lifecycleId c' h' => ?_)
        fun e c' h' => ?_
      · obtain ⟨rfl, timestamp, hentry⟩ := h'
        have hheld : s₁.HeldExcept (s₁.withCell target c' none) target answers.lifecycleId
            (some timestamp) := heldExcept_withCell fun id => by rw [hentry, Dict.get?_set]; rfl
        refine wlp_bind.mpr <| wlp_record.mpr <| wlp_bind.mpr <| wlp_put.mpr <| wlp_bind.mpr <|
          (wlp_transition_of_mem (by simp [Opening.acquiring, transitions])).mpr <|
            wlp_pure.mpr <| wlp_pure.mpr <| .acquired hget (by simp [hservice, target]) ?_
              hheld rfl rfl rfl
        · change (s.sessions.set _ _).set _ _ = _
          rw [Dict.set_set]
          rfl
      · refine hfailed _ _ rfl rfl fun serviceId id => ?_
        rw [held_withCell]
        split
        · rename_i heq
          rw [h' id, heq]
          rfl
        · rfl

/-- Connecting calls the outside once, whatever comes of it. -/
theorem connect_spec {current : Session} {endpoint : NormalizedEndpoint}
    (hendpoint : current.endpoint = some endpoint) :
    wlp (connect R answers current)
      (fun _ s' => s'.sessions = s.sessions ∧ s'.supervisor = s.supervisor ∧
        s'.releases = s.releases ∧ s'.acquired = s.acquired ∧ s'.contacts = current.id :: s.contacts)
      (fun _ s' => ¬ Connects R answers current ∧ s'.sessions = s.sessions ∧
        s'.supervisor = s.supervisor ∧ s'.releases = s.releases ∧ s'.acquired = s.acquired ∧
        s'.contacts = current.id :: s.contacts)
      s := by
  have hraises : ∀ e, answers.connect = .error e → ¬ Connects R answers current := fun e he h => by
    obtain ⟨stream, hstream⟩ := h.1
    simp [he] at hstream
  refine wlp_ite.mpr ⟨fun _ => wlp_bind.mpr <| wlp_record.mpr <| wlp_ofExcept.mpr
    ⟨fun _ _ => ⟨rfl, rfl, rfl, rfl, rfl⟩, fun e he => ⟨hraises e he, rfl, rfl, rfl, rfl, rfl⟩⟩,
    fun hresolver => ?_⟩
  simp only [hendpoint]
  refine wlp_bind.mpr <| wlp_record.mpr <| wlp_ite.mpr ⟨fun _ => ?_, fun hconnector => ?_⟩
  · exact wlp_ofExcept.mpr
      ⟨fun _ _ => ⟨rfl, rfl, rfl, rfl, rfl⟩, fun e he => ⟨hraises e he, rfl, rfl, rfl, rfl, rfl⟩⟩
  · refine wlp_throw.mpr ⟨fun h => h.2.elim hresolver fun ⟨endpoint', hmem, htype⟩ => ?_,
      rfl, rfl, rfl, rfl, rfl⟩
    rw [hendpoint, Option.mem_some] at hmem
    exact hconnector (hmem ▸ htype)

theorem moves_connect {o : Opening} {endpoint : NormalizedEndpoint} {lifecycleId : String}
    (hget : s.sessions.get? o.sessionId = some (o.connecting endpoint lifecycleId)) :
    wlp (Task.lockedSection R answers (.connect o)) (fun next => Moves R answers s (.connect o) next)
      (fun e => Moves R answers s (.connect o) (Task.afterOpenError o e)) s := by
  refine wlp_bind.mpr <| wlp_tryCatch.mpr <| wlp_bind.mpr <| (wlp_session_of_some hget).mpr ?_
  refine wlp_bind.mpr <| wlp_mono (connect_spec
      (show (o.connecting endpoint lifecycleId).endpoint = some endpoint from rfl))
    (fun stream s₁ h₁ => ?_) fun e s₁ h₁ => ?_
  · obtain ⟨hsessions, hsupervisor, hreleases, hacquired, hcontacts⟩ := h₁
    refine wlp_bind.mpr <| wlp_put.mpr <| wlp_bind.mpr <|
      (wlp_transition_of_mem (by simp [Opening.connecting, transitions])).mpr <| wlp_pure.mpr <|
        wlp_pure.mpr <| .connected stream hget ?_ hsupervisor hreleases hacquired hcontacts
    change (s₁.sessions.set _ _).set _ _ = _
    rw [Dict.set_set, hsessions]
    rfl
  · obtain ⟨hraised, hsessions, hsupervisor, hreleases, hacquired, hcontacts⟩ := h₁
    have hstored : s₁.sessions.get? o.sessionId = some (o.connecting endpoint lifecycleId) :=
      hsessions ▸ hget
    refine wlp_mono (openFailed_spec
      (Q := fun _ => Moves R answers s (.connect o) (Task.afterConnect o)) hstored rfl rfl
      (by simp [Opening.connecting, transitions])) (fun _ _ h' => h') fun e' s' h' => ?_
    obtain ⟨houtgoing, h'⟩ := h'
    obtain ⟨hacquired', hcontacts'⟩ := Prod.mk.injEq .. ▸ houtgoing
    rcases h' with ⟨hcleaned, hset⟩ | ⟨hcleaned, hset⟩
    · exact .notConnected hget hraised (by rw [hset, hsessions]) (hcleaned.from_eq hsupervisor hreleases)
        (hacquired'.trans hacquired) (hcontacts'.trans hcontacts)
    · exact .stuck hget hraised (hset.trans hsessions) (hcleaned.from_eq hsupervisor hreleases)
        (hacquired'.trans hacquired) (hcontacts'.trans hcontacts)

/-! ## Closing and returning -/

theorem closeStream_spec {current : Session} :
    wlp (closeStream answers current)
      (fun error s' => (error ≠ none → current.stream ≠ none ∧ raised answers.closeStream ≠ none) ∧
        s'.sessions = s.sessions ∧ s.Quiet s') (fun _ _ => False) s := by
  refine wlp_ite.mpr ⟨fun hstream => wlp_bind.mpr <| wlp_record.mpr <| wlp_pure.mpr
    ⟨fun herror => ⟨?_, herror⟩, rfl, rfl, rfl, rfl⟩, fun _ => wlp_pure.mpr
      ⟨fun herror => absurd rfl herror, rfl, rfl, rfl, rfl⟩⟩
  exact Option.isSome_iff_ne_none.mp hstream

/-- Closing a session, whichever task does it. -/
theorem moves_close {task : Task} {sessionId reason : String} {exc : Option Exn}
    (hkeys : ∀ id current, s.sessions.get? id = some current → current.id = id)
    (hclosing : task.closing? answers = some (sessionId, reason, exc))
    (hopening : task.opening? = none) (hreturning : task.returning? s = none) :
    wlp (Task.close R answers sessionId reason exc) (Moves R answers s task)
      (fun _ => Moves R answers s task []) s := by
  have hidle : (∀ current, s.sessions.get? sessionId = some current → ¬ current.state.Open) →
      Moves R answers s task [] s := fun hnot =>
    .idle hopening (by simp [hreturning]) (fun id reason' exc' current h' hget => by
      rw [hclosing, Option.some.injEq] at h'
      cases h'
      exact hnot current hget) (by simp) rfl ⟨rfl, rfl, rfl⟩
  have hfinish : (∀ current, s.sessions.get? sessionId = some current → ¬ current.state.Open) →
      wlp (Task.finish exc) (Moves R answers s task) (fun _ => Moves R answers s task []) s :=
    fun hnot => by
      unfold Task.finish
      cases exc with
      | none => exact wlp_pure.mpr (hidle hnot)
      | some exc => exact wlp_throw.mpr (hidle hnot)
  refine wlp_bind.mpr <| wlp_bind.mpr <| wlp_session.mpr ⟨fun current hget => ?_, fun hnone =>
    hidle fun _ hget => by simp [hnone] at hget⟩
  have hid := hkeys _ _ hget
  refine wlp_ite.mpr ⟨fun hdone => ?_, fun hnot => ?_⟩
  · -- the session is closed already
    refine wlp_pure.mpr <| wlp_ite.mpr ⟨fun h => by simp at h, fun _ => hfinish fun current' hget' => ?_⟩
    rw [hget, Option.some.injEq] at hget'
    subst hget'
    intro hopen
    simp only [List.mem_cons, List.not_mem_nil, or_false, SessionState.Open] at hdone hopen
    rcases hdone with h | h <;> simp [h] at hopen
  refine wlp_bind.mpr <| wlp_transition.mpr ⟨fun hmem => ?_, fun _ _ => hidle fun current' hget' => ?_⟩
  · have hstate : current.state.Open ∨ current.state = .failed := by
      unfold SessionState.Open
      cases h : current.state <;> simp [h, transitions] at hmem ⊢
    refine wlp_bind.mpr <| wlp_mono closeStream_spec (fun closeError s₂ h₂ => ?_)
      fun _ _ h' => h'.elim
    obtain ⟨hcloseError, hsessions₂, hquiet₂⟩ := h₂
    -- what releasing the hold leaves, and the exception it raised
    refine wlp_bind.mpr <| wlp_mono (Q := fun released s₃ => ∃ ok,
      released.1 = (if ok = true then { current with state := .closing }.cleaned
        else { current with state := .closing }) ∧ (released.2 = none ↔ ok = true) ∧
      Cleaned R answers s s₃ current ok ∧ s₃.outgoing = s.outgoing ∧
      ∀ session, s₃.sessions.set sessionId session = s.sessions.set sessionId session)
      (X := fun _ _ => False) ?_ (fun released s₃ h₃ => ?_) fun _ _ h' => h'.elim
    · have hset : ∀ session, s₂.sessions.set sessionId session = s.sessions.set sessionId session :=
        fun session => by
          rw [hsessions₂]
          change (s.sessions.set current.id _).set sessionId session = _
          rw [hid, Dict.set_set]
      refine wlp_tryCatch.mpr <| wlp_bind.mpr <| wlp_mono releaseHold_spec
        (fun released s₃ h₃ => wlp_pure.mpr ⟨true, h₃.1, by simp,
          (h₃.2.1.from_eq (s := s) hquiet₂.1 hquiet₂.2.1).of_state, h₃.2.2.1.trans hquiet₂.2.2, ?_⟩)
        fun exc' s₃ h₃ => wlp_pure.mpr ⟨false, rfl, by simp,
          (h₃.1.from_eq (s := s) hquiet₂.1 hquiet₂.2.1).of_state, h₃.2.1.trans hquiet₂.2.2, ?_⟩
      · intro session
        have hset₃ := h₃.2.2.2 session
        rw [show ({ current with state := .closing } : Session).id = sessionId from hid] at hset₃
        rw [hset₃, hset]
      · intro session
        rw [h₃.2.2, hset]
    obtain ⟨released, releaseError⟩ := released
    obtain ⟨ok, hreleased, herror, hcleaned, houtgoing, hset⟩ := h₃
    dsimp only at hreleased
    have hsets : ∀ (id : String) (first last : Session), id = sessionId →
        (s₃.sessions.set id first).set id last = s.sessions.set sessionId last :=
      fun id first last hid => by rw [Dict.set_set, hid, hset]
    refine wlp_bind.mpr <| wlp_put.mpr ?_
    cases hor : closeError.or releaseError with
    | none =>
        rw [Option.or_eq_none_iff] at hor
        obtain rfl : ok = true := herror.mp hor.2
        obtain rfl : released = { current with state := .closing }.cleaned := hreleased
        refine wlp_bind.mpr <| (wlp_transition_of_mem (by simp [Session.cleaned, transitions])).mpr <|
          wlp_pure.mpr <| wlp_ite.mpr ⟨fun _ => wlp_pure.mpr <| .closed _ hclosing hget hstate
            (hsets _ _ _ hid) (hcleaned.of_eq rfl rfl) houtgoing, fun h => absurd rfl h⟩
    | some exc' =>
        have hraised : (current.stream ≠ none ∧ raised answers.closeStream ≠ none) ∨ ok = false := by
          cases ok with
          | false => exact .inr rfl
          | true =>
              rw [show releaseError = none from herror.mpr rfl, Option.or_none] at hor
              exact .inl (hcloseError (by simp [hor]))
        have hfailed : ∀ current' : Session,
            current' = (if ok = true then current.cleaned else current) →
            released = { current' with state := .closing } →
            Moves R answers s task [] ((s₃.withSession { released with
              terminationReason := some (if reason ∈ terminationReasons then reason else "other")
              }).moved { released with
              terminationReason := some (if reason ∈ terminationReasons then reason else "other") }
              .failed "close_failed"
              (some (if reason ∈ terminationReasons then reason else "other")) (some exc')) := by
          rintro current' hcurrent rfl
          refine .closeFailed (if reason ∈ terminationReasons then reason else "other") hclosing
            hget hstate hcurrent hraised ?_ (hcleaned.of_eq rfl rfl) houtgoing
          have hid' : current'.id = sessionId := by
            rw [hcurrent]
            split <;> exact hid
          exact hsets current'.id _ _ hid'
        have hclosingState : released.state = .closing := by
          rw [hreleased]
          split <;> rfl
        refine wlp_bind.mpr <| (wlp_transition_of_mem (by simp [hclosingState, transitions])).mpr <|
          wlp_throw.mpr <| hfailed _ rfl ?_
        rw [hreleased]
        cases ok <;> rfl
  · rw [hget, Option.some.injEq] at hget'
    subst hget'
    intro hopen
    rename_i herror
    simp only [List.mem_cons, List.not_mem_nil, or_false, SessionState.Open] at hopen
    rcases hopen with h | h <;>
      simp [validateTransition, h, transitions] at herror

/-- Returning to a session that hands off makes it active; any other is left alone. -/
theorem moves_return {task : Task} {parentId eventType : String} {parent : Session}
    (hkeys : ∀ id current, s.sessions.get? id = some current → current.id = id)
    (hreturning : task.returning? s = some parentId)
    (hparent : s.sessions.get? parentId = some parent) (hopening : task.opening? = none)
    (hclosing : task.closing? answers = none) :
    wlp (whenever (parent.state = .handingOff) do
        let _ ← transition parent .active eventType none none)
      (fun _ => Moves R answers s task []) (fun _ => Moves R answers s task []) s := by
  have hid := hkeys _ _ hparent
  refine wlp_whenever.mpr ⟨fun hstate => ?_, fun hstate => ?_⟩
  · refine wlp_bind.mpr <| (wlp_transition_of_mem (by simp [hstate, transitions])).mpr <|
      wlp_pure.mpr <| .returned hreturning hparent hstate ?_ ⟨rfl, rfl, rfl⟩
    change s.sessions.set parent.id _ = _
    rw [hid]
  · refine .idle hopening (fun id parent' h' hget => ?_) (by simp [hclosing]) (by simp) rfl
      ⟨rfl, rfl, rfl⟩
    rw [hreturning, Option.some.injEq] at h'
    subst h'
    rw [hparent, Option.some.injEq] at hget
    exact hget ▸ hstate

theorem moves_handoffFailed {parentId : String} {exc : Exn}
    (hkeys : ∀ id current, s.sessions.get? id = some current → current.id = id) :
    wlp (Task.lockedSection R answers (.handoffFailed parentId exc))
      (Moves R answers s (.handoffFailed parentId exc))
      (fun _ => Moves R answers s (.handoffFailed parentId exc) []) s := by
  refine wlp_bind.mpr <| wlp_bind.mpr <| wlp_session.mpr ⟨fun parent hparent => ?_, fun hnone => ?_⟩
  · exact wlp_mono (moves_return hkeys rfl hparent rfl rfl) (fun _ _ h' => wlp_throw.mpr h')
      fun _ _ h' => h'
  · refine .idle rfl (fun id parent h' hget => ?_) (by simp [Task.closing?]) (by simp) rfl
      ⟨rfl, rfl, rfl⟩
    cases h'
    simp [hnone] at hget

theorem moves_restoreParent {childId : String} {exc : Option Exn}
    (hkeys : ∀ id current, s.sessions.get? id = some current → current.id = id) :
    wlp (Task.lockedSection R answers (.restoreParent childId exc))
      (Moves R answers s (.restoreParent childId exc))
      (fun _ => Moves R answers s (.restoreParent childId exc) []) s := by
  have hfinish : ∀ s', Moves R answers s (.restoreParent childId exc) [] s' →
      wlp (Task.finish exc) (Moves R answers s (.restoreParent childId exc))
        (fun _ => Moves R answers s (.restoreParent childId exc) []) s' := fun s' h' => by
    unfold Task.finish
    cases exc with
    | none => exact wlp_pure.mpr h'
    | some exc => exact wlp_throw.mpr h'
  have hidle : (∀ parentId, Task.returning? s (.restoreParent childId exc) = some parentId →
      s.sessions.get? parentId = none) → Moves R answers s (.restoreParent childId exc) [] s :=
    fun hnone => .idle rfl (fun id parent h' hget => by simp [hnone id h'] at hget)
      (by simp [Task.closing?]) (by simp) rfl ⟨rfl, rfl, rfl⟩
  refine wlp_bind.mpr <| wlp_bind.mpr <| wlp_session.mpr ⟨fun child hchild => ?_, fun hnone =>
    hidle fun _ h' => by simp [Task.returning?, hnone] at h'⟩
  have hreturning : Task.returning? s (.restoreParent childId exc) =
      if child.returnToOrigin = true then child.parentSessionId else none := by
    simp [Task.returning?, hchild]
  split
  · rename_i parentId hreturn hparentId
    simp only [hreturn, if_true, hparentId] at hreturning
    refine wlp_bind.mpr <| wlp_get.mpr ?_
    cases hparent : s.sessions.get? parentId with
    | none =>
        refine wlp_pure.mpr <| hfinish _ <| hidle fun id h' => ?_
        rw [hreturning, Option.some.injEq] at h'
        exact h' ▸ hparent
    | some parent =>
        exact wlp_mono (moves_return hkeys hreturning hparent rfl rfl)
          (fun _ _ h' => hfinish _ h') fun _ _ h' => h'
  · rename_i hnot
    refine wlp_pure.mpr <| hfinish _ <| hidle fun id h' => ?_
    rw [hreturning] at h'
    cases hreturn : child.returnToOrigin with
    | true => exact absurd (by simpa [hreturn] using h') (hnot id hreturn)
    | false => simp [hreturn] at h'

/-! ## All sections -/

theorem moves_awaitTransfer {sessionId : String} {call : StreamCall}
    (hkeys : ∀ id current, s.sessions.get? id = some current → current.id = id) :
    wlp (Task.lockedSection R answers (.awaitTransfer sessionId call))
      (Moves R answers s (.awaitTransfer sessionId call))
      (fun _ => Moves R answers s (.awaitTransfer sessionId call) []) s := by
  simp only [Task.lockedSection]
  cases hreason : closingReason call answers.transfer with
  | some reason => exact moves_close hkeys (by simp [Task.closing?, hreason]) rfl rfl
  | none =>
      have hidle : Moves R answers s (.awaitTransfer sessionId call) [] s :=
        .idle rfl (by simp [Task.returning?]) (by simp [Task.closing?, hreason]) (by simp) rfl
          ⟨rfl, rfl, rfl⟩
      unfold Task.finish
      cases transferError call answers.transfer with
      | none => exact wlp_pure.mpr hidle
      | some exc => exact wlp_throw.mpr hidle

theorem moves_transfer {sessionId : String} {call : StreamCall} :
    wlp (Task.lockedSection R answers (.transfer sessionId call))
      (Moves R answers s (.transfer sessionId call))
      (fun _ => Moves R answers s (.transfer sessionId call) []) s := by
  have hidle : ∀ next, (∀ t ∈ next, ∃ sessionId call, t = .awaitTransfer sessionId call) →
      Moves R answers s (.transfer sessionId call) next s := fun next hnext =>
    .idle rfl (by simp [Task.returning?]) (by simp [Task.closing?]) hnext rfl ⟨rfl, rfl, rfl⟩
  refine wlp_bind.mpr <| wlp_bind.mpr <| wlp_session.mpr ⟨fun current _ => ?_, fun _ =>
    hidle [] (by simp)⟩
  exact wlp_whenever.mpr ⟨fun _ => wlp_throw.mpr (hidle [] (by simp)), fun _ => wlp_pure.mpr <|
    hidle _ fun t ht => ⟨sessionId, call, List.mem_singleton.mp ht⟩⟩

/-- Every section does one of the things on the list, whether it returns or raises. -/
theorem moves_of_lockedSection {task : Task}
    (hkeys : ∀ id current, s.sessions.get? id = some current → current.id = id)
    (hready : task.Ready s) (hfresh : task.Fresh answers s) :
    wlp (task.lockedSection R answers) (Moves R answers s task)
      (fun e => Moves R answers s task (task.afterError e)) s := by
  cases task with
  | openSession o => exact moves_openSession
  | authorize o => exact moves_authorize hready
  | acquire o =>
      obtain ⟨endpoint, hget⟩ := hready
      exact moves_acquire hget hfresh
  | connect o =>
      obtain ⟨endpoint, lifecycleId, hget⟩ := hready
      exact moves_connect hget
  | handoff parentId targetServiceId mode childId => exact moves_handoff rfl hkeys
  | handoffFailed parentId exc => exact moves_handoffFailed hkeys
  | closeSession sessionId reason => exact moves_close hkeys rfl rfl rfl
  | restoreParent childId exc => exact moves_restoreParent hkeys
  | transfer sessionId call => exact moves_transfer
  | awaitTransfer sessionId call => exact moves_awaitTransfer hkeys

end UltimateBBSBox.Router

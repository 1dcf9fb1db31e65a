import UltimateBBSBox.Router.Steps

/-!
# The journal of a run

Every change of a session's state is journalled, and nothing else is: the newest
event of a session names the state that it is in (`State.Logged`).  Sections
store sessions for other reasons too, and keep to this as long as the session
they store is in the state of the stored one (`State.Tracks`).
-/

namespace UltimateBBSBox.Router

open Act

variable {σ α : Type}

namespace State

variable (s : State σ)

/-- The state that the newest event of a session names. -/
def lastState (id : String) : Option SessionState :=
  (s.journal.find? fun event => event.sessionId = id).bind Event.newState

/-- Sessions are stored under their ids, in the state that their newest event names. -/
structure Logged : Prop where
  keys : ∀ id current, s.sessions.get? id = some current → current.id = id
  states : ∀ id, s.lastState id = (s.sessions.get? id).map Session.state

/-- The session is stored in the state that it is in here. -/
def Tracks (current : Session) : Prop :=
  (s.sessions.get? current.id).map Session.state = some current.state

variable {s} {s' : State σ} {current : Session}

theorem Logged.tracks {id : String} (h : s.Logged) (hget : s.sessions.get? id = some current) :
    s.Tracks current := by
  rw [Tracks, h.keys id current hget, hget, Option.map_some]

theorem Logged.congr (h : s.Logged) (hsessions : s'.sessions = s.sessions)
    (hjournal : s'.journal = s.journal) : s'.Logged := by
  constructor
  · rw [hsessions]
    exact h.keys
  · intro id
    rw [lastState, hsessions, hjournal]
    exact h.states id

theorem Tracks.congr (h : s.Tracks current) (hsessions : s'.sessions = s.sessions) :
    s'.Tracks current := by
  rw [Tracks, hsessions]
  exact h

/-- Storing a session in the state of the stored one changes no state. -/
theorem Logged.withSession (h : s.Logged) (current : Session) (htracks : s.Tracks current) :
    (s.withSession current).Logged ∧ (s.withSession current).Tracks current := by
  refine ⟨⟨fun id other hget => ?_, fun id => ?_⟩, ?_⟩
  · rw [State.withSession, Dict.get?_set] at hget
    split at hget
    · rename_i hid
      rw [← Option.some.inj hget, hid]
    · exact h.keys id other hget
  · change s.lastState id = ((s.sessions.set current.id current).get? id).map Session.state
    rw [h.states, Dict.get?_set]
    split
    · rename_i hid
      rw [hid, htracks, Option.map_some]
    · rfl
  · rw [Tracks, State.withSession, Dict.get?_set_self, Option.map_some]

/-- A new session, or a stored one in a new state, and the event that says so. -/
theorem Logged.record {event : Event} (h : s.Logged) (current : Session)
    (hid : event.sessionId = current.id)
    (hstate : event.newState = some current.state)
    (hsessions : s'.sessions = s.sessions.set current.id current)
    (hjournal : s'.journal = event :: s.journal) : s'.Logged ∧ s'.Tracks current := by
  refine ⟨⟨fun id other hget => ?_, fun id => ?_⟩, ?_⟩
  · rw [hsessions, Dict.get?_set] at hget
    split at hget
    · rename_i hkey
      rw [← Option.some.inj hget, hkey]
    · exact h.keys id other hget
  · rw [lastState, hsessions, hjournal, Dict.get?_set]
    by_cases hkey : id = current.id
    · rw [List.find?_cons_of_pos (by simp [hid, hkey]), if_pos hkey, Option.bind_some, hstate,
        Option.map_some]
    · rw [List.find?_cons_of_neg (by simp [hid, Ne.symm hkey]), if_neg hkey]
      exact h.states id
  · rw [Tracks, hsessions, Dict.get?_set_self, Option.map_some]

end State

/-! ## Primitives -/

section Primitives

variable {s : State σ} {current : Session}

theorem logged_transition {new : SessionState} {eventType : String} {reason : Option String}
    {error : Option Exn} (h : s.Logged) :
    wlp (transition current new eventType reason error)
      (fun moved s' => s'.Logged ∧ s'.Tracks moved ∧ moved = { current with state := new })
      (fun _ s' => s' = s) s := by
  refine wlp_transition.mpr ⟨fun _ => ?_, fun _ _ => rfl⟩
  obtain ⟨hlogged, htracks⟩ : (s.moved current new eventType reason error).Logged ∧
      (s.moved current new eventType reason error).Tracks { current with state := new } :=
    h.record { current with state := new } rfl rfl rfl rfl
  exact ⟨hlogged, htracks, rfl⟩

variable {R : Setup σ} {answers : Answers σ}

/-- A call of the supervisor concerns neither the sessions nor the journal. -/
theorem logged_callSupervisor {serviceId : String}
    {act : Supervisor.Context σ → Supervisor.Prog σ α} {P : State σ → Prop}
    (hP : ∀ s', s'.sessions = s.sessions → s'.journal = s.journal → P s') :
    wlp (callSupervisor R answers serviceId act) (fun _ => P) (fun _ => P) s := by
  unfold callSupervisor
  refine wlp_bind.mpr <| wlp_get.mpr ?_
  cases R.site.registry.find? serviceId with
  | none => exact wlp_bind.mpr <| wlp_modify.mpr <| wlp_throw.mpr <| hP _ rfl rfl
  | some service =>
      dsimp only
      split
      · trivial
      · refine wlp_bind.mpr <| wlp_modify.mpr <| wlp_ofExcept.mpr ?_
        exact ⟨fun _ _ => hP _ rfl rfl, fun _ _ => hP _ rfl rfl⟩

theorem logged_releaseHold (h : s.Logged) (htracks : s.Tracks current) :
    wlp (releaseHold R answers current)
      (fun released s' => s'.Logged ∧ s'.Tracks released ∧ released.state = current.state)
      (fun _ s' => s'.Logged ∧ s'.Tracks current) s := by
  unfold releaseHold
  split
  · exact wlp_pure.mpr ⟨h, htracks, rfl⟩
  · refine wlp_ite.mpr ⟨fun _ => wlp_pure.mpr ⟨h, htracks, rfl⟩, fun _ => ?_⟩
    refine wlp_bind.mpr <| wlp_record.mpr <| wlp_bind.mpr ?_
    refine wlp_mono (logged_callSupervisor (P := fun s' => s'.Logged ∧ s'.Tracks current)
      fun s' hsessions hjournal => ⟨h.congr hsessions hjournal, htracks.congr hsessions⟩)
      (fun _ s' h' => ?_) fun _ _ h' => h'
    obtain ⟨hlogged, htracks'⟩ := h'
    have hstored := hlogged.withSession { current with holdReleased := true } htracks'
    exact wlp_bind.mpr <| wlp_put.mpr <| wlp_pure.mpr ⟨hstored.1, hstored.2, rfl⟩

end Primitives
/-! ## Sections -/

/-- The sessions and the journal still agree afterwards, whether the section returns or raises. -/
def KeepsLog (act : Prog σ α) : Prop :=
  ∀ s : State σ, s.Logged → wlp act (fun _ => State.Logged) (fun _ => State.Logged) s

section Sections

variable {R : Setup σ} {answers : Answers σ}

theorem keepsLog_pure (a : α) : KeepsLog (pure a : Prog σ α) := fun _ h => wlp_pure.mpr h

theorem keepsLog_throw (e : Exn) : KeepsLog (throw e : Prog σ α) := fun _ h => wlp_throw.mpr h

theorem keepsLog_bind {β : Type} {act : Prog σ α} {f : α → Prog σ β} (hact : KeepsLog act)
    (hf : ∀ a, KeepsLog (f a)) : KeepsLog (act >>= f) := fun s h =>
  wlp_bind.mpr <| wlp_mono (hact s h) (fun a s' h' => hf a s' h') fun _ _ h' => h'

theorem keepsLog_tryCatch {act : Prog σ α} {handler : Exn → Prog σ α} (hact : KeepsLog act)
    (hhandler : ∀ e, KeepsLog (handler e)) : KeepsLog (tryCatch act handler) := fun s h =>
  wlp_tryCatch.mpr <| wlp_mono (hact s h) (fun _ _ h' => h') fun e s' h' => hhandler e s' h'

/-- A section that looks a session up and goes on from the stored one. -/
theorem keepsLog_session {sessionId : String} {f : Session → Prog σ α}
    (hf : ∀ (s : State σ) current, s.Logged → s.Tracks current →
      wlp (f current) (fun _ => State.Logged) (fun _ => State.Logged) s) :
    KeepsLog (session sessionId >>= f) := fun s h =>
  wlp_bind.mpr <| wlp_session.mpr
    ⟨fun current hget => hf s current h (h.tracks hget), fun _ => h⟩

/-- A section that ends in a transition. -/
theorem keepsLog_transition (current : Session) (new : SessionState) (eventType : String)
    (reason : Option String) (error : Option Exn) :
    KeepsLog (transition (σ := σ) current new eventType reason error) := fun s h =>
  wlp_mono (logged_transition h) (fun _ _ h' => h'.1) fun _ s' h' => by rwa [h']

theorem keepsLog_whenever {c : Prop} [Decidable c] {act : Prog σ Unit} (hact : KeepsLog act) :
    KeepsLog (whenever c act) := fun s h => wlp_whenever.mpr ⟨fun _ => hact s h, fun _ => h⟩

theorem keepsLog_register (o : Opening) : KeepsLog (register (σ := σ) o) := by
  intro s h
  refine wlp_bind.mpr <| wlp_get.mpr <| wlp_ite.mpr ⟨fun _ => wlp_throw.mpr h, fun _ => ?_⟩
  refine wlp_bind.mpr <| wlp_put.mpr <| wlp_modify.mpr ?_
  exact (h.record o.created rfl rfl rfl rfl).1

theorem keepsLog_openFailed (sessionId : String) (exc : Exn) :
    KeepsLog (openFailed (α := α) R answers sessionId exc) := by
  refine keepsLog_session fun s current h htracks => ?_
  refine wlp_bind.mpr <| wlp_mono (Q := fun _ s' => s'.Logged ∧ s'.Tracks current)
    (X := fun _ _ => False) ?_ (fun _ s₀ h₀ => ?_) fun _ _ h' => h'.elim
  · exact wlp_whenever.mpr ⟨fun _ => wlp_record.mpr ⟨h.congr rfl rfl, htracks.congr rfl⟩,
      fun _ => ⟨h, htracks⟩⟩
  · refine wlp_bind.mpr <| wlp_mono (logged_releaseHold h₀.1 h₀.2) (fun released s₁ h₁ => ?_)
      fun _ _ h₁ => h₁.1
    obtain ⟨hlogged, htracks₁, -⟩ := h₁
    refine wlp_ite.mpr ⟨fun _ => ?_, fun _ => ?_⟩
    · refine wlp_bind.mpr <| wlp_mono (logged_transition hlogged) (fun moved s₂ h₂ => ?_)
        fun _ s₂ h₂ => by rwa [h₂]
      refine wlp_bind.mpr <| wlp_put.mpr <| wlp_throw.mpr ?_
      exact (h₂.1.withSession { moved with terminationReason := some "open_failed" } h₂.2.1).1
    · refine wlp_bind.mpr <| wlp_pure.mpr <| wlp_bind.mpr <| wlp_put.mpr <| wlp_throw.mpr ?_
      exact (hlogged.withSession
        { released with terminationReason := some "open_failed" } htracks₁).1

theorem keepsLog_authorizing (o : Opening) : KeepsLog (authorizing R answers o) := by
  refine keepsLog_tryCatch (keepsLog_session fun s current h _ => ?_)
    fun e => keepsLog_openFailed _ e
  refine wlp_bind.mpr <| wlp_mono (logged_transition h) (fun moved s₁ h₁ => ?_)
    fun _ s' h' => by rwa [h']
  obtain ⟨hlogged, htracks, -⟩ := h₁
  refine wlp_bind.mpr <| wlp_mono validateOrigin_spec (fun _ s₂ h₂ => ?_) fun _ s₂ h₂ => by rwa [h₂]
  rw [h₂.1]
  refine wlp_bind.mpr <| wlp_ofExcept.mpr ⟨fun resolution _ => ?_, fun _ _ => hlogged⟩
  refine wlp_bind.mpr <| wlp_put.mpr ?_
  have hstored := hlogged.withSession { moved with endpoint := some resolution.endpoint } htracks
  exact keepsLog_bind (keepsLog_transition _ _ _ _ _) (fun _ => keepsLog_pure _) _ hstored.1

theorem keepsLog_acquiring (o : Opening) : KeepsLog (acquiring R answers o) := by
  refine keepsLog_tryCatch (keepsLog_session fun s current h htracks => ?_)
    fun e => keepsLog_openFailed _ e
  refine wlp_bind.mpr <| wlp_record.mpr <| wlp_bind.mpr ?_
  refine wlp_mono (logged_callSupervisor (P := fun s' => s'.Logged ∧ s'.Tracks current)
    fun s' hsessions hjournal => ⟨h.congr hsessions hjournal, htracks.congr hsessions⟩)
    (fun lifecycleId s₁ h₁ => ?_) fun _ _ h₁ => h₁.1
  refine wlp_bind.mpr <| wlp_record.mpr <| wlp_bind.mpr <| wlp_put.mpr ?_
  have hlogged : (s₁.withCall (.acquired current.targetService lifecycleId)).Logged :=
    h₁.1.congr rfl rfl
  have hstored := hlogged.withSession { current with lifecycleSessionId := some lifecycleId }
    (h₁.2.congr rfl)
  exact keepsLog_bind (keepsLog_transition _ _ _ _ _) (fun _ => keepsLog_pure _) _ hstored.1

/-- Connecting records a call, at most. -/
theorem logged_connect {s : State σ} (current : Session) {P : State σ → Prop}
    (hP : ∀ s' : State σ, s'.sessions = s.sessions → s'.journal = s.journal → P s') :
    wlp (connect R answers current) (fun _ => P) (fun _ => P) s := by
  have hresult : ∀ s' : State σ, s'.sessions = s.sessions → s'.journal = s.journal →
      wlp (Act.ofExcept answers.connect) (fun _ => P) (fun _ => P) s' := by
    intro s' hsessions hjournal
    exact wlp_ofExcept.mpr ⟨fun _ _ => hP s' hsessions hjournal, fun _ _ => hP s' hsessions hjournal⟩
  unfold connect
  refine wlp_ite.mpr ⟨fun _ => wlp_bind.mpr <| wlp_record.mpr <| hresult _ rfl rfl, fun _ => ?_⟩
  split
  · exact wlp_throw.mpr (hP s rfl rfl)
  · refine wlp_bind.mpr <| wlp_record.mpr <| wlp_ite.mpr ⟨fun _ => hresult _ rfl rfl, fun _ => ?_⟩
    exact wlp_throw.mpr (hP _ rfl rfl)

theorem keepsLog_connecting (o : Opening) : KeepsLog (connecting R answers o) := by
  refine keepsLog_tryCatch (keepsLog_session fun s current h htracks => ?_)
    fun e => keepsLog_openFailed _ e
  refine wlp_bind.mpr <| wlp_mono (logged_connect (P := fun s' => s'.Logged ∧ s'.Tracks current)
    current fun s' hsessions hjournal => ⟨h.congr hsessions hjournal, htracks.congr hsessions⟩)
    (fun stream s₁ h₁ => ?_) fun _ _ h₁ => h₁.1
  refine wlp_bind.mpr <| wlp_put.mpr ?_
  have hstored := h₁.1.withSession { current with stream := some stream } h₁.2
  exact keepsLog_bind (keepsLog_transition _ _ _ _ _) (fun _ => keepsLog_pure _) _ hstored.1

theorem keepsLog_closeSession (sessionId reason : String) :
    KeepsLog (closeSession R answers sessionId reason) := by
  refine keepsLog_session fun s current h _ => ?_
  refine wlp_ite.mpr ⟨fun _ => wlp_pure.mpr h, fun _ => ?_⟩
  refine wlp_bind.mpr <| wlp_mono (logged_transition h) (fun closing s₁ h₁ => ?_)
    fun _ s' h' => by rwa [h']
  obtain ⟨hlogged, htracks, -⟩ := h₁
  refine wlp_bind.mpr <| wlp_mono (Q := fun _ s' => s'.Logged ∧ s'.Tracks closing)
    (X := fun _ _ => False) ?_ (fun closeError s₂ h₂ => ?_) fun _ _ h' => h'.elim
  · refine wlp_ite.mpr ⟨fun _ => ?_, fun _ => wlp_pure.mpr ⟨hlogged, htracks⟩⟩
    exact wlp_bind.mpr <| wlp_record.mpr <| wlp_pure.mpr ⟨hlogged.congr rfl rfl, htracks.congr rfl⟩
  · refine wlp_bind.mpr <| wlp_mono (Q := fun released s' => s'.Logged ∧ s'.Tracks released.1)
      (X := fun _ _ => False) ?_ (fun released s₃ h₃ => ?_) fun _ _ h' => h'.elim
    · refine wlp_tryCatch.mpr <| wlp_bind.mpr <| wlp_mono (logged_releaseHold h₂.1 h₂.2) ?_ ?_
      · exact fun released s₃ h₃ => wlp_pure.mpr ⟨h₃.1, h₃.2.1⟩
      · exact fun exc s₃ h₃ => wlp_pure.mpr h₃
    · refine wlp_bind.mpr <| wlp_put.mpr ?_
      have hstored := fun reason => h₃.1.withSession
        { released.1 with terminationReason := some reason } h₃.2
      cases closeError.or released.2 with
      | none =>
          exact keepsLog_bind (keepsLog_transition _ _ _ _ _) (fun _ => keepsLog_pure _) _
            (hstored _).1
      | some exc =>
          exact keepsLog_bind (keepsLog_transition _ _ _ _ _) (fun _ => keepsLog_throw _) _
            (hstored _).1

theorem keepsLog_restoreParent (childId : String) : KeepsLog (restoreParent (σ := σ) childId) := by
  refine keepsLog_session fun s child h _ => ?_
  split
  · refine wlp_bind.mpr <| wlp_get.mpr ?_
    split
    · exact wlp_pure.mpr h
    · exact keepsLog_whenever
        (keepsLog_bind (keepsLog_transition _ _ _ _ _) fun _ => keepsLog_pure _) s h
  · exact wlp_pure.mpr h

theorem keepsLog_finish (exc : Option Exn) : KeepsLog (Task.finish (σ := σ) exc) := by
  cases exc with
  | none => exact keepsLog_pure _
  | some exc => exact keepsLog_throw exc

theorem keepsLog_close (sessionId reason : String) (exc : Option Exn) :
    KeepsLog (Task.close R answers sessionId reason exc) := by
  refine keepsLog_bind (keepsLog_closeSession _ _) fun restore => ?_
  cases restore with
  | true => exact keepsLog_pure _
  | false => exact keepsLog_finish exc

/-- **Every section keeps the journal in step with the sessions.** -/
theorem keepsLog_lockedSection (task : Task) : KeepsLog (task.lockedSection R answers) := by
  cases task with
  | openSession o => exact keepsLog_bind (keepsLog_register o) fun _ => keepsLog_pure _
  | authorize o => exact keepsLog_bind (keepsLog_authorizing o) fun _ => keepsLog_pure _
  | acquire o => exact keepsLog_bind (keepsLog_acquiring o) fun _ => keepsLog_pure _
  | connect o => exact keepsLog_bind (keepsLog_connecting o) fun _ => keepsLog_pure _
  | handoff parentId targetServiceId mode childId terminal callerMetadata =>
      refine keepsLog_bind (keepsLog_session fun s parent h _ => ?_) fun request => ?_
      · refine wlp_ite.mpr ⟨fun _ => wlp_throw.mpr h, fun _ => ?_⟩
        exact keepsLog_bind (keepsLog_transition _ _ _ _ _) (fun _ => keepsLog_pure _) s h
      · exact keepsLog_tryCatch (keepsLog_bind (keepsLog_register _) fun _ => keepsLog_pure _)
          fun _ => keepsLog_pure _
  | handoffFailed parentId exc =>
      refine keepsLog_bind (keepsLog_session fun s parent h _ => ?_) fun _ => keepsLog_throw exc
      exact keepsLog_whenever
        (keepsLog_bind (keepsLog_transition _ _ _ _ _) fun _ => keepsLog_pure _) s h
  | closeSession sessionId reason => exact keepsLog_close _ _ _
  | restoreParent childId exc =>
      exact keepsLog_bind (keepsLog_restoreParent childId) fun _ => keepsLog_finish exc
  | transfer sessionId call =>
      refine keepsLog_bind (keepsLog_session fun s current h _ => ?_) fun _ => keepsLog_pure _
      exact keepsLog_whenever (keepsLog_throw _) s h
  | awaitTransfer sessionId call =>
      simp only [Task.lockedSection]
      cases closingReason call answers.transfer with
      | none => exact keepsLog_finish _
      | some reason => exact keepsLog_close _ _ _

end Sections

/-! ## Runs -/

section Runs

variable {R : Setup σ} {w w' : World σ} {l : Label σ} {r : Except Exn Unit}

theorem logged_of_advance {answers : Answers σ} {task : Task} {rest : List Task}
    (h : w.state.Logged) (hstep : w.advance R answers task rest = some (r, w')) :
    w'.state.Logged := by
  have hkeeps : KeepsLog (task.lockedSection R answers) := keepsLog_lockedSection task
  unfold World.advance at hstep
  split at hstep
  · cases hstep
  · rename_i next s' hrun
    cases hstep
    exact wlp_ok (hkeeps w.state h) hrun
  · rename_i e s' hrun
    cases hstep
    exact wlp_error (hkeeps w.state h) hrun

theorem logged_of_step (h : w.state.Logged) (hstep : w.step R l = some (r, w')) :
    w'.state.Logged := by
  unfold World.step at hstep
  split at hstep
  · split at hstep
    · exact logged_of_advance h hstep
    · cases hstep
  · split at hstep
    · exact logged_of_advance h hstep
    · cases hstep
  · split at hstep
    · cases hstep
    · obtain ⟨result, _, heq⟩ := Option.map_eq_some_iff.mp hstep
      cases heq
      exact h.congr rfl rfl

/-- **The journal tells the states of the sessions**, in every world that a run reaches. -/
theorem logged_of_run {ok : World σ → Label σ → Prop}
    {supervisor : String → Supervisor.World σ}
    (hrun : Machine.Run (World.step R) ok (World.initial supervisor) w) : w.state.Logged := by
  refine hrun.invariant (P := fun u => u.state.Logged) ⟨fun id current hget => ?_, fun id => rfl⟩
    fun u l r u' hu _ hstep => logged_of_step hu hstep
  simp [World.initial] at hget

end Runs

end UltimateBBSBox.Router

import UltimateBBSBox.Router.Runs
import UltimateBBSBox.Supervisor.Callers

/-!
# What the router's sections do

Weakest preconditions of the router's primitives, and one specification for
each section: how it changes the sessions, what the supervisor then holds, and
which calls it makes.  The journal is left out of the specifications.
-/

namespace UltimateBBSBox.Router

open Act

variable {σ α : Type}

/-! ## Primitives -/

namespace State

variable (s : State σ)

/-- A session stored under its id. -/
def withSession (session : Session) : State σ :=
  { s with sessions := s.sessions.set session.id session }

/-- A call recorded. -/
def withCall (call : Call) : State σ := { s with calls := call :: s.calls }

/-- A cell of the supervisor replaced by a call, and what came of the call. -/
def withCell (serviceId : String) (cell : Supervisor.Cell σ) (cls : Option ErrorClass) :
    State σ :=
  { s with
    supervisor :=
      Function.update s.supervisor serviceId { s.supervisor serviceId with cell := cell }
    outcomes := cls :: s.outcomes }

/-- A session moved, and the line of the journal that says so. -/
def moved (session : Session) (new : SessionState) (eventType : String) (reason : Option String)
    (error : Option Exn) : State σ :=
  { s.withSession { session with state := new } with
    journal :=
      { sessionId := session.id
        targetService := session.targetService
        originService := session.originService
        eventType := eventType
        oldState := some session.state
        newState := some new
        endpointId := session.endpoint.map (·.id)
        terminationReason := reason
        error := error.map (·.cls) } :: s.journal }

end State

section Primitives

variable {Q : α → State σ → Prop} {X : Exn → State σ → Prop} {s : State σ}

@[simp] theorem wlp_put {current : Session} {Q : Unit → State σ → Prop} :
    wlp (put current) Q X s ↔ Q () (s.withSession current) := Iff.rfl

@[simp] theorem wlp_record {call : Call} {Q : Unit → State σ → Prop} :
    wlp (record call) Q X s ↔ Q () (s.withCall call) := Iff.rfl

theorem wlp_session {sessionId : String} {Q : Session → State σ → Prop} :
    wlp (session sessionId) Q X s ↔
      (∀ current, s.sessions.get? sessionId = some current → Q current s) ∧
      (s.sessions.get? sessionId = none →
        X ⟨.sessionNotFoundError, s!"unknown session: {sessionId}"⟩ s) := by
  unfold session
  simp only [wlp_bind, wlp_get]
  cases s.sessions.get? sessionId <;> simp

theorem wlp_session_of_some {sessionId : String} {Q : Session → State σ → Prop} {current : Session}
    (hget : s.sessions.get? sessionId = some current) :
    wlp (session sessionId) Q X s ↔ Q current s := by
  simp [wlp_session, hget]

theorem wlp_transition {current : Session} {new : SessionState} {eventType : String}
    {reason : Option String} {error : Option Exn} {Q : Session → State σ → Prop} :
    wlp (transition current new eventType reason error) Q X s ↔
      (new ∈ transitions current.state →
        Q { current with state := new } (s.moved current new eventType reason error)) ∧
      (∀ e, validateTransition current.state new = .error e → X e s) := by
  simp only [transition, wlp_bind, wlp_ofExcept, wlp_put, event, wlp_modify, wlp_pure]
  refine and_congr_left' ⟨fun h hmem => h () (validateTransition_eq_ok_iff.mpr hmem),
    fun h _ hok => h (validateTransition_eq_ok_iff.mp hok)⟩

/-- A transition along an edge of the graph. -/
theorem wlp_transition_of_mem {current : Session} {new : SessionState} {eventType : String}
    {reason : Option String} {error : Option Exn} {Q : Session → State σ → Prop}
    (hmem : new ∈ transitions current.state) :
    wlp (transition current new eventType reason error) Q X s ↔
      Q { current with state := new } (s.moved current new eventType reason error) := by
  rw [wlp_transition]
  refine ⟨fun h => h.1 hmem, fun h => ⟨fun _ => h, fun e he => ?_⟩⟩
  rw [validateTransition_eq_ok_iff.mpr hmem] at he
  cases he

variable {R : Setup σ} {answers : Answers σ}

/-- A call of the supervisor, for a service it knows. -/
theorem wlp_callSupervisor {service : Service}
    {act : Supervisor.Context σ → Supervisor.Prog σ α}
    (hservice : R.site.registry.find? service.id = some service) :
    wlp (callSupervisor R answers service.id act) Q X s ↔
      wlp (act (R.site.context service)) (fun a c => Q a (s.withCell service.id c none))
        (fun e c => X (.ofSupervisor e) (s.withCell service.id c (some (.supervisor e.cls))))
        ((s.supervisor service.id).cell.withEnv answers.env) := by
  unfold callSupervisor
  simp only [wlp_bind, wlp_get, hservice]
  conv_rhs => rw [wlp]
  cases (act (R.site.context service)).run
      ((s.supervisor service.id).cell.withEnv answers.env) with
  | none => simp
  | some result =>
      obtain ⟨result, c⟩ := result
      cases result <;>
        simp [wlp_ofExcept, Except.mapError, State.withCell, outcome, Exn.ofSupervisor]

end Primitives

/-! ## Giving the hold back -/

/-- The supervisor's entries, but for one. -/
def State.HeldExcept (s s' : State σ) (serviceId lifecycleId : String) (entry : Option DateTime) :
    Prop :=
  ∀ serviceId' lifecycleId', s'.held serviceId' lifecycleId' =
    if serviceId' = serviceId ∧ lifecycleId' = lifecycleId then entry
    else s.held serviceId' lifecycleId'

variable (R : Setup σ) (answers : Answers σ)

/-- The idle deadline that giving the session's hold back sets, if it sets one,
is a datetime. -/
def State.ReleaseFits (s : State σ) (current : Session) : Prop :=
  ∀ service ∈ R.site.registry.find? current.targetService,
    ∀ lifecycleId ∈ current.lifecycleSessionId,
      Supervisor.IdleFits (R.site.context service) lifecycleId
        ((s.supervisor current.targetService).cell.withEnv answers.env)

/-- What `_release_hold` comes to: whether it returns, and what the supervisor
holds afterwards. -/
inductive Cleaned (s s' : State σ) (current : Session) : Bool → Prop
  | nothing (hdone : current.lifecycleSessionId = none ∨ current.holdReleased = true)
      (hsupervisor : s'.supervisor = s.supervisor) (hreleases : s'.releases = s.releases) :
      Cleaned s s' current true
  | released {lifecycleId : String} (hlifecycle : current.lifecycleSessionId = some lifecycleId)
      (hdone : current.holdReleased = false)
      (hknown : s.held current.targetService lifecycleId ≠ none)
      (hheld : s.HeldExcept s' current.targetService lifecycleId none)
      (hreleases : s'.releases = (current.targetService, lifecycleId) :: s.releases) :
      Cleaned s s' current true
  | unknown {lifecycleId : String} (hlifecycle : current.lifecycleSessionId = some lifecycleId)
      (hdone : current.holdReleased = false)
      (hunknown : R.site.registry.find? current.targetService = none ∨
        s.held current.targetService lifecycleId = none)
      (hheld : ∀ serviceId lifecycleId, s'.held serviceId lifecycleId = s.held serviceId lifecycleId)
      (hreleases : s'.releases = (current.targetService, lifecycleId) :: s.releases) :
      Cleaned s s' current false
  | unfit {lifecycleId : String} (hlifecycle : current.lifecycleSessionId = some lifecycleId)
      (hdone : current.holdReleased = false)
      (hknown : s.held current.targetService lifecycleId ≠ none)
      (hunfit : ¬ s.ReleaseFits R answers current)
      (hheld : s.HeldExcept s' current.targetService lifecycleId none)
      (hreleases : s'.releases = (current.targetService, lifecycleId) :: s.releases) :
      Cleaned s s' current false

/-- The session after its hold was given back. -/
def Session.cleaned (current : Session) : Session :=
  { current with holdReleased := current.lifecycleSessionId.isSome || current.holdReleased }

/-- Which sessions were acquired, and for which the outside was called. -/
def State.outgoing (s : State σ) : List (String × String) × List String := (s.acquired, s.contacts)

section Cleaning

variable {R answers} {s : State σ} {current : Session}

theorem held_withCell {s : State σ} {serviceId : String} {cell : Supervisor.Cell σ}
    {cls : Option ErrorClass} (serviceId' lifecycleId : String) :
    (s.withCell serviceId cell cls).held serviceId' lifecycleId =
      if serviceId' = serviceId then cell.inst.sessions.get? lifecycleId
      else s.held serviceId' lifecycleId := by
  unfold State.held State.withCell
  by_cases hid : serviceId' = serviceId
  · simp [hid]
  · simp [hid, Function.update_of_ne]

/-- A cell whose session table changes at one key changes what is held at that key. -/
theorem heldExcept_withCell {s : State σ} {serviceId lifecycleId : String}
    {cell : Supervisor.Cell σ} {cls : Option ErrorClass} {entry : Option DateTime}
    (hcell : ∀ id, cell.inst.sessions.get? id =
      if id = lifecycleId then entry else s.held serviceId id) :
    s.HeldExcept (s.withCell serviceId cell cls) serviceId lifecycleId entry := by
  intro serviceId' id
  rw [held_withCell]
  by_cases hservice : serviceId' = serviceId
  · subst hservice
    simp [hcell]
  · simp [hservice]

theorem Session.cleaned_eq_self (h : current.lifecycleSessionId = none ∨ current.holdReleased = true) :
    current.cleaned = current := by
  cases current
  rcases h with h | h <;> simp_all [Session.cleaned]

/-- What the supervisor holds and which releases were called is all that counts. -/
theorem Cleaned.of_eq {s' s'' : State σ} {ok : Bool} (h : Cleaned R answers s s' current ok)
    (hsupervisor : s''.supervisor = s'.supervisor) (hcalls : s''.calls = s'.calls) :
    Cleaned R answers s s'' current ok := by
  have hheld : ∀ serviceId id, s''.held serviceId id = s'.held serviceId id := fun _ _ => by
    unfold State.held
    rw [hsupervisor]
  have hreleases : s''.releases = s'.releases := by
    unfold State.releases
    rw [hcalls]
  cases h with
  | nothing hdone hs hr => exact .nothing hdone (hsupervisor.trans hs) (hreleases.trans hr)
  | released hl hd hk hh hr =>
      exact .released hl hd hk (fun _ _ => (hheld _ _).trans (hh _ _)) (hreleases.trans hr)
  | unknown hl hd hu hh hr =>
      exact .unknown hl hd hu (fun _ _ => (hheld _ _).trans (hh _ _)) (hreleases.trans hr)
  | unfit hl hd hk hu hh hr =>
      exact .unfit hl hd hk hu (fun _ _ => (hheld _ _).trans (hh _ _)) (hreleases.trans hr)

/-- Calls of streams and connectors before the release do not count. -/
theorem Cleaned.from_eq {s₁ s' : State σ} {ok : Bool} (h : Cleaned R answers s₁ s' current ok)
    (hsupervisor : s₁.supervisor = s.supervisor) (hreleases : s₁.releases = s.releases) :
    Cleaned R answers s s' current ok := by
  have hheld : ∀ serviceId id, s₁.held serviceId id = s.held serviceId id := fun _ _ => by
    unfold State.held
    rw [hsupervisor]
  have hexcept : ∀ {serviceId id entry}, s₁.HeldExcept s' serviceId id entry →
      s.HeldExcept s' serviceId id entry := fun h serviceId' id' => by rw [h, hheld]
  cases h with
  | nothing hdone hs hr => exact .nothing hdone (hs.trans hsupervisor) (hr.trans hreleases)
  | released hl hd hk hh hr =>
      exact .released hl hd (hheld _ _ ▸ hk) (hexcept hh) (hreleases ▸ hr)
  | unknown hl hd hu hh hr =>
      exact .unknown hl hd (hu.imp_right fun hu => hheld _ _ ▸ hu)
        (fun _ _ => (hh _ _).trans (hheld _ _)) (hreleases ▸ hr)
  | unfit hl hd hk hu hh hr =>
      refine .unfit hl hd (hheld _ _ ▸ hk) (fun hfits => hu ?_) (hexcept hh) (hreleases ▸ hr)
      unfold State.ReleaseFits at hfits ⊢
      rwa [hsupervisor]

/-- The state of the session does not matter. -/
theorem Cleaned.of_state {s' : State σ} {ok : Bool} {state : SessionState}
    (h : Cleaned R answers s s' { current with state := state } ok) :
    Cleaned R answers s s' current ok := by
  cases h with
  | nothing hdone hs hr => exact .nothing hdone hs hr
  | released hl hd hk hh hr => exact .released hl hd hk hh hr
  | unknown hl hd hu hh hr => exact .unknown hl hd hu hh hr
  | unfit hl hd hk hu hh hr => exact .unfit hl hd hk hu hh hr

theorem releaseHold_spec :
    wlp (releaseHold R answers current)
      (fun released s' => released = current.cleaned ∧ Cleaned R answers s s' current true ∧
        s'.outgoing = s.outgoing ∧
        ∀ session, s'.sessions.set current.id session = s.sessions.set current.id session)
      (fun _ s' => Cleaned R answers s s' current false ∧ s'.outgoing = s.outgoing ∧
        s'.sessions = s.sessions) s := by
  unfold releaseHold
  cases hlifecycle : current.lifecycleSessionId with
  | none =>
      exact wlp_pure.mpr ⟨(Session.cleaned_eq_self (.inl hlifecycle)).symm,
        .nothing (.inl hlifecycle) rfl rfl, rfl, fun _ => rfl⟩
  | some lifecycleId =>
      refine wlp_ite.mpr ⟨fun hdone => wlp_pure.mpr
        ⟨(Session.cleaned_eq_self (.inr hdone)).symm, .nothing (.inr hdone) rfl rfl, rfl,
          fun _ => rfl⟩, fun hdone => ?_⟩
      have hdone : current.holdReleased = false := by simpa using hdone
      refine wlp_bind.mpr <| wlp_record.mpr <| wlp_bind.mpr ?_
      cases hservice : R.site.registry.find? current.targetService with
      | none =>
          simp only [callSupervisor, wlp_bind, wlp_get, hservice, wlp_modify, wlp_throw]
          exact ⟨.unknown hlifecycle hdone (.inl hservice) (fun _ _ => rfl) rfl, rfl, rfl⟩
      | some service =>
          obtain ⟨_, hid⟩ := Registry.mem_services_of_find? hservice
          rw [← hid] at hservice ⊢
          refine (wlp_callSupervisor hservice).mpr ?_
          rw [hid] at hservice ⊢
          -- the entry of the session is gone, whether the call returns or raises
          have hexcept : ∀ (c' : Supervisor.Cell σ) (cls : Option ErrorClass), c'.inst.sessions =
              (((s.withCall (.release current.targetService lifecycleId)).supervisor
                current.targetService).cell.withEnv answers.env).inst.sessions.pop lifecycleId →
              s.HeldExcept ((s.withCall (.release current.targetService lifecycleId)).withCell
                current.targetService c' cls) current.targetService lifecycleId none :=
            fun c' cls h' =>
            heldExcept_withCell (s := s.withCall (.release current.targetService lifecycleId))
              fun id => by rw [h', Dict.get?_pop]; rfl
          refine wlp_mono (Supervisor.releaseSession_spec lifecycleId _) (fun _ c' h' => ?_)
            fun _ c' h' => ?_
          · refine wlp_bind.mpr <| wlp_put.mpr <| wlp_pure.mpr
              ⟨by simp [Session.cleaned, hlifecycle],
                .released hlifecycle hdone h'.1 (hexcept c' none h'.2) rfl, rfl, fun _ => ?_⟩
            exact Dict.set_set _ _ _ _
          · rcases h' with ⟨hunknown, rfl⟩ | ⟨hknown, hunfit, hsessions⟩
            · refine ⟨.unknown hlifecycle hdone (.inr hunknown) (fun serviceId id => ?_) rfl, rfl, rfl⟩
              rw [held_withCell]
              split
              · rename_i heq
                rw [heq]
                rfl
              · rfl
            · refine ⟨.unfit hlifecycle hdone hknown (fun hfits => hunfit ?_)
                (hexcept c' _ hsessions) rfl, rfl, rfl⟩
              exact hfits service hservice lifecycleId hlifecycle

end Cleaning

end UltimateBBSBox.Router

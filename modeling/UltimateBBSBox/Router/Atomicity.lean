import UltimateBBSBox.Router.Returning

/-!
# A handoff happens entirely or not at all

A handoff is a chain of sections: it marks the parent, opens the child, and then
closes the parent or, if the child did not open, makes it active again.  Other
operations and the supervisor take their steps between any two of them.  What
has to go well for the handoff to be all or nothing is what it does to clean up:
giving back the hold of a child whose connection failed, and closing the parent
that it replaces.
-/

namespace UltimateBBSBox.Router

open Act

variable {σ : Type}

/-! ## Sessions that have come up or failed -/

namespace SessionState

/-- Up, closed or failed. -/
def Settled (state : SessionState) : Prop := state ∈ [active, handingOff, closed, failed]

/-- Closed or failed. -/
def Over (state : SessionState) : Prop := state ∈ [closed, failed]

theorem not_coming_of_settled {state : SessionState} (h : state.Settled) : ¬ state.Coming := by
  cases state <;> simp [Settled, Coming] at h ⊢

theorem Over.settled {state : SessionState} (h : state.Over) : state.Settled := by
  cases state <;> simp [Settled, Over] at h ⊢

end SessionState

/-- The session keeps its stream, and what has ended or was given back stays so. -/
structure Session.Later (current current' : Session) : Prop where
  settled : current'.state.Settled
  stream : current'.stream = current.stream
  ended : current.state.Over → current'.state.Over
  closed : current.state = .closed → current'.state = .closed
  lifecycle : current'.lifecycleSessionId = current.lifecycleSessionId
  given : current.holdReleased = true → current'.holdReleased = true

namespace Session.Later

variable {current : Session}

theorem refl (h : current.state.Settled) : current.Later current :=
  ⟨h, rfl, fun h => h, fun h => h, rfl, fun h => h⟩

/-- From one open state to the other. -/
theorem of_open {state : SessionState} (hopen : current.state.Open) (hstate : state.Open) :
    current.Later { current with state := state } := by
  have hnot : ¬ current.state.Over := by
    simp only [SessionState.Open, List.mem_cons, List.not_mem_nil, or_false] at hopen
    rcases hopen with h | h <;> simp [SessionState.Over, h]
  refine ⟨?_, rfl, fun h => absurd h hnot, fun h => absurd (by simp [SessionState.Over, h]) hnot, rfl,
    fun h => h⟩
  simp only [SessionState.Open, List.mem_cons, List.not_mem_nil, or_false] at hstate
  rcases hstate with rfl | rfl <;> simp [SessionState.Settled]

/-- Closed, or failed on the way there. -/
theorem of_ended {current' : Session} {state : SessionState} (reason : String) (hover : state.Over)
    (hclosed : current.state = .closed → state = .closed)
    (hcurrent : current' = current ∨ current' = current.cleaned) :
    current.Later (current'.ended state reason) := by
  rcases hcurrent with rfl | rfl
  · exact ⟨hover.settled, rfl, fun _ => hover, hclosed, rfl, fun h => h⟩
  · refine ⟨hover.settled, rfl, fun _ => hover, hclosed, rfl, fun h => ?_⟩
    simp [Session.ended, Session.cleaned, h]

end Session.Later

namespace Moves

variable {R : Setup σ} {answers : Answers σ} {s s' : State σ} {task : Task} {next : List Task}

/-- A session that has come up or failed is not opened again. -/
theorem later (h : Moves R answers s task next s') (hready : task.Ready s) {id : String}
    {current : Session} (hget : s.sessions.get? id = some current) (hsettled : current.state.Settled) :
    ∃ current', s'.sessions.get? id = some current' ∧ current.Later current' := by
  cases h.change hget with
  | kept hget' => exact ⟨current, hget', .refl hsettled⟩
  | opened hopening =>
      obtain ⟨current', hget', hcoming⟩ := World.coming_of_ready hready hopening
      rw [hget, Option.some.injEq] at hget'
      exact absurd (hget' ▸ hcoming) (SessionState.not_coming_of_settled hsettled)
  | handedOff hstate hget' =>
      exact ⟨_, hget', .of_open (by simp [SessionState.Open, hstate]) (by simp [SessionState.Open])⟩
  | returned hstate _ hget' =>
      exact ⟨_, hget', .of_open (by simp [SessionState.Open, hstate]) (by simp [SessionState.Open])⟩
  | closed reason' _ _ hget' =>
      exact ⟨_, hget', .of_ended reason' (by simp [SessionState.Over]) (fun _ => rfl) (.inr rfl)⟩
  | closeFailed reason' _ hstate hcurrent hget' =>
      refine ⟨_, hget', .of_ended reason' (by simp [SessionState.Over]) (fun hclosed => ?_) hcurrent⟩
      simp [hclosed, SessionState.Open] at hstate

end Moves

/-- So does every step. -/
theorem World.Steps.later {R : Setup σ} {w w' : World σ} {l : Label σ} {r : Except Exn Unit}
    (h : World.Steps R l w r w') (hw : w.WellFormed) {id : String} {current : Session}
    (hget : w.state.sessions.get? id = some current) (hsettled : current.state.Settled) :
    ∃ current', w'.state.sessions.get? id = some current' ∧ current.Later current' := by
  cases h with
  | supervised => exact ⟨current, hget, .refl hsettled⟩
  | moved _ hbegun hperm hmoves =>
      have hready := (World.mem_tasks_of_perm hbegun hperm List.mem_cons_self).elim
        World.ready_of_entry (hw.ready _)
      exact hmoves.later hready hget hsettled

/-! ## What a handoff leaves behind -/

namespace State

variable (s : State σ) (id : String)

/-- The session has ended with no stream and no hold. -/
def LeavesNothing : Prop :=
  ∃ child, s.sessions.get? id = some child ∧ child.state.Over ∧ child.stream = none ∧
    (child.lifecycleSessionId ≠ none → child.holdReleased = true)

/-- The session has come up or failed. -/
def IsSettled : Prop := ∃ current, s.sessions.get? id = some current ∧ current.state.Settled

/-- The session has come up. -/
def HasConnected : Prop :=
  ∃ child, s.sessions.get? id = some child ∧ child.state.Settled ∧ child.stream ≠ none

/-- The session is closed. -/
def IsClosed : Prop := ∃ current, s.sessions.get? id = some current ∧ current.state = .closed

variable {s id} {s' : State σ}

/-- Every settled session of the first state is a later one in the second. -/
def Follows (s s' : State σ) : Prop :=
  ∀ id current, s.sessions.get? id = some current → current.state.Settled →
    ∃ current', s'.sessions.get? id = some current' ∧ current.Later current'

theorem LeavesNothing.of_follows (h : s.LeavesNothing id) (hfollows : s.Follows s') :
    s'.LeavesNothing id := by
  obtain ⟨child, hget, hover, hstream, hgiven⟩ := h
  obtain ⟨child', hget', hlater⟩ := hfollows id child hget hover.settled
  refine ⟨child', hget', hlater.ended hover, hlater.stream.trans hstream, fun hsome => ?_⟩
  exact hlater.given (hgiven (hlater.lifecycle ▸ hsome))

theorem IsSettled.of_follows (h : s.IsSettled id) (hfollows : s.Follows s') : s'.IsSettled id := by
  obtain ⟨current, hget, hsettled⟩ := h
  obtain ⟨current', hget', hlater⟩ := hfollows id current hget hsettled
  exact ⟨current', hget', hlater.settled⟩

theorem HasConnected.of_follows (h : s.HasConnected id) (hfollows : s.Follows s') :
    s'.HasConnected id := by
  obtain ⟨child, hget, hsettled, hstream⟩ := h
  obtain ⟨child', hget', hlater⟩ := hfollows id child hget hsettled
  exact ⟨child', hget', hlater.settled, hlater.stream ▸ hstream⟩

theorem HasConnected.of_set {child : Session} {stream : Stream}
    (h : s'.sessions = s.sessions.set id { child with state := .active, stream := some stream }) :
    s'.HasConnected id :=
  ⟨_, h ▸ Dict.get?_set_self _ _ _, by simp [SessionState.Settled], by simp⟩

theorem IsClosed.of_follows (h : s.IsClosed id) (hfollows : s.Follows s') : s'.IsClosed id := by
  obtain ⟨current, hget, hclosed⟩ := h
  obtain ⟨current', hget', hlater⟩ :=
    hfollows id current hget (by simp [SessionState.Settled, hclosed])
  exact ⟨current', hget', hlater.closed hclosed⟩

end State

/-- What holds when a handoff is over: if it raised, the child has ended with nothing left of it,
and the parent, if it is still open, is active; if it returned, the child is active, or the child
has come up and the parent that it replaces is closed. -/
def AllOrNothing (parentId childId : String) (mode : HandoffMode) (result : Except Exn Unit)
    (s : State σ) : Prop :=
  match result, mode with
  | .error _, _ => s.LeavesNothing childId ∧
      ∀ parent, s.sessions.get? parentId = some parent → parent.state.Open → parent.state = .active
  | .ok _, .returnToOrigin =>
      ∃ child, s.sessions.get? childId = some child ∧ child.state = .active
  | .ok _, .replace => s.HasConnected childId ∧ s.IsClosed parentId

/-! ## Sections that clean up -/

section Sections

variable {R : Setup σ} {answers : Answers σ} {s : State σ}

/-- What the section does to clean up succeeds: a child whose connection failed gives its hold
back, and a session that is closed closes. -/
def Task.CleansUp (R : Setup σ) (answers : Answers σ) (s : State σ) : Task → Prop
  | .connect o => ∀ child ∈ s.sessions.get? o.sessionId,
      ¬ Connects R answers child → s.Closes R answers child
  | .closeSession sessionId _ => ∀ current ∈ s.sessions.get? sessionId, s.Closes R answers current
  | _ => True

/-- Giving the hold back does not raise. -/
theorem State.Closes.not_cleaned_false {s₀ s' : State σ} {current : Session}
    (h : s.Closes R answers current) (hsame : s₀.supervisor = s.supervisor) :
    ¬ Cleaned R answers s₀ s' current false := by
  have hheld : ∀ serviceId lifecycleId, s₀.held serviceId lifecycleId = s.held serviceId lifecycleId :=
    fun _ _ => by rw [State.held, hsame]; rfl
  intro hcleaned
  cases hcleaned with
  | unknown hlifecycle hdone hunknown =>
      obtain ⟨hservice, hknown, _⟩ := h.2 _ hlifecycle hdone
      rcases hunknown with hunknown | hunknown
      · exact hservice hunknown
      · exact hknown (hheld _ _ ▸ hunknown)
  | unfit hlifecycle hdone _ hunfit =>
      obtain ⟨_, _, hfits⟩ := h.2 _ hlifecycle hdone
      refine hunfit ?_
      unfold State.ReleaseFits at hfits ⊢
      rwa [hsame]

/-- Closing a settled session, if its clean-up succeeds, leaves it closed. -/
theorem closeSession_of_closes {sessionId reason : String} {current : Session}
    (hkeys : ∀ id current, s.sessions.get? id = some current → current.id = id)
    (hget : s.sessions.get? sessionId = some current)
    (hsettled : current.state.Settled) (hcloses : s.Closes R answers current) :
    wlp (closeSession R answers sessionId reason) (fun _ s' => s'.IsClosed sessionId)
      (fun _ _ => False) s := by
  have hid := hkeys _ _ hget
  refine wlp_bind.mpr <| (wlp_session_of_some hget).mpr <| wlp_ite.mpr ⟨fun hdone => ?_, fun hnot => ?_⟩
  · refine wlp_pure.mpr ⟨current, hget, ?_⟩
    cases h : current.state <;> simp [SessionState.Settled, h] at hsettled hdone ⊢
  have hclosing : SessionState.closing ∈ transitions current.state := by
    cases h : current.state <;> simp [SessionState.Settled, transitions, h] at hsettled hnot ⊢
  refine wlp_bind.mpr <| (wlp_transition_of_mem hclosing).mpr ?_
  refine wlp_bind.mpr <| wlp_mono closeStream_spec (fun closeError s₂ h₂ => ?_) fun _ _ h => h.elim
  obtain ⟨herror, -, hquiet⟩ := h₂
  obtain rfl : closeError = none := by
    by_contra hsome
    obtain ⟨hstream, hraised⟩ := herror hsome
    exact hcloses.1.elim hstream hraised
  refine wlp_bind.mpr <| wlp_mono (Q := fun released _ => released.1.id = sessionId ∧
    released.1.state = .closing ∧ released.2 = none) (X := fun _ _ => False) ?_
    (fun released s₃ h₃ => ?_) fun _ _ h => h.elim
  · refine wlp_tryCatch.mpr <| wlp_bind.mpr <| wlp_mono releaseHold_spec
      (fun released s₃ h₃ => wlp_pure.mpr ⟨by rw [h₃.1]; exact hid, by rw [h₃.1]; rfl, rfl⟩)
      fun exc s₃ h₃ => ?_
    exact absurd h₃.1.of_state (hcloses.not_cleaned_false hquiet.1)
  · obtain ⟨hreleasedId, hstate, hnone⟩ := h₃
    refine wlp_bind.mpr <| wlp_put.mpr ?_
    rw [hnone]
    refine wlp_bind.mpr <| (wlp_transition_of_mem (by simp [hstate, transitions])).mpr <|
      wlp_pure.mpr ?_
    rw [← hreleasedId]
    exact ⟨_, Dict.get?_set_self _ _ _, rfl⟩

/-- Restoring the parent of a session that is stored does not raise. -/
theorem restoreParent_returns {childId : String} {child : Session}
    (hget : s.sessions.get? childId = some child) :
    wlp (Task.lockedSection R answers (.restoreParent childId none)) (fun next _ => next = [])
      (fun _ _ => False) s := by
  refine wlp_bind.mpr <| wlp_bind.mpr <| (wlp_session_of_some hget).mpr ?_
  split
  · refine wlp_bind.mpr <| wlp_get.mpr ?_
    split
    · exact wlp_pure.mpr <| wlp_pure.mpr rfl
    · refine wlp_whenever.mpr ⟨fun hstate => ?_, fun _ => wlp_pure.mpr rfl⟩
      exact wlp_bind.mpr <| (wlp_transition_of_mem (by simp [hstate, transitions])).mpr <|
        wlp_pure.mpr <| wlp_pure.mpr rfl
  · exact wlp_pure.mpr <| wlp_pure.mpr rfl

/-- After a failed handoff the parent is active or not open, and the exception is raised again. -/
theorem handoffFailed_raises {parentId : String} {exc : Exn}
    (hkeys : ∀ id current, s.sessions.get? id = some current → current.id = id) :
    wlp (Task.lockedSection R answers (.handoffFailed parentId exc)) (fun _ _ => False)
      (fun _ s' => ∀ parent, s'.sessions.get? parentId = some parent → parent.state.Open →
        parent.state = .active) s := by
  refine wlp_bind.mpr <| wlp_bind.mpr <| wlp_session.mpr ⟨fun parent hparent => ?_, fun hnone => ?_⟩
  · have hid := hkeys _ _ hparent
    refine wlp_whenever.mpr ⟨fun hstate => ?_, fun hstate => wlp_throw.mpr fun parent' hget hopen => ?_⟩
    · refine wlp_bind.mpr <| (wlp_transition_of_mem (by simp [hstate, transitions])).mpr <|
        wlp_pure.mpr <| wlp_throw.mpr fun parent' hget _ => ?_
      change (s.sessions.set parent.id _).get? parentId = some parent' at hget
      rw [hid, Dict.get?_set_self, Option.some.injEq] at hget
      rw [← hget]
    · rw [hparent, Option.some.injEq] at hget
      subst hget
      simp only [SessionState.Open, List.mem_cons, List.not_mem_nil, or_false] at hopen
      exact hopen.resolve_right hstate
  · intro parent hget
    rw [hnone] at hget
    cases hget

end Sections

/-! ## Where a handoff is -/

section Phases

variable (parentId childId : String) (mode : HandoffMode)

/-- What holds while the task is the next section of the handoff. -/
def Phase (s : State σ) : Task → Prop
  | .authorize o | .acquire o | .connect o =>
      o.byHandoff = true ∧ o.parentSessionId = some parentId ∧ o.handoffMode = some mode ∧
        o.sessionId = childId
  | .handoffFailed id _ => id = parentId ∧ s.LeavesNothing childId
  | .closeSession id _ => id = parentId ∧ mode = .replace ∧ s.HasConnected childId
  | .restoreParent id exc =>
      id = parentId ∧ exc = none ∧ mode = .replace ∧ s.HasConnected childId ∧ s.IsClosed parentId
  | _ => False

/-- What holds once a section of the handoff has run: it is over, or it goes on. -/
def Goes (next : List Task) (result : Except Exn Unit) (s : State σ) : Prop :=
  (next = [] → AllOrNothing parentId childId mode result s) ∧
    ∀ t ∈ next, Phase parentId childId mode s t

variable {parentId childId mode} {R : Setup σ} {answers : Answers σ} {s s' : State σ}

theorem Phase.of_follows {task : Task} (h : Phase parentId childId mode s task)
    (hfollows : s.Follows s') : Phase parentId childId mode s' task := by
  cases task with
  | authorize | acquire | connect => exact h
  | handoffFailed => exact ⟨h.1, h.2.of_follows hfollows⟩
  | closeSession => exact ⟨h.1, h.2.1, h.2.2.of_follows hfollows⟩
  | restoreParent =>
      obtain ⟨hid, hexc, hmode, hconnected, hclosed⟩ := h
      exact ⟨hid, hexc, hmode, hconnected.of_follows hfollows, hclosed.of_follows hfollows⟩
  | _ => exact False.elim h

theorem Goes.single {task : Task} {result : Except Exn Unit}
    (h : Phase parentId childId mode s task) :
    Goes parentId childId mode [task] result s := by
  refine ⟨fun hnil => absurd hnil (by simp), fun t ht => ?_⟩
  obtain rfl := List.mem_singleton.mp ht
  exact h

theorem Goes.none {result : Except Exn Unit} (h : AllOrNothing parentId childId mode result s) :
    Goes parentId childId mode [] result s :=
  ⟨fun _ => h, fun t ht => by cases ht⟩

/-- Opening the child failed and nothing of it is left. -/
theorem goes_of_failed {o : Opening} {e : Exn} (hhandoff : o.byHandoff = true)
    (hparentId : o.parentSessionId = some parentId) (hleaves : s'.LeavesNothing childId)
    (result : Except Exn Unit) :
    Goes parentId childId mode (Task.afterOpenError o e) result s' := by
  unfold Task.afterOpenError
  rw [hhandoff, hparentId]
  exact .single ⟨rfl, hleaves⟩

/-- The sections that open the child. -/
theorem goes_of_opening {task : Task} {next : List Task} {result : Except Exn Unit}
    (hmoves : Moves R answers s task next s') (hopening : task.opening? ≠ none)
    (hphase : Phase parentId childId mode s task) (hcleans : task.CleansUp R answers s)
    (hraised : ∀ e, result = .error e → next = task.afterError e) :
    Goes parentId childId mode next result s' := by
  cases hmoves with
  | registered | handedOff | rejected => exact absurd rfl hopening
  | authorized | acquired => exact .single hphase
  | denied hget hset =>
      obtain ⟨hhandoff, hparentId, -, rfl⟩ := hphase
      exact goes_of_failed hhandoff hparentId ⟨_, by rw [hset]; exact Dict.get?_set_self _ _ _,
        by simp [SessionState.Over, Opening.failed], rfl, fun h => absurd rfl h⟩ _
  | notAcquired hget hset =>
      obtain ⟨hhandoff, hparentId, -, rfl⟩ := hphase
      exact goes_of_failed hhandoff hparentId ⟨_, by rw [hset]; exact Dict.get?_set_self _ _ _,
        by simp [SessionState.Over, Opening.failed], rfl, fun h => absurd rfl h⟩ _
  | connected stream hget hset =>
      obtain ⟨hhandoff, hparentId, hmode, rfl⟩ := hphase
      cases mode with
      | replace =>
          unfold Task.afterConnect
          rw [hhandoff, hparentId, hmode]
          exact .single ⟨rfl, rfl, .of_set hset⟩
      | returnToOrigin =>
          unfold Task.afterConnect at hraised ⊢
          rw [hhandoff, hparentId, hmode] at hraised ⊢
          refine .none ?_
          cases result with
          | error e =>
              have hafter := hraised e rfl
              simp [Task.afterError, Task.afterOpenError, hhandoff, hparentId] at hafter
          | ok =>
              exact ⟨_, hset ▸ Dict.get?_set_self _ _ _, rfl⟩
  | notConnected hget _ hset =>
      obtain ⟨hhandoff, hparentId, -, rfl⟩ := hphase
      refine goes_of_failed hhandoff hparentId ⟨_, by rw [hset]; exact Dict.get?_set_self _ _ _,
        by simp [SessionState.Over, Session.ended], rfl, fun _ => ?_⟩ _
      simp [Session.ended, Session.cleaned, Opening.connecting]
  | stuck hget hnot _ hcleaned =>
      exact absurd hcleaned ((hcleans _ hget hnot).not_cleaned_false rfl)
  | returned hreturning => cases task <;> first | exact absurd rfl hopening | cases hreturning
  | closed _ hclosing => cases task <;> first | exact absurd rfl hopening | cases hclosing
  | closeFailed _ hclosing => cases task <;> first | exact absurd rfl hopening | cases hclosing
  | idle hnone => exact absurd hnone hopening

/-- Every section of a handoff ends it, all or nothing, or leads to the next. -/
theorem goes_of_section {task : Task}
    (hkeys : ∀ id current, s.sessions.get? id = some current → current.id = id)
    (hready : task.Ready s) (hfresh : task.Fresh answers s) (hparent : s.IsSettled parentId)
    (hphase : Phase parentId childId mode s task) (hcleans : task.CleansUp R answers s) :
    wlp (task.lockedSection R answers)
      (fun next s' => s.Follows s' ∧ Goes parentId childId mode next (.ok ()) s')
      (fun e s' => s.Follows s' ∧
        Goes parentId childId mode (task.afterError e) (.error e) s') s := by
  have hmoves := moves_of_lockedSection (R := R) hkeys hready hfresh
  have hfollows : ∀ {next : List Task} {s' : State σ}, Moves R answers s task next s' → s.Follows s' :=
    fun hmoves _ _ hget hsettled => hmoves.later hready hget hsettled
  have hopened : task.opening? ≠ none → wlp (task.lockedSection R answers)
      (fun next s' => s.Follows s' ∧ Goes parentId childId mode next (.ok ()) s')
      (fun e s' => s.Follows s' ∧
        Goes parentId childId mode (task.afterError e) (.error e) s') s := fun hopening =>
    wlp_mono hmoves (fun _ _ h => ⟨hfollows h, goes_of_opening h hopening hphase hcleans (by simp)⟩)
      fun e _ h => ⟨hfollows h, goes_of_opening h hopening hphase hcleans fun e' heq => by cases heq; rfl⟩
  cases task with
  | authorize | acquire | connect => exact hopened (by simp [Task.opening?])
  | handoffFailed id exc =>
      obtain ⟨rfl, hleaves⟩ := hphase
      refine wlp_mono (wlp_and hmoves (handoffFailed_raises hkeys)) (fun _ _ h => h.2.elim)
        fun e s' h => ⟨hfollows h.1, .none ⟨hleaves.of_follows (hfollows h.1), h.2⟩⟩
  | closeSession id reason =>
      obtain ⟨rfl, hmode, hconnected⟩ := hphase
      obtain ⟨current, hget, hsettled⟩ := hparent
      have hclose : wlp (Task.lockedSection R answers (.closeSession id reason))
          (fun next s' => s'.IsClosed id ∧ ∀ t ∈ next, t = .restoreParent id none) (fun _ _ => False) s := by
        refine wlp_bind.mpr <| wlp_mono (closeSession_of_closes hkeys hget hsettled (hcleans _ hget))
          (fun restores s' h => ?_) fun _ _ h => h
        exact wlp_ite.mpr ⟨fun _ => wlp_pure.mpr ⟨h, fun t ht => List.mem_singleton.mp ht⟩,
          fun _ => wlp_pure.mpr ⟨h, fun t ht => by cases ht⟩⟩
      refine wlp_mono (wlp_and hmoves hclose) (fun next s' h => ?_) fun _ _ h => h.2.elim
      have hconnected' := hconnected.of_follows (hfollows h.1)
      refine ⟨hfollows h.1, fun _ => ?_, fun t ht => h.2.2 t ht ▸ ⟨rfl, rfl, hmode, hconnected', h.2.1⟩⟩
      rw [hmode]
      exact ⟨hconnected', h.2.1⟩
  | restoreParent id exc =>
      obtain ⟨rfl, rfl, hmode, hconnected, hclosed⟩ := hphase
      have hstored := hclosed
      obtain ⟨current, hget, -⟩ := hstored
      refine wlp_mono (wlp_and hmoves (restoreParent_returns hget)) (fun next s' h => ?_)
        fun _ _ h => h.2.elim
      refine ⟨hfollows h.1, fun _ => ?_, fun t ht => by rw [h.2] at ht; cases ht⟩
      rw [hmode]
      exact ⟨hconnected.of_follows (hfollows h.1), hclosed.of_follows (hfollows h.1)⟩
  | _ => exact False.elim hphase

/-- The first section of a handoff from an active session to a new one. -/
theorem phase_of_handoff {targetServiceId : String} {terminal : Option TerminalCapabilities}
    {callerMetadata : Option Archive.Fields} {parent : Session}
    (hkeys : ∀ id current, s.sessions.get? id = some current → current.id = id)
    (hparent : s.sessions.get? parentId = some parent) (hactive : parent.state = .active)
    (hnew : s.sessions.get? childId = none) :
    wlp (Task.lockedSection R answers
        (.handoff parentId targetServiceId mode childId terminal callerMetadata))
      (fun next s' => s.Follows s' ∧
        ∃ t, next = [t] ∧ Phase parentId childId mode s' t) (fun _ _ => False) s := by
  have hid := hkeys _ _ hparent
  have hne : childId ≠ parent.id := fun heq => by simp [heq, hid, hparent] at hnew
  have hphase : wlp (Task.lockedSection R answers
      (.handoff parentId targetServiceId mode childId terminal callerMetadata))
      (fun next s' => ∃ t, next = [t] ∧ Phase parentId childId mode s' t) (fun _ _ => False) s := by
    refine wlp_bind.mpr <| wlp_bind.mpr <| (wlp_session_of_some hparent).mpr <| wlp_ite.mpr
      ⟨fun hnot => absurd hactive hnot, fun _ => ?_⟩
    refine wlp_bind.mpr <| (wlp_transition_of_mem (by simp [hactive, transitions])).mpr <|
      wlp_pure.mpr <| wlp_tryCatch.mpr <| wlp_bind.mpr <| wlp_bind.mpr <| wlp_get.mpr <|
      wlp_ite.mpr ⟨fun hknown => absurd ?_ hknown, fun _ => ?_⟩
    · exact (Dict.get?_set_ne _ _ hne).trans hnew
    · exact wlp_bind.mpr <| wlp_put.mpr <| wlp_modify.mpr <| wlp_pure.mpr
        ⟨_, rfl, rfl, rfl, rfl, rfl⟩
  exact wlp_mono (wlp_and (moves_of_lockedSection (R := R) hkeys trivial trivial) hphase)
    (fun _ _ h => ⟨fun _ _ hget hsettled => h.1.later trivial hget hsettled, h.2⟩) fun _ _ h => h.2

end Phases

/-! ## Handoffs to the end -/

namespace World

variable {R : Setup σ} {w w' : World σ} {task : Task} {result : Except Exn Unit}
  {parentId childId : String} {mode : HandoffMode}

variable (R) in
/-- The operation whose next section is the task is carried on to its end, with whatever else
happens in between.  Its own sections clean up. -/
inductive Carried : Task → World σ → Except Exn Unit → World σ → Prop
  | other {task : Task} {w w₁ w' : World σ} {l : Label σ} {r result : Except Exn Unit}
      (hstep : w.step R l = some (r, w₁)) (hfresh : w.Fresh l) (hstays : task ∈ w₁.tasks)
      (hrest : Carried task w₁ result w') : Carried task w result w'
  | goesOn {task next : Task} {w w₁ w' : World σ} {answers : Answers σ} {r result : Except Exn Unit}
      (hstep : w.step R ⟨.resume task, answers⟩ = some (r, w₁))
      (hfresh : w.Fresh ⟨.resume task, answers⟩) (hcleans : task.CleansUp R answers w.state)
      (htasks : w₁.tasks = w.tasks.erase task ++ [next]) (hrest : Carried next w₁ result w') :
      Carried task w result w'
  | ends {task : Task} {w w' : World σ} {answers : Answers σ} {result : Except Exn Unit}
      (hstep : w.step R ⟨.resume task, answers⟩ = some (result, w'))
      (hfresh : w.Fresh ⟨.resume task, answers⟩) (hcleans : task.CleansUp R answers w.state)
      (htasks : w'.tasks = w.tasks.erase task) : Carried task w result w'

/-- A step in which the handoff takes its next section. -/
theorem goes_of_resume {answers : Answers σ} (hw : w.WellFormed)
    (hparent : w.state.IsSettled parentId) (hphase : Phase parentId childId mode w.state task)
    (hstep : w.step R ⟨.resume task, answers⟩ = some (result, w'))
    (hfresh : w.Fresh ⟨.resume task, answers⟩) (hcleans : task.CleansUp R answers w.state) :
    w.state.Follows w'.state ∧ ∃ next, w'.tasks = w.tasks.erase task ++ next ∧
      Goes parentId childId mode next result w'.state := by
  unfold step at hstep
  simp only at hstep
  split at hstep
  · rename_i hmem
    have hsection := goes_of_section (R := R) hw.keys (hw.ready task hmem)
      (fresh_of_taskOf hfresh rfl (by simp [begun])) hparent hphase hcleans
    unfold advance at hstep
    split at hstep
    · cases hstep
    · rename_i next s' hrun
      cases hstep
      obtain ⟨hfollows, hgoes⟩ := wlp_ok hsection hrun
      exact ⟨hfollows, next, rfl, hgoes⟩
    · rename_i e s' hrun
      cases hstep
      obtain ⟨hfollows, hgoes⟩ := wlp_error hsection hrun
      exact ⟨hfollows, _, rfl, hgoes⟩
  · cases hstep

/-- A handoff that is carried on to its end has happened entirely or not at all. -/
theorem Carried.allOrNothing (h : Carried R task w result w') (hw : w.WellFormed)
    (hparent : w.state.IsSettled parentId) (hphase : Phase parentId childId mode w.state task) :
    AllOrNothing parentId childId mode result w'.state := by
  induction h with
  | @other _ w w₁ _ _ _ _ hstep hfresh _ _ ih =>
      have hsteps := steps_of_step hw hfresh hstep
      have hfollows : w.state.Follows w₁.state := fun _ _ hget hsettled =>
        hsteps.later hw hget hsettled
      exact ih (hsteps.wellFormed hw) (hparent.of_follows hfollows) (hphase.of_follows hfollows)
  | goesOn hstep hfresh hcleans htasks _ ih =>
      have hsteps := steps_of_step hw hfresh hstep
      obtain ⟨hfollows, next, hnext, hgoes⟩ := goes_of_resume hw hparent hphase hstep hfresh hcleans
      rw [htasks, List.append_cancel_left_eq] at hnext
      exact ih (hsteps.wellFormed hw) (hparent.of_follows hfollows)
        (hgoes.2 _ (hnext ▸ List.mem_singleton_self _))
  | ends hstep hfresh hcleans htasks =>
      obtain ⟨-, next, hnext, hgoes⟩ := goes_of_resume hw hparent hphase hstep hfresh hcleans
      rw [htasks, List.self_eq_append_right] at hnext
      exact hgoes.1 hnext

end World

/-- In every run, a handoff from an active session that gets to its end leaves the parent with the
caller and nothing of the child, or the child with the caller. -/
theorem handoff_all_or_nothing {R : Setup σ} {supervisor : String → Supervisor.World σ}
    {w w₁ w' : World σ} {parentId targetServiceId childId : String} {mode : HandoffMode}
    {terminal : Option TerminalCapabilities} {callerMetadata : Option Archive.Fields}
    {answers : Answers σ} {parent : Session} {next : Task} {r result : Except Exn Unit}
    (hrun : Machine.Run (World.step R) World.Fresh (World.initial supervisor) w)
    (hparent : w.state.sessions.get? parentId = some parent) (hactive : parent.state = .active)
    (hnew : w.state.sessions.get? childId = none)
    (hstep : w.step R
      ⟨.call (.handoff parentId targetServiceId mode childId terminal callerMetadata), answers⟩ =
        some (r, w₁))
    (htasks : w₁.tasks = w.tasks ++ [next]) (hcarried : World.Carried R next w₁ result w') :
    AllOrNothing parentId childId mode result w'.state := by
  have hw : w.WellFormed := World.wellFormed_of_run World.wellFormed_initial (fun _ _ h => h) hrun
  have hsettled : w.state.IsSettled parentId := ⟨parent, hparent, by simp [SessionState.Settled, hactive]⟩
  have hfresh : w.Fresh
      ⟨.call (.handoff parentId targetServiceId mode childId terminal callerMetadata), answers⟩ :=
    trivial
  have hw₁ := (World.steps_of_step hw hfresh hstep).wellFormed hw
  have hfirst : w.state.Follows w₁.state ∧ Phase parentId childId mode w₁.state next := by
    unfold World.step at hstep
    simp only at hstep
    split at hstep
    · unfold World.advance at hstep
      split at hstep
      · cases hstep
      · rename_i tasks s' hsucceeded
        cases hstep
        obtain ⟨hfollows, t, rfl, hphase⟩ :=
          wlp_ok (phase_of_handoff hw.keys hparent hactive hnew) hsucceeded
        rw [List.append_cancel_left_eq, List.singleton_inj] at htasks
        exact ⟨hfollows, htasks ▸ hphase⟩
      · rename_i hfailed
        exact (wlp_error (phase_of_handoff hw.keys hparent hactive hnew) hfailed).elim
    · cases hstep
  exact hcarried.allOrNothing hw₁ (hsettled.of_follows hfirst.1) hfirst.2

/-- The opening of the child in `handoffToDoor`. -/
def doorOpening (parentId childId : String) : Opening :=
  ⟨childId, { targetService := "door", routeType := .viaService, originService := some "menu" },
    some parentId, some .returnToOrigin, true⟩

/-- A handoff to `door` whose connection is refused, while somebody else opens `menu`. -/
theorem handoff_all_or_nothing_refused :
    ∃ w w₁ w' : World Supervisor.Script,
      Machine.Run (World.step (scripted 0)) World.Fresh (World.initial scriptedSupervisor) w ∧
      World.Carried (scripted 0) (.authorize (doorOpening "p" "c")) w₁
        (.error ⟨.transportError, "connection refused"⟩) w' ∧
      AllOrNothing "p" "c" .returnToOrigin (.error ⟨.transportError, "connection refused"⟩)
        w'.state := by
  let o := doorOpening "p" "c"
  let refused : Exn := ⟨.transportError, "connection refused"⟩
  let answers := scriptedAnswers "2" false true
  let step := World.step (scripted 0)
  have hexec : ((Machine.exec step World.Fresh (World.initial scriptedSupervisor)
        (openMenu "p" "1")).bind fun w =>
      (step w ⟨.call (.handoff "p" "door" .returnToOrigin "c" none none), answers⟩).bind fun x₁ =>
      (step x₁.2 ⟨.resume (.authorize o), answers⟩).bind fun x₂ =>
      (step x₂.2 ⟨.call (.openSession (menuOpening "q")), answers⟩).bind fun x₃ =>
      (step x₃.2 ⟨.resume (.acquire o), answers⟩).bind fun x₄ =>
      (step x₄.2 ⟨.resume (.connect o), answers⟩).bind fun x₅ =>
      (step x₅.2 ⟨.resume (.handoffFailed "p" refused), answers⟩).map fun x₆ =>
        decide ((w.state.sessions.get? "p").map (·.state) = some .active ∧
          (w.state.sessions.get? "c").isNone = true ∧
          [w.tasks, x₁.2.tasks, x₂.2.tasks, x₃.2.tasks, x₄.2.tasks, x₅.2.tasks, x₆.2.tasks] =
            [[], [.authorize o], [.acquire o], [.acquire o, .authorize (menuOpening "q")],
              [.authorize (menuOpening "q"), .connect o],
              [.authorize (menuOpening "q"), .handoffFailed "p" refused],
              [.authorize (menuOpening "q")]] ∧
          x₃.2.Fresh ⟨.resume (.acquire o), answers⟩ ∧
          (∀ child ∈ x₄.2.state.sessions.get? o.sessionId,
            ¬ Connects (scripted 0) answers child →
              x₄.2.state.Closes (scripted 0) answers child) ∧
          raised x₆.1 = some refused)) = some true := by
    decide +kernel
  simp only [Option.bind_eq_some_iff, Option.map_eq_some_iff, decide_eq_true_eq] at hexec
  obtain ⟨w, hw, ⟨r₁, w₁⟩, h₁, ⟨r₂, w₂⟩, h₂, ⟨r₃, w₃⟩, h₃, ⟨r₄, w₄⟩, h₄, ⟨r₅, w₅⟩, h₅, ⟨r₆, w₆⟩, h₆,
    ⟨parent, hparent, hactive⟩, hnew, htasks, hfresh, hcleans, hraised⟩ := hexec
  simp only [List.cons.injEq, and_true] at htasks
  obtain ⟨ht, ht₁, ht₂, ht₃, ht₄, ht₅, ht₆⟩ := htasks
  obtain rfl : r₆ = .error refused := by
    cases r₆ with
    | ok => cases hraised
    | error => exact congrArg _ (Option.some.inj hraised)
  have hcarried : World.Carried (scripted 0) (.authorize o) w₁ (.error refused) w₆ := by
    refine .goesOn h₂ trivial trivial (by rw [ht₁, ht₂]; rfl) ?_
    refine .other h₃ trivial (by rw [ht₃]; simp) ?_
    refine .goesOn h₄ hfresh trivial (by rw [ht₃, ht₄]; rfl) ?_
    refine .goesOn h₅ trivial hcleans (by rw [ht₄, ht₅]; rfl) ?_
    exact .ends h₆ trivial trivial (by rw [ht₅, ht₆]; rfl)
  exact ⟨w, w₁, w₆, Machine.run_of_exec hw, hcarried,
    handoff_all_or_nothing (Machine.run_of_exec hw) hparent hactive
      (Option.isNone_iff_eq_none.mp hnew) h₁ (by rw [ht, ht₁]; rfl) hcarried⟩

end UltimateBBSBox.Router

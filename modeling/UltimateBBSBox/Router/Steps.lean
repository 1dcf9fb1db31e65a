import UltimateBBSBox.Router.Moves

/-!
# Steps and what every reached world satisfies

A step is a move of one task, or a step of the supervisor.  In every world that
a run reaches, each session is stored under its id, a task that opens a session
finds it where it left it, and no two tasks open the same session.
-/

namespace UltimateBBSBox.Router

open Act

variable {σ : Type}

/-! ## Moves and the sessions they leave alone -/

/-- The session as it was created. -/
def Session.fresh (current : Session) : Session :=
  { current with
    state := .created, lifecycleSessionId := none, endpoint := none, terminationReason := none,
    stream := none, holdReleased := false }

/-- A session that is being opened. -/
def SessionState.Coming (state : SessionState) : Prop := state ∈ [created, acquiring, connecting]

theorem Session.eq_of_fresh {current current' : Session} (h : current'.fresh = current.fresh) :
    current'.id = current.id ∧ current'.targetService = current.targetService ∧
      current'.originService = current.originService ∧ current'.routeType = current.routeType ∧
      current'.parentSessionId = current.parentSessionId ∧
      current'.handoffMode = current.handoffMode ∧
      current'.returnToOrigin = current.returnToOrigin := by
  simp only [Session.fresh, Session.mk.injEq] at h
  simp [h]

theorem map_fresh_of_set {sessions sessions' : Dict String Session} {key : String}
    {old new : Session} (hset : sessions' = sessions.set key new)
    (hold : sessions.get? key = some old) (hnew : new.fresh = old.fresh) (id : String) :
    (sessions'.get? id).map Session.fresh = (sessions.get? id).map Session.fresh := by
  rw [hset, Dict.get?_set]
  split
  · rename_i heq
    simp [heq, hold, hnew]
  · rfl

namespace Moves

variable {R : Setup σ} {answers : Answers σ} {s s' : State σ} {task : Task} {next : List Task}

/-- A new session is registered by `open_session` or by `handoff`; any other move
leaves what sessions were created with as it is, and opens no other session. -/
theorem registers_cases (h : Moves R answers s task next s') :
    ((∀ id, (s'.sessions.get? id).map Session.fresh = (s.sessions.get? id).map Session.fresh) ∧
      ∀ id ∈ next.filterMap Task.opening?, task.opening? = some id) ∨
    (∃ o, task = .openSession o ∧ next = [.authorize o] ∧ s.sessions.get? o.sessionId = none ∧
      s'.sessions = s.sessions.set o.sessionId o.created) ∨
    (∃ parentId targetServiceId mode parent o,
      (∃ terminal callerMetadata,
        task = .handoff parentId targetServiceId mode o.sessionId terminal callerMetadata) ∧
      next = [.authorize o] ∧
      s.sessions.get? parentId = some parent ∧ parent.state = .active ∧
      s.sessions.get? o.sessionId = none ∧ o.byHandoff = true ∧
      o.parentSessionId = some parentId ∧ o.handoffMode = some mode ∧
      s'.sessions = (s.sessions.set parentId { parent with state := .handingOff }).set
        o.sessionId o.created) := by
  -- what follows an error opens nothing
  have hafterOpenError : ∀ {o : Opening} {e : Exn},
      ∀ id ∈ (Task.afterOpenError o e).filterMap Task.opening?, task.opening? = some id := by
    intro o e id hid
    unfold Task.afterOpenError at hid
    split at hid <;> cases hid
  cases h with
  | registered hfresh hset => exact .inr (.inl ⟨_, rfl, rfl, hfresh, hset⟩)
  | handedOff hparent hstate hfresh ho hset =>
      subst ho
      exact .inr (.inr ⟨_, _, _, _, _, ⟨_, _, rfl⟩, rfl, hparent, hstate, hfresh, rfl, rfl, rfl, hset⟩)
  | rejected hparent _ hset => exact .inl ⟨map_fresh_of_set hset hparent rfl, by simp [Task.opening?]⟩
  | authorized hget _ _ hset =>
      exact .inl ⟨map_fresh_of_set hset hget rfl, by simp [Task.opening?]⟩
  | denied hget hset => exact .inl ⟨map_fresh_of_set hset hget rfl, hafterOpenError⟩
  | acquired hget _ hset => exact .inl ⟨map_fresh_of_set hset hget rfl, by simp [Task.opening?]⟩
  | notAcquired hget hset => exact .inl ⟨map_fresh_of_set hset hget rfl, hafterOpenError⟩
  | connected _ hget hset =>
      refine .inl ⟨map_fresh_of_set hset hget rfl, fun id hid => ?_⟩
      unfold Task.afterConnect at hid
      split at hid <;> cases hid
  | notConnected hget _ hset => exact .inl ⟨map_fresh_of_set hset hget rfl, hafterOpenError⟩
  | stuck _ _ hset => exact .inl ⟨fun _ => by rw [hset], hafterOpenError⟩
  | returned _ hparent _ hset => exact .inl ⟨map_fresh_of_set hset hparent rfl, by simp⟩
  | closed _ _ hget _ hset =>
      exact .inl ⟨map_fresh_of_set hset hget rfl, by simp [Task.opening?]⟩
  | closeFailed _ _ hget _ hcurrent _ hset =>
      refine .inl ⟨map_fresh_of_set hset hget ?_, by simp⟩
      rw [hcurrent]
      split <;> rfl
  | idle _ _ _ hnext hset =>
      refine .inl ⟨fun _ => by rw [hset], fun id hid => ?_⟩
      obtain ⟨t, ht, hopening⟩ := List.mem_filterMap.mp hid
      obtain ⟨sessionId, call, rfl⟩ := hnext t ht
      cases hopening

/-- What a session was created with never changes, and a new session is one
that a task registers. -/
theorem map_fresh (h : Moves R answers s task next s') (id : String) :
    (s'.sessions.get? id).map Session.fresh = (s.sessions.get? id).map Session.fresh ∨
      (s.sessions.get? id = none ∧ ∃ o : Opening, next = [.authorize o] ∧ o.sessionId = id ∧
        s'.sessions.get? id = some o.created) := by
  rcases h.registers_cases with ⟨hsame, _⟩ | ⟨o, _, hnext, hnew, hset⟩ |
    ⟨parentId, _, _, parent, o, _, hnext, hparent, _, hnew, _, _, _, hset⟩
  · exact .inl (hsame id)
  · by_cases hid : id = o.sessionId
    · exact .inr ⟨hid ▸ hnew, o, hnext, hid.symm, by rw [hset, hid, Dict.get?_set_self]⟩
    · exact .inl (by rw [hset, Dict.get?_set_ne _ _ hid])
  · by_cases hid : id = o.sessionId
    · exact .inr ⟨hid ▸ hnew, o, hnext, hid.symm, by rw [hset, hid, Dict.get?_set_self]⟩
    · rw [hset, Dict.get?_set_ne _ _ hid]
      exact .inl (map_fresh_of_set (by rfl) hparent (by rfl) id)

/-- What a move can do to a session that exists: nothing, or, as the session's
state admits, open it, hand off from it, return to it or close it. -/
inductive Change (R : Setup σ) (answers : Answers σ) (s s' : State σ) (task : Task)
    (next : List Task) (id : String) (current : Session) : Prop
  | kept (hget : s'.sessions.get? id = some current) : Change R answers s s' task next id current
  | opened {current' : Session} (hopening : task.opening? = some id)
      (hget : s'.sessions.get? id = some current')
      (hstate : current'.state ∈ [SessionState.acquiring, .connecting, .active, .failed]) :
      Change R answers s s' task next id current
  | handedOff (hstate : current.state = .active)
      (hget : s'.sessions.get? id = some { current with state := .handingOff })
      (hnext : (∃ o : Opening, next = [.authorize o] ∧ o.byHandoff = true ∧
        o.parentSessionId = some id ∧ o.handoffMode ≠ none) ∨ ∃ e, next = [.handoffFailed id e]) :
      Change R answers s s' task next id current
  | returned (hstate : current.state = .handingOff) (hreturning : task.returning? s = some id)
      (hget : s'.sessions.get? id = some { current with state := .active }) :
      Change R answers s s' task next id current
  | closed {reason : String} {exc : Option Exn} (reason' : String)
      (hclosing : task.closing? answers = some (id, reason, exc))
      (hstate : current.state.Open ∨ current.state = .failed)
      (hget : s'.sessions.get? id = some (current.cleaned.ended .closed reason'))
      (hnext : next = [.restoreParent id exc]) : Change R answers s s' task next id current
  | closeFailed {reason : String} {exc : Option Exn} {current' : Session} {released : Bool}
      (reason' : String) (hclosing : task.closing? answers = some (id, reason, exc))
      (hstate : current.state.Open ∨ current.state = .failed)
      (hcurrent : current' = current ∨ current' = current.cleaned)
      (hget : s'.sessions.get? id = some (current'.ended .failed reason'))
      (hraised : (current.stream ≠ none ∧ raised answers.closeStream ≠ none) ∨ released = false)
      (hcleaned : Cleaned R answers s s' current released) :
      Change R answers s s' task next id current

/-- Every move does one of these to every session. -/
theorem change (h : Moves R answers s task next s') {id : String} {current : Session}
    (hget : s.sessions.get? id = some current) :
    Change R answers s s' task next id current := by
  have hother : ∀ {key : String} {new : Session}, s'.sessions = s.sessions.set key new → id ≠ key →
      Change R answers s s' task next id current := fun hset hne =>
    .kept (by rw [hset, Dict.get?_set_ne _ _ hne, hget])
  -- the session is the one that the move is about, or another one
  have hsame : ∀ {key : String} {old new : Session}, s'.sessions = s.sessions.set key new →
      s.sessions.get? key = some old →
      (id = key → old = current → s'.sessions.get? id = some new →
        Change R answers s s' task next id current) →
      Change R answers s s' task next id current := by
    intro key old new hset hold hchange
    by_cases hid : id = key
    · rw [← hid, hget, Option.some.injEq] at hold
      exact hchange hid hold.symm (by rw [hset, hid, Dict.get?_set_self])
    · exact hother hset hid
  have hopened : ∀ {key : String} {old new : Session}, s'.sessions = s.sessions.set key new →
      s.sessions.get? key = some old → task.opening? = some key →
      new.state ∈ [SessionState.acquiring, .connecting, .active, .failed] →
      Change R answers s s' task next id current := fun hset hold hopening hstate =>
    hsame hset hold fun hid _ hnew => .opened (hid ▸ hopening) hnew hstate
  cases h with
  | registered hfresh hset => exact hother hset fun heq => by simp [← heq, hget] at hfresh
  | @handedOff parentId _ childId mode parent _ _ _ _ hparent hstate hfresh ho hset =>
      subst ho
      have hchild : id ≠ childId := fun heq => by simp [← heq, hget] at hfresh
      by_cases hid : id = parentId
      · subst hid
        rw [hget, Option.some.injEq] at hparent
        subst hparent
        exact .handedOff hstate (by rw [hset, Dict.get?_set_ne _ _ hchild, Dict.get?_set_self])
          (.inl ⟨_, rfl, rfl, rfl, by simp⟩)
      · exact .kept (by rw [hset, Dict.get?_set_ne _ _ hchild, Dict.get?_set_ne _ _ hid, hget])
  | rejected hparent hstate hset =>
      refine hsame hset hparent fun hid hold hnew => ?_
      subst hold hid
      exact .handedOff hstate hnew (.inr ⟨_, rfl⟩)
  | authorized hold _ _ hset => exact hopened hset hold rfl (by simp [Opening.acquiring])
  | denied hold hset => exact hopened hset hold rfl (by simp [Opening.failed])
  | acquired hold _ hset => exact hopened hset hold rfl (by simp [Opening.connecting])
  | notAcquired hold hset => exact hopened hset hold rfl (by simp [Opening.failed])
  | connected _ hold hset => exact hopened hset hold rfl (by simp)
  | notConnected hold _ hset => exact hopened hset hold rfl (by simp [Session.ended])
  | stuck _ _ hset => exact .kept (by rw [hset, hget])
  | returned hreturning hparent hstate hset =>
      refine hsame hset hparent fun hid hold hnew => ?_
      subst hold hid
      exact .returned hstate hreturning hnew
  | closed reason' hclosing hold hstate hset =>
      refine hsame hset hold fun hid hold hnew => ?_
      subst hold hid
      exact .closed reason' hclosing hstate hnew rfl
  | closeFailed reason' hclosing hold hstate hcurrent hraised hset hcleaned =>
      refine hsame hset hold fun hid hold hnew => ?_
      subst hold hid
      refine .closeFailed reason' hclosing hstate ?_ hnew hraised hcleaned
      rw [hcurrent]
      split
      · exact .inr rfl
      · exact .inl rfl
  | idle _ _ _ _ hset => exact .kept (by rw [hset, hget])

/-- A session that another task is opening stays as it is. -/
theorem get?_of_coming (h : Moves R answers s task next s') {id : String} {current : Session}
    (hget : s.sessions.get? id = some current) (hcoming : current.state.Coming)
    (hother : task.opening? ≠ some id) : s'.sessions.get? id = some current := by
  simp only [SessionState.Coming, List.mem_cons, List.not_mem_nil, or_false] at hcoming
  have hclosable : ¬ (current.state.Open ∨ current.state = .failed) := fun hstate => by
    simp only [SessionState.Open, List.mem_cons, List.not_mem_nil, or_false] at hstate
    rcases hstate with (h | h) | h <;> simp [h] at hcoming
  cases h.change hget with
  | kept hget' => exact hget'
  | opened hopening => exact absurd hopening hother
  | handedOff hstate => simp [hstate] at hcoming
  | returned hstate => simp [hstate] at hcoming
  | closed _ _ hstate => exact absurd hstate hclosable
  | closeFailed _ _ hstate => exact absurd hstate hclosable

/-- The tasks that follow find their sessions where they expect them. -/
theorem ready_next (h : Moves R answers s task next s') : ∀ t ∈ next, t.Ready s' := by
  -- after an error only the restoration of the parent can follow, which expects nothing
  have hafterOpenError : ∀ {o : Opening} {e : Exn}, ∀ t ∈ Task.afterOpenError o e, t.Ready s' := by
    intro o e t ht
    unfold Task.afterOpenError at ht
    split at ht
    · rw [List.mem_singleton.mp ht]
      trivial
    · simp at ht
  cases h with
  | registered _ hsessions =>
      rintro t (_ | ⟨_, ⟨⟩⟩)
      rw [Task.Ready, hsessions]
      exact Dict.get?_set_self _ _ _
  | handedOff _ _ _ ho hsessions =>
      rintro t (_ | ⟨_, ⟨⟩⟩)
      rw [Task.Ready, hsessions, ho]
      exact Dict.get?_set_self _ _ _
  | rejected =>
      rintro t (_ | ⟨_, ⟨⟩⟩)
      trivial
  | authorized _ _ _ hsessions =>
      rintro t (_ | ⟨_, ⟨⟩⟩)
      exact ⟨_, hsessions ▸ Dict.get?_set_self _ _ _⟩
  | denied => exact hafterOpenError
  | acquired _ _ hsessions =>
      rintro t (_ | ⟨_, ⟨⟩⟩)
      exact ⟨_, _, hsessions ▸ Dict.get?_set_self _ _ _⟩
  | notAcquired => exact hafterOpenError
  | connected =>
      intro t ht
      unfold Task.afterConnect at ht
      split at ht
      · rw [List.mem_singleton.mp ht]
        trivial
      · simp at ht
  | notConnected => exact hafterOpenError
  | stuck => exact hafterOpenError
  | returned => simp
  | closed =>
      rintro t (_ | ⟨_, ⟨⟩⟩)
      trivial
  | closeFailed => simp
  | idle _ _ _ hnext =>
      intro t ht
      obtain ⟨sessionId, call, rfl⟩ := hnext t ht
      trivial

/-- What follows opens the session that the task was opening, or a new one. -/
theorem openings_next (h : Moves R answers s task next s') {id : String}
    (hid : id ∈ next.filterMap Task.opening?) :
    task.opening? = some id ∨ s.sessions.get? id = none := by
  rcases h.registers_cases with ⟨_, hopening⟩ | ⟨o, _, rfl, hnew, _⟩ |
    ⟨_, _, _, _, o, _, rfl, _, _, hnew, _⟩
  · exact .inl (hopening id hid)
  · exact .inr (List.mem_singleton.mp hid ▸ hnew)
  · exact .inr (List.mem_singleton.mp hid ▸ hnew)

/-- What follows opens one session at most. -/
theorem nodup_openings_next (h : Moves R answers s task next s') :
    (next.filterMap Task.opening?).Nodup := by
  have hafterOpenError : ∀ (o : Opening) (e : Exn),
      ((Task.afterOpenError o e).filterMap Task.opening?).Nodup := fun o e => by
    unfold Task.afterOpenError
    split <;> exact List.nodup_nil
  cases h with
  | denied | notAcquired | notConnected | stuck => exact hafterOpenError _ _
  | connected =>
      unfold Task.afterConnect
      split <;> exact List.nodup_nil
  | idle _ _ _ hnext =>
      rw [List.filterMap_eq_nil_iff.mpr fun t ht => ?_]
      · exact List.nodup_nil
      · obtain ⟨sessionId, call, rfl⟩ := hnext t ht
        rfl
  | registered | handedOff | authorized | acquired => exact List.nodup_singleton _
  | rejected | returned | closed | closeFailed => exact List.nodup_nil

end Moves

/-! ## Steps -/

namespace World

variable {R : Setup σ} {w w' : World σ} {l : Label σ} {r : Except Exn Unit}

/-- The operation that begins in a step. -/
def begun (l : Label σ) : List Task :=
  match l.action with
  | .call task => [task]
  | _ => []

/-- A step is a move of a task, or a step of the supervisor. -/
inductive Steps (R : Setup σ) (l : Label σ) (w : World σ) : Except Exn Unit → World σ → Prop
  | moved {task : Task} {rest next : List Task} {r : Except Exn Unit} {s' : State σ}
      (htask : taskOf l = some task) (hbegun : ∀ t ∈ begun l, t.Entry)
      (hperm : (begun l ++ w.tasks).Perm (task :: rest))
      (hmoves : Moves R l.answers w.state task next s')
      (hraised : ∀ e, r = .error e → next = task.afterError e) : Steps R l w r ⟨s', rest ++ next⟩
  | supervised {serviceId : String} {label : Supervisor.Label σ} {service : Service}
      {result : Except Supervisor.Exn Unit} {r : Except Exn Unit} {world : Supervisor.World σ}
      (haction : l.action = .supervisor serviceId label)
      (hservice : R.site.registry.find? serviceId = some service)
      (hstep : (w.state.supervisor serviceId).step (R.site.context service) label =
        some (result, world)) :
      Steps R l w r
        { w with
          state :=
            { w.state with supervisor := Function.update w.state.supervisor serviceId world } }

/-- What holds in every world that a run reaches. -/
structure WellFormed (w : World σ) : Prop where
  keys : ∀ id current, w.state.sessions.get? id = some current → current.id = id
  ready : ∀ task ∈ w.tasks, task.Ready w.state
  openings : (w.tasks.filterMap Task.opening?).Nodup

theorem opening?_of_entry {task : Task} (h : task.Entry) : task.opening? = none := by
  cases task <;> trivial

theorem ready_of_entry {task : Task} {s : State σ} (h : task.Entry) : task.Ready s := by
  cases task <;> trivial

theorem advance_spec {task : Task} {rest : List Task} (hw : w.WellFormed)
    (hready : task.Ready w.state) (hfresh : task.Fresh l.answers w.state)
    (hstep : w.advance R l.answers task rest = some (r, w')) :
    ∃ next s', w' = ⟨s', rest ++ next⟩ ∧ Moves R l.answers w.state task next s' ∧
      ∀ e, r = .error e → next = task.afterError e := by
  have hmoves := moves_of_lockedSection (R := R) hw.keys hready hfresh
  unfold advance at hstep
  split at hstep
  · cases hstep
  · rename_i next s' hrun
    cases hstep
    exact ⟨next, s', rfl, wlp_ok hmoves hrun, by simp⟩
  · rename_i e s' hrun
    cases hstep
    exact ⟨task.afterError e, s', rfl, wlp_error hmoves hrun, fun _ he => by cases he; rfl⟩

/-- The lifecycle session that a section acquires is new. -/
theorem fresh_of_taskOf {task : Task} (hfresh : w.Fresh l) (htask : taskOf l = some task)
    (hbegun : ∀ t ∈ begun l, t.Entry) : task.Fresh l.answers w.state := by
  unfold taskOf at htask
  split at htask
  · rename_i haction
    cases htask
    have hentry := hbegun task (by simp [begun, haction])
    cases task <;> trivial
  · rename_i haction
    cases htask
    cases task with
    | acquire o =>
        unfold World.Fresh at hfresh
        rw [haction] at hfresh
        exact hfresh
    | _ => trivial
  · cases htask

/-- Nothing else happens in a step. -/
theorem steps_of_step (hw : w.WellFormed) (hfresh : w.Fresh l)
    (hstep : w.step R l = some (r, w')) : Steps R l w r w' := by
  unfold step at hstep
  split at hstep
  · rename_i task haction
    split at hstep
    · rename_i hentry
      have hbegun : begun l = [task] := by rw [begun, haction]
      obtain ⟨next, s', rfl, hmoves, hraised⟩ := advance_spec hw
        (ready_of_entry hentry) (by cases task <;> trivial) hstep
      refine .moved (by rw [taskOf, haction]) ?_ (by rw [hbegun]; rfl) hmoves hraised
      rw [hbegun]
      exact fun t ht => List.mem_singleton.mp ht ▸ hentry
    · cases hstep
  · rename_i task haction
    split at hstep
    · rename_i hmem
      have hready := hw.ready task hmem
      have hbegun : begun l = [] := by rw [begun, haction]
      have htask : taskOf l = some task := by rw [taskOf, haction]
      obtain ⟨next, s', rfl, hmoves, hraised⟩ := advance_spec hw hready
        (fresh_of_taskOf hfresh htask (by rw [hbegun]; simp)) hstep
      refine .moved (by rw [taskOf, haction]) (by rw [hbegun]; simp) ?_ hmoves hraised
      rw [hbegun]
      exact List.perm_cons_erase hmem
    · cases hstep
  · rename_i serviceId label haction
    split at hstep
    · cases hstep
    · rename_i service hservice
      obtain ⟨_, hid⟩ := Registry.mem_services_of_find? hservice
      rw [hid] at hstep
      rw [Option.map_eq_some_iff] at hstep
      obtain ⟨result, hresult, heq⟩ := hstep
      cases heq
      exact .supervised haction hservice hresult

theorem mem_tasks_of_perm {task t : Task} {rest : List Task}
    (hbegun : ∀ t ∈ begun l, t.Entry) (hperm : (begun l ++ w.tasks).Perm (task :: rest))
    (ht : t ∈ task :: rest) : t.Entry ∨ t ∈ w.tasks :=
  (List.mem_append.mp (hperm.mem_iff.mpr ht)).imp_left (hbegun t)

/-- The session that a task is opening is stored, in a state in which it is being opened. -/
theorem coming_of_ready {task : Task} {s : State σ} {id : String} (h : task.Ready s)
    (hopening : task.opening? = some id) :
    ∃ current, s.sessions.get? id = some current ∧ current.state.Coming := by
  cases task with
  | authorize o =>
      cases hopening
      exact ⟨_, h, by simp [Opening.created, SessionState.Coming]⟩
  | acquire o =>
      cases hopening
      obtain ⟨endpoint, h⟩ := h
      exact ⟨_, h, by simp [Opening.acquiring, SessionState.Coming]⟩
  | connect o =>
      cases hopening
      obtain ⟨endpoint, lifecycleId, h⟩ := h
      exact ⟨_, h, by simp [Opening.connecting, SessionState.Coming]⟩
  | _ => cases hopening

/-- Readiness is about the session that the task is opening. -/
theorem ready_congr {task : Task} {s s' : State σ} (h : task.Ready s)
    (hsame : ∀ id, task.opening? = some id → s'.sessions.get? id = s.sessions.get? id) :
    task.Ready s' := by
  cases task with
  | authorize o =>
      rw [Task.Ready, hsame _ rfl]
      exact h
  | acquire o =>
      rw [Task.Ready, hsame _ rfl]
      exact h
  | connect o =>
      rw [Task.Ready, hsame _ rfl]
      exact h
  | _ => trivial

theorem openings_perm {task : Task} {rest : List Task} (hbegun : ∀ t ∈ begun l, t.Entry)
    (hperm : (begun l ++ w.tasks).Perm (task :: rest)) :
    (w.tasks.filterMap Task.opening?).Perm ((task :: rest).filterMap Task.opening?) := by
  have hnone : (begun l).filterMap Task.opening? = [] :=
    List.filterMap_eq_nil_iff.mpr fun t ht => opening?_of_entry (hbegun t ht)
  simpa only [List.filterMap_append, hnone, List.nil_append] using hperm.filterMap Task.opening?

theorem Steps.wellFormed (h : Steps R l w r w') (hw : w.WellFormed) : w'.WellFormed := by
  cases h with
  | supervised =>
      exact ⟨hw.keys, fun t ht => ready_congr (hw.ready t ht) fun _ _ => rfl, hw.openings⟩
  | @moved task rest next _ s' _ hbegun hperm hmoves =>
      have hopenings := openings_perm hbegun hperm
      have hnodup : ((task :: rest).filterMap Task.opening?).Nodup := hopenings.nodup_iff.mp hw.openings
      have hready : ∀ t ∈ rest, t.Ready w.state := fun t ht =>
        (mem_tasks_of_perm hbegun hperm (List.mem_cons_of_mem _ ht)).elim ready_of_entry (hw.ready t)
      refine ⟨fun id current hget => ?_, fun t ht => ?_, ?_⟩
      · rcases hmoves.map_fresh id with hsame | ⟨_, o, _, rfl, hnew⟩
        · rw [hget, Option.map_some, eq_comm, Option.map_eq_some_iff] at hsame
          obtain ⟨old, hold, heq⟩ := hsame
          have hid : old.fresh.id = current.fresh.id := congrArg Session.id heq
          exact hid.symm.trans (hw.keys id old hold)
        · rw [hget, Option.some.injEq] at hnew
          exact hnew ▸ rfl
      · rcases List.mem_append.mp ht with ht | ht
        · refine ready_congr (hready t ht) fun id hopening => ?_
          obtain ⟨current, hget, hcoming⟩ := coming_of_ready (hready t ht) hopening
          rw [hget]
          refine hmoves.get?_of_coming hget hcoming fun htask => ?_
          rw [List.filterMap_cons_some htask, List.nodup_cons] at hnodup
          exact hnodup.1 (List.mem_filterMap.mpr ⟨t, ht, hopening⟩)
        · exact hmoves.ready_next t ht
      · rw [List.filterMap_append]
        have hrest : (rest.filterMap Task.opening?).Nodup :=
          hnodup.sublist ((List.sublist_cons_self task rest).filterMap _)
        refine hrest.append hmoves.nodup_openings_next fun id hid hid' => ?_
        rcases hmoves.openings_next hid' with htask | hunknown
        · rw [List.filterMap_cons_some htask, List.nodup_cons] at hnodup
          exact hnodup.1 hid
        · obtain ⟨t, ht, hopening⟩ := List.mem_filterMap.mp hid
          obtain ⟨current, hget, _⟩ := coming_of_ready (hready t ht) hopening
          simp [hget] at hunknown

theorem wellFormed_initial {supervisor : String → Supervisor.World σ} :
    (initial supervisor).WellFormed where
  keys id current h := by simp [initial] at h
  ready task h := by simp [initial] at h
  openings := by simp [initial]

/-- A property of well-formed worlds that every step keeps, a run keeps. -/
theorem run_invariant {ok : World σ → Label σ → Prop} {P : World σ → Prop} (hw : w.WellFormed)
    (hP : P w) (hfresh : ∀ w l, ok w l → w.Fresh l) (hrun : Machine.Run (step R) ok w w')
    (hstep : ∀ u l r u', ok u l → u.WellFormed → P u → Steps R l u r u' → P u') : P w' := by
  have hboth : w'.WellFormed ∧ P w' := hrun.invariant (P := fun u => u.WellFormed ∧ P u) ⟨hw, hP⟩
    fun u l r u' hu hok hnext => by
      have hsteps := steps_of_step hu.1 (hfresh u l hok) hnext
      exact ⟨hsteps.wellFormed hu.1, hstep u l r u' hok hu.1 hu.2 hsteps⟩
  exact hboth.2

/-- Every world that a run reaches is well formed. -/
theorem wellFormed_of_run {ok : World σ → Label σ → Prop} (hw : w.WellFormed)
    (hfresh : ∀ w l, ok w l → w.Fresh l) (hrun : Machine.Run (step R) ok w w') : w'.WellFormed :=
  run_invariant hw hw hfresh hrun fun _ _ _ _ _ hu _ hsteps => hsteps.wellFormed hu

end World

end UltimateBBSBox.Router

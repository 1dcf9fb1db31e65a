import UltimateBBSBox.Router.Handoff

/-!
# Sessions that hand off get their caller back

While a session hands off, some operation under way still has to settle what
becomes of it, or a child that returns to it is open (`Owed`).  Every step keeps
this, except one: closing a child may raise, because its stream raises or
because the supervisor does not know its lifecycle session any more, and then
nothing returns to the parent (`parent_stranded_by_failing_close`).
-/

namespace UltimateBBSBox.Router

open Act

variable {σ : Type}

/-! ## What is owed to a session that hands off -/

/-- The task has to settle what becomes of the session that handed off. -/
def Task.Owes (s : State σ) (parentId : String) : Task → Prop
  | .authorize o | .acquire o | .connect o =>
      o.byHandoff = true ∧ o.parentSessionId = some parentId ∧ o.handoffMode ≠ none
  | .handoffFailed id _ | .closeSession id _ => id = parentId
  | .restoreParent childId exc => Task.returning? s (.restoreParent childId exc) = some parentId
  | _ => False

/-- An open session that returns to the session that handed off. -/
def State.ReturnChild (s : State σ) (parentId id : String) : Prop :=
  ∃ child, s.sessions.get? id = some child ∧ child.returnToOrigin = true ∧
    child.parentSessionId = some parentId ∧ child.state.Open

namespace World

variable (w : World σ)

/-- Somebody will settle what becomes of the session that handed off. -/
def Owed (parentId : String) : Prop :=
  (∃ t ∈ w.tasks, t.Owes w.state parentId) ∨ ∃ id, w.state.ReturnChild parentId id

end World

variable (R : Setup σ) (answers : Answers σ)

/-- Closing the session succeeds: its stream does not raise, and the supervisor
takes its hold back. -/
def State.Closes (s : State σ) (current : Session) : Prop :=
  (current.stream = none ∨ raised answers.closeStream = none) ∧
    ∀ lifecycleId ∈ current.lifecycleSessionId, current.holdReleased = false →
      R.site.registry.find? current.targetService ≠ none ∧
        s.held current.targetService lifecycleId ≠ none ∧ s.ReleaseFits R answers current

instance (s : State σ) (current : Session) : Decidable (s.Closes R answers current) := by
  unfold State.Closes State.ReleaseFits
  infer_instance

/-- Closing an open session that returns to a session that hands off succeeds. -/
def World.ReturnsSucceed (w : World σ) (l : Label σ) : Prop :=
  ∀ task ∈ World.taskOf l, ∀ closing ∈ task.closing? l.answers,
    ∀ child ∈ w.state.sessions.get? closing.1, child.state.Open → child.returnToOrigin = true →
      (∃ parentId ∈ child.parentSessionId, w.state.Away parentId) →
        w.state.Closes R l.answers child

instance (w : World σ) (l : Label σ) : Decidable (w.ReturnsSucceed R l) := by
  unfold World.ReturnsSucceed
  infer_instance

/-! ## Moves -/

variable {R answers} {s s' : State σ} {task : Task} {next : List Task} {parentId : String}

theorem Task.Owes.congr {t : Task} (h : t.Owes s parentId)
    (hsame : ∀ id, s.sessions.get? id ≠ none →
      (s'.sessions.get? id).map Session.fresh = (s.sessions.get? id).map Session.fresh) :
    t.Owes s' parentId := by
  cases t with
  | restoreParent childId exc =>
      obtain ⟨child, hget, hreturn⟩ := Option.bind_eq_some_iff.mp h
      have hmap := hsame childId (by simp [hget])
      rw [hget, Option.map_some, Option.map_eq_some_iff] at hmap
      obtain ⟨child', hget', hfresh⟩ := hmap
      obtain ⟨_, _, _, _, hparent, _, hreturn'⟩ := Session.eq_of_fresh hfresh
      exact Option.bind_eq_some_iff.mpr ⟨child', hget', by rw [hreturn', hparent, hreturn]⟩
  | _ => exact h

theorem owes_afterOpenError {o : Opening} {e : Exn}
    (h : o.byHandoff = true ∧ o.parentSessionId = some parentId ∧ o.handoffMode ≠ none) :
    ∃ t ∈ Task.afterOpenError o e, t.Owes s' parentId := by
  simp [Task.afterOpenError, h.1, h.2.1, Task.Owes]

/-- A task passes what it owes on, unless it settles it. -/
theorem Moves.owed_next (h : Moves R answers s task next s') (howes : task.Owes s parentId)
    (haway : s.Away parentId) (haway' : s'.Away parentId) :
    (∃ t ∈ next, t.Owes s' parentId) ∨ ∃ id, s'.ReturnChild parentId id := by
  obtain ⟨current, hcurrent, hstate⟩ := haway
  obtain ⟨current', hcurrent', hstate'⟩ := haway'
  have hopen : current.state.Open := by simp [SessionState.Open, hstate]
  -- a session that was closed does not hand off
  have hended : ∀ {id reason : String} {ended : Session} {state : SessionState},
      id = parentId → state ≠ .handingOff →
      s'.sessions = s.sessions.set id (ended.ended state reason) → False := by
    rintro id reason ended state rfl hne hset
    rw [hset, Dict.get?_set_self, Option.some.injEq] at hcurrent'
    subst hcurrent'
    exact hne hstate'
  cases h with
  | registered => exact howes.elim
  | handedOff => exact howes.elim
  | rejected => exact howes.elim
  | authorized => exact .inl ⟨_, List.mem_cons_self, howes⟩
  | denied => exact .inl (owes_afterOpenError howes)
  | acquired => exact .inl ⟨_, List.mem_cons_self, howes⟩
  | notAcquired => exact .inl (owes_afterOpenError howes)
  | @connected o endpoint lifecycleId _ _ _ hset =>
      obtain ⟨hhandoff, hparent, hmode⟩ := howes
      cases hmode' : o.handoffMode with
      | none => exact absurd hmode' hmode
      | some mode =>
          cases mode with
          | replace =>
              refine .inl ⟨.closeSession parentId "handoff_replaced", ?_, rfl⟩
              simp [Task.afterConnect, hhandoff, hparent, hmode']
          | returnToOrigin =>
              refine .inr ⟨o.sessionId, _, by rw [hset, Dict.get?_set_self], ?_, hparent, ?_⟩
              · simp [Opening.connecting, Opening.acquiring, Opening.created, hmode']
              · simp [SessionState.Open]
  | notConnected => exact .inl (owes_afterOpenError howes)
  | stuck => exact .inl (owes_afterOpenError howes)
  | @returned task id parent _ hreturning _ _ hset =>
      have hid : id = parentId := by
        cases task with
        | handoffFailed => exact (Option.some.inj hreturning).symm.trans howes
        | restoreParent => exact Option.some.inj (hreturning.symm.trans howes)
        | _ => cases hreturning
      subst hid
      rw [hset, Dict.get?_set_self, Option.some.injEq] at hcurrent'
      simp [← hcurrent'] at hstate'
  | @closed task sessionId _ _ _ _ _ hclosing _ _ hset =>
      cases task with
      | closeSession id reason =>
          cases hclosing
          exact (hended howes (by simp) hset).elim
      | awaitTransfer => exact howes.elim
      | _ => cases hclosing
  | @closeFailed task sessionId _ _ _ _ _ _ _ hclosing _ _ _ _ hset =>
      cases task with
      | closeSession id reason =>
          cases hclosing
          exact (hended howes (by simp) hset).elim
      | awaitTransfer => exact howes.elim
      | _ => cases hclosing
  | idle hopening hreturning hclosing =>
      cases task with
      | handoffFailed id e => exact absurd hstate (hreturning _ _ (congrArg some howes) hcurrent)
      | restoreParent => exact absurd hstate (hreturning _ _ howes hcurrent)
      | closeSession id reason =>
          cases howes
          exact absurd hopen (hclosing _ _ _ _ rfl hcurrent)
      | authorize | acquire | connect => cases hopening
      | _ => exact howes.elim

/-- A child that returns stays open, or it is closed and its parent will be restored. -/
theorem Moves.owed_child (h : Moves R answers s task next s') (hready : task.Ready s) {id : String}
    (hchild : s.ReturnChild parentId id)
    (hcloses : ∀ closing ∈ task.closing? answers, ∀ child ∈ s.sessions.get? closing.1,
      child.state.Open → child.returnToOrigin = true →
      child.parentSessionId = some parentId → s.Closes R answers child) :
    (∃ t ∈ next, t.Owes s' parentId) ∨ ∃ id, s'.ReturnChild parentId id := by
  obtain ⟨child, hget, hreturn, hparent, hopen⟩ := hchild
  cases h.change hget with
  | kept hget' => exact .inr ⟨id, child, hget', hreturn, hparent, hopen⟩
  | opened hopening =>
      obtain ⟨child', hget', hcoming⟩ := World.coming_of_ready hready hopening
      rw [hget, Option.some.injEq] at hget'
      subst hget'
      simp only [SessionState.Open, SessionState.Coming, List.mem_cons, List.not_mem_nil,
        or_false] at hopen hcoming
      rcases hopen with h | h <;> simp [h] at hcoming
  | handedOff _ hget' =>
      exact .inr ⟨id, _, hget', hreturn, hparent, by simp [SessionState.Open]⟩
  | returned _ _ hget' => exact .inr ⟨id, _, hget', hreturn, hparent, by simp [SessionState.Open]⟩
  | closed _ _ _ hget' hnext =>
      refine .inl ⟨_, hnext ▸ List.mem_cons_self, ?_⟩
      refine Option.bind_eq_some_iff.mpr ⟨_, hget', ?_⟩
      exact (if_pos hreturn).trans hparent
  | closeFailed _ hclosing _ _ _ hraised hcleaned =>
      obtain ⟨hstream, hhold⟩ := hcloses _ hclosing child hget hopen hreturn hparent
      rcases hraised with ⟨hsome, hraises⟩ | rfl
      · rcases hstream with hnone | hnone
        · exact absurd hnone hsome
        · exact absurd hnone hraises
      · cases hcleaned with
        | unknown hlifecycle hdone hunknown =>
            obtain ⟨hservice, hheld, _⟩ := hhold _ hlifecycle hdone
            exact (hunknown.elim hservice hheld).elim
        | unfit hlifecycle hdone _ hunfit => exact absurd (hhold _ hlifecycle hdone).2.2 hunfit

/-! ## Runs -/

/-- Step lemma: what is owed stays owed until it is settled. -/
theorem World.owed_of_step {w w' : World σ} {l : Label σ} {r : Except Exn Unit}
    (hw : w.WellFormed) (howed : ∀ parentId, w.state.Away parentId → w.Owed parentId)
    (hreturns : w.ReturnsSucceed R l) (hsteps : World.Steps R l w r w') (parentId : String)
    (haway' : w'.state.Away parentId) : w'.Owed parentId := by
  cases hsteps with
  | supervised =>
      have howes : ∀ t ∈ w.tasks, t.Owes w.state parentId → Task.Owes _ parentId t :=
        fun t _ ht => ht.congr fun _ _ => rfl
      exact (howed parentId haway').imp_left fun ⟨t, hmem, ht⟩ => ⟨t, hmem, howes t hmem ht⟩
  | @moved task rest next _ s' htask hbegun hperm hmoves =>
      have hready : task.Ready w.state :=
        (mem_tasks_of_perm hbegun hperm List.mem_cons_self).elim ready_of_entry (hw.ready task)
      have hnext : ((∃ t ∈ next, t.Owes s' parentId) ∨ ∃ id, s'.ReturnChild parentId id) →
          Owed ⟨s', rest ++ next⟩ parentId := fun h =>
        h.imp_left fun ⟨t, hmem, ht⟩ => ⟨t, List.mem_append_right _ hmem, ht⟩
      -- the session handed off before
      have hold : w.state.Away parentId → Owed ⟨s', rest ++ next⟩ parentId := by
        intro haway
        rcases howed parentId haway with ⟨t, hmem, ht⟩ | ⟨id, hchild⟩
        · rcases List.mem_cons.mp (hperm.mem_iff.mp (List.mem_append_right _ hmem)) with rfl | hrest
          · exact hnext (hmoves.owed_next ht haway haway')
          · refine .inl ⟨t, List.mem_append_left _ hrest, ht.congr fun id hstored => ?_⟩
            exact (hmoves.map_fresh id).resolve_right fun hnew => hstored hnew.1
        · refine hnext (hmoves.owed_child hready hchild fun closing hclosing child hget hopen
            hreturn hparent => ?_)
          exact hreturns task htask closing hclosing child hget hopen hreturn
            ⟨parentId, hparent, haway⟩
      obtain ⟨current', hget', hstate'⟩ := haway'
      rcases hmoves.map_fresh parentId with hsame | ⟨_, o, _, _, hcreated⟩
      · rw [hget', Option.map_some, eq_comm, Option.map_eq_some_iff] at hsame
        obtain ⟨current, hget, _⟩ := hsame
        cases hmoves.change hget with
        | kept h' =>
            rw [hget', Option.some.injEq] at h'
            exact hold ⟨current, hget, h' ▸ hstate'⟩
        | opened _ h' hstate =>
            rw [hget', Option.some.injEq] at h'
            simp [← h', hstate'] at hstate
        | handedOff _ _ hnew =>
            rcases hnew with ⟨o, hnext', howes⟩ | ⟨e, hnext'⟩
            · exact hnext (.inl ⟨.authorize o, hnext' ▸ List.mem_cons_self, howes⟩)
            · exact hnext (.inl ⟨.handoffFailed parentId e, hnext' ▸ List.mem_cons_self, rfl⟩)
        | returned hstate => exact hold ⟨current, hget, hstate⟩
        | closed _ _ _ h' =>
            rw [hget', Option.some.injEq] at h'
            simp [h', Session.ended] at hstate'
        | closeFailed _ _ _ _ h' =>
            rw [hget', Option.some.injEq] at h'
            simp [h', Session.ended] at hstate'
      · rw [hget', Option.some.injEq] at hcreated
        simp [hcreated, Opening.created] at hstate'

/-- In every run in which children that return are closed without an exception, a
session that hands off while no operation is under way has such a child, and the
child is open. -/
theorem no_stranded_parent {supervisor : String → Supervisor.World σ} {w : World σ}
    (hrun : Machine.Run (World.step R) (fun w l => w.Fresh l ∧ w.ReturnsSucceed R l)
      (World.initial supervisor) w) (hidle : w.tasks = []) {parentId : String}
    (haway : w.state.Away parentId) : ∃ id, w.state.ReturnChild parentId id := by
  have howed : ∀ parentId, w.state.Away parentId → w.Owed parentId :=
    World.run_invariant (P := fun w => ∀ parentId, w.state.Away parentId → w.Owed parentId)
      World.wellFormed_initial
      (fun parentId ⟨current, hget, _⟩ => by simp [World.initial] at hget)
      (fun _ _ hok => hok.1) hrun
      fun _ _ _ _ hok hw h hsteps => World.owed_of_step hw h hok.2 hsteps
  refine (howed parentId haway).resolve_left ?_
  rintro ⟨t, hmem, _⟩
  simp [hidle] at hmem

/-- While `door` has the caller, `menu` hands off. -/
theorem no_stranded_parent_of_door :
    ∃ w, Machine.Run (World.step (scripted 0))
        (fun w l => w.Fresh l ∧ w.ReturnsSucceed (scripted 0) l)
        (World.initial scriptedSupervisor) w ∧ w.state.Away "p" ∧
      ∃ id, w.state.ReturnChild "p" id := by
  have hexec : ((Machine.exec (World.step (scripted 0))
      (fun w l => w.Fresh l ∧ w.ReturnsSucceed (scripted 0) l) (World.initial scriptedSupervisor)
      (openMenu "p" "1" ++ handoffToDoor "p" "c" "2" true ++
        [⟨.call (.closeSession "c" "caller_closed"), scriptedAnswers "3" true true⟩,
          ⟨.resume (.restoreParent "c" none), scriptedAnswers "3" true true⟩] ++
        handoffToDoor "p" "d" "4" true)).map
      fun w => (w.tasks, decide (w.state.Away "p"))) = some ([], true) := by decide +kernel
  obtain ⟨w, hw, hobserved⟩ := Option.map_eq_some_iff.mp hexec
  rw [Prod.mk.injEq] at hobserved
  have hrun := Machine.run_of_exec hw
  have haway := of_decide_eq_true hobserved.2
  exact ⟨w, hrun, haway, no_stranded_parent hrun hobserved.1 haway⟩

/-- A child whose stream cannot be closed does not return. -/
theorem parent_stranded_by_failing_close :
    ¬ ∀ (R : Setup Supervisor.Script) (supervisor : String → Supervisor.World Supervisor.Script)
        (w : World Supervisor.Script) (parentId : String),
      Machine.Run (World.step R) World.Fresh (World.initial supervisor) w → w.tasks = [] →
        w.state.Away parentId → ∃ id, w.state.ReturnChild parentId id := by
  intro hall
  have hexec : ((Machine.exec (World.step (scripted 0)) World.Fresh
      (World.initial scriptedSupervisor) (openMenu "p" "1" ++ handoffToDoor "p" "c" "2" true ++
        [⟨.call (.closeSession "c" "caller_closed"), scriptedAnswers "3" true false⟩])).map
      fun w => (w.tasks, decide (w.state.Away "p"), decide (∀ id child,
        w.state.sessions.get? id = some child → child.returnToOrigin = true →
          ¬ child.state.Open))) = some ([], true, true) := by decide +kernel
  obtain ⟨w, hw, hobserved⟩ := Option.map_eq_some_iff.mp hexec
  rw [Prod.mk.injEq, Prod.mk.injEq] at hobserved
  obtain ⟨id, child, hget, hreturn, _, hopen⟩ := hall _ _ w "p" (Machine.run_of_exec hw)
    hobserved.1 (of_decide_eq_true hobserved.2.1)
  exact of_decide_eq_true hobserved.2.2 id child hget hreturn hopen

end UltimateBBSBox.Router

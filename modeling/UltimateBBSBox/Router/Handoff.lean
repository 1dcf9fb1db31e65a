import UltimateBBSBox.Library.Forest
import UltimateBBSBox.Router.Steps

/-!
# Handoffs and the sessions of one tree

A handoff puts a new session below the one it is made from.  A session that is
open or being opened has a token, and one that hands off has handed it down.
While every handing-off session that becomes active again has no other session
below it that is open or being opened, tokens are chained in every tree
(`Exclusive`), so at most one session of a tree is active.

`close_session` returns to the parent of whatever session it closes, also of one
whose own opening failed long ago.  That is how two sessions of a tree become
active (`handoff_not_exclusive`).
-/

namespace UltimateBBSBox.Router

open Act Relation

variable {σ : Type}

/-- `child` was opened with `parent` as its parent session. -/
def State.Parent (s : State σ) (parent child : String) : Prop :=
  ∃ current, s.sessions.get? child = some current ∧ current.parentSessionId = some parent

/-- The session is handing off. -/
def State.Away (s : State σ) (id : String) : Prop :=
  ∃ current, s.sessions.get? id = some current ∧ current.state = .handingOff

instance (s : State σ) (id : String) : Decidable (s.Away id) :=
  decidable_of_iff (∃ current ∈ s.sessions.get? id, current.state = .handingOff) Iff.rfl

namespace World

variable (w : World σ)

/-- The session is open or being opened. -/
def Token (id : String) : Prop :=
  (∃ current, w.state.sessions.get? id = some current ∧ current.state.Open) ∨
    id ∈ w.tasks.filterMap Task.opening?

/-- Parents are known and above their children, and tokens are chained. -/
structure Exclusive : Prop where
  stored : ∀ parent child, w.state.Parent parent child → w.state.sessions.get? parent ≠ none
  acyclic : ∀ id, ¬ TransGen w.state.Parent id id
  chained : Forest.Chained w.state.Parent w.Token w.state.Away

variable (l : Label σ)

/-- Sessions are opened directly, or by `handoff`. -/
def OpensDirectly : Prop :=
  match taskOf l with
  | some (.openSession o) => o.parentSessionId = none
  | _ => True

instance : Decidable (OpensDirectly l) :=
  show Decidable
    (match taskOf l with
      | some (.openSession o) => o.parentSessionId = none
      | _ => True) from
  match taskOf l with
  | some (.openSession o) => inferInstanceAs (Decidable (o.parentSessionId = none))
  | none | some (.authorize _) | some (.acquire _) | some (.connect _) | some (.handoff _ _ _ _ _ _)
  | some (.handoffFailed _ _) | some (.closeSession _ _) | some (.restoreParent _ _)
  | some (.transfer _ _) | some (.awaitTransfer _ _) => instDecidableTrue

/-- A session that hands off becomes active again only if no other session below
it is open or being opened. -/
def ReturnsAlone : Prop :=
  ∀ task ∈ taskOf l, ∀ parent ∈ task.returning? w.state, w.state.Away parent →
    ∀ id, w.Token id → id ≠ parent → ¬ TransGen w.state.Parent parent id

variable {w}

/-! ## Steps -/

variable {R : Setup σ} {w' : World σ} {r : Except Exn Unit} {l : Label σ}

/-- What a session was created with decides who its parent is. -/
theorem parent_iff {s s' : State σ} {child : String}
    (hsame : (s'.sessions.get? child).map Session.fresh = (s.sessions.get? child).map Session.fresh)
    (parent : String) : s'.Parent parent child ↔ s.Parent parent child := by
  have hhalf : ∀ {s s' : State σ},
      (s'.sessions.get? child).map Session.fresh = (s.sessions.get? child).map Session.fresh →
      s.Parent parent child → s'.Parent parent child := by
    rintro s s' hsame ⟨current, hget, hparent⟩
    rw [hget, Option.map_some, Option.map_eq_some_iff] at hsame
    obtain ⟨current', hget', hfresh⟩ := hsame
    obtain ⟨_, _, _, _, hparentId, _⟩ := Session.eq_of_fresh hfresh
    exact ⟨current', hget', hparentId.trans hparent⟩
  exact ⟨hhalf hsame.symm, hhalf hsame⟩

theorem parent_congr {s s' : State σ}
    (hsame : ∀ id, (s'.sessions.get? id).map Session.fresh = (s.sessions.get? id).map Session.fresh) :
    s'.Parent = s.Parent :=
  funext fun parent => funext fun child => propext (parent_iff (hsame child) parent)

theorem isSome_congr {s s' : State σ} {id : String}
    (hsame : (s'.sessions.get? id).map Session.fresh = (s.sessions.get? id).map Session.fresh)
    (hstored : s.sessions.get? id ≠ none) : s'.sessions.get? id ≠ none := by
  intro hnone
  rw [hnone, Option.map_none, eq_comm, Option.map_eq_none_iff] at hsame
  exact hstored hsame

section Moved

variable {task : Task} {rest next : List Task} {s' : State σ}

/-- A token after a move was one before it, or belongs to a session that is new. -/
theorem token_of_moved (hbegun : ∀ t ∈ begun l, t.Entry)
    (hperm : (begun l ++ w.tasks).Perm (task :: rest))
    (hmoves : Moves R l.answers w.state task next s') {id : String}
    (htoken : Token ⟨s', rest ++ next⟩ id) :
    w.Token id ∨ (w.state.sessions.get? id = none ∧
      ∃ o : Opening, next = [.authorize o] ∧ o.sessionId = id) := by
  have hopening : task.opening? = some id → w.Token id := fun h => .inr <|
    (openings_perm hbegun hperm).mem_iff.mpr <| List.mem_filterMap.mpr ⟨task, by simp, h⟩
  rcases htoken with ⟨current', hget', hopen⟩ | hid
  · rcases hmoves.map_fresh id with hsame | ⟨hnone, o, hnext, hid, _⟩
    · rw [hget', Option.map_some, eq_comm, Option.map_eq_some_iff] at hsame
      obtain ⟨current, hget, _⟩ := hsame
      have hold : current.state.Open → w.Token id := fun hopen => .inl ⟨current, hget, hopen⟩
      cases hmoves.change hget with
      | kept h' =>
          rw [hget', Option.some.injEq] at h'
          exact .inl (hold (h' ▸ hopen))
      | opened h' => exact .inl (hopening h')
      | handedOff hstate => exact .inl (hold (by simp [SessionState.Open, hstate]))
      | returned hstate => exact .inl (hold (by simp [SessionState.Open, hstate]))
      | closed _ _ _ h' =>
          rw [hget', Option.some.injEq] at h'
          simp [h', Session.ended, SessionState.Open] at hopen
      | closeFailed _ _ _ _ h' =>
          rw [hget', Option.some.injEq] at h'
          simp [h', Session.ended, SessionState.Open] at hopen
    · exact .inr ⟨hnone, o, hnext, hid⟩
  · rw [List.filterMap_append, List.mem_append] at hid
    rcases hid with hid | hid
    · refine .inl (.inr ((openings_perm hbegun hperm).mem_iff.mpr ?_))
      obtain ⟨t, ht, h⟩ := List.mem_filterMap.mp hid
      exact List.mem_filterMap.mpr ⟨t, List.mem_cons_of_mem _ ht, h⟩
    · rcases hmoves.registers_cases with ⟨_, hsame⟩ | ⟨o, _, rfl, hnone, _⟩ |
        ⟨_, _, _, _, o, _, rfl, _, _, hnone, _⟩
      · exact .inl (hopening (hsame id hid))
      · rw [List.mem_singleton.mp hid]
        exact .inr ⟨hnone, o, rfl, rfl⟩
      · rw [List.mem_singleton.mp hid]
        exact .inr ⟨hnone, o, rfl, rfl⟩

/-- A token that was handed down is so after the move, unless the move returns to it. -/
theorem away_of_moved (hready : task.Ready w.state)
    (hmoves : Moves R l.answers w.state task next s') {id : String}
    (hended : ∀ current, s'.sessions.get? id = some current →
      current.state ∉ [SessionState.closed, .failed]) (haway : w.state.Away id) :
    s'.Away id ∨ task.returning? w.state = some id := by
  obtain ⟨current, hget, hstate⟩ := haway
  cases hmoves.change hget with
  | kept h' => exact .inl ⟨current, h', hstate⟩
  | opened h' =>
      obtain ⟨current', hget', hcoming⟩ := coming_of_ready hready h'
      rw [hget, Option.some.injEq] at hget'
      simp [← hget', SessionState.Coming, hstate] at hcoming
  | handedOff hactive =>
      rw [hstate] at hactive
      cases hactive
  | returned _ hreturning => exact .inr hreturning
  | closed _ _ _ h' => exact absurd (by simp [Session.ended]) (hended _ h')
  | closeFailed _ _ _ _ h' => exact absurd (by simp [Session.ended]) (hended _ h')

end Moved

/-- A session with a token has not ended. -/
theorem not_ended_of_token (hw : w.WellFormed) {id : String} (htoken : w.Token id)
    {current : Session} (hget : w.state.sessions.get? id = some current) :
    current.state ∉ [SessionState.closed, .failed] := by
  rcases htoken with ⟨current', hget', hopen⟩ | hid
  · rw [hget, Option.some.injEq] at hget'
    subst hget'
    intro hmem
    rcases List.mem_pair.mp hmem with h | h <;> simp [h, SessionState.Open] at hopen
  · obtain ⟨t, ht, hopening⟩ := List.mem_filterMap.mp hid
    obtain ⟨current', hget', hcoming⟩ := coming_of_ready (hw.ready t ht) hopening
    rw [hget, Option.some.injEq] at hget'
    subst hget'
    intro hmem
    rcases List.mem_pair.mp hmem with h | h <;> simp [h, SessionState.Coming] at hcoming

/-- A session that is new is a leaf below its parent. -/
theorem grows_of_created {s s' : State σ} {o : Opening}
    (hstored : ∀ parent child, s.Parent parent child → s.sessions.get? parent ≠ none)
    (hnew : s.sessions.get? o.sessionId = none)
    (hknown : ∀ parent, o.parentSessionId = some parent → s.sessions.get? parent ≠ none)
    (hsame : ∀ id, id ≠ o.sessionId →
      (s'.sessions.get? id).map Session.fresh = (s.sessions.get? id).map Session.fresh)
    (hcreated : s'.sessions.get? o.sessionId = some o.created) :
    Forest.Grows s.Parent s'.Parent o.sessionId {parent | o.parentSessionId = some parent} where
  iff parent child := by
    by_cases hchild : child = o.sessionId
    · subst hchild
      simp [State.Parent, hcreated, hnew, Opening.created]
    · simp [parent_iff (hsame child hchild), hchild]
  childless child h := hstored _ _ h hnew
  orphan parent := by
    rintro ⟨current, hget, _⟩
    simp [hnew] at hget
  notMem h := hknown _ h hnew

/-- Step lemma: tokens stay chained. -/
theorem Exclusive.of_step (h : w.Exclusive) (hw : w.WellFormed) (hdirect : OpensDirectly l)
    (halone : w.ReturnsAlone l) (hsteps : Steps R l w r w') : w'.Exclusive := by
  have hw' := hsteps.wellFormed hw
  have hdirect : ∀ o, taskOf l = some (.openSession o) → o.parentSessionId = none := fun o htask => by
    unfold OpensDirectly at hdirect
    rw [htask] at hdirect
    exact hdirect
  cases hsteps with
  | supervised => exact ⟨h.stored, h.acyclic, h.chained⟩
  | @moved task rest next _ s' htask hbegun hperm hmoves =>
      have hready : task.Ready w.state :=
        (mem_tasks_of_perm hbegun hperm List.mem_cons_self).elim ready_of_entry (hw.ready task)
      have haway : ∀ id, Token ⟨s', rest ++ next⟩ id → w.state.Away id →
          s'.Away id ∨ task.returning? w.state = some id := fun id htoken =>
        away_of_moved hready hmoves fun _ hget => not_ended_of_token hw' htoken hget
      -- a new session, below the sessions that hand down their tokens to it
      have hgrown : ∀ o : Opening, next = [.authorize o] →
          w.state.sessions.get? o.sessionId = none →
          (∀ parent, o.parentSessionId = some parent → w.state.sessions.get? parent ≠ none) →
          (∀ id, id ≠ o.sessionId → (s'.sessions.get? id).map Session.fresh =
            (w.state.sessions.get? id).map Session.fresh) →
          s'.sessions.get? o.sessionId = some o.created → task.returning? w.state = none →
          (∀ parent, o.parentSessionId = some parent →
            w.Token parent ∧ ¬ w.state.Away parent ∧ s'.Away parent) →
          Exclusive ⟨s', rest ++ next⟩ := by
        intro o hnext hnew hknown hsame hcreated hreturning hparents
        have hgrows := grows_of_created h.stored hnew hknown hsame hcreated
        refine ⟨fun parent child hparent => ?_, hgrows.acyclic h.acyclic,
          h.chained.of_grows hgrows (fun id htoken => ?_) hparents fun id htoken hid => ?_⟩
        · have hold : w.state.sessions.get? parent ≠ none := by
            rcases (hgrows.iff _ _).mp hparent with hparent | ⟨_, hparent⟩
            · exact h.stored _ _ hparent
            · exact hknown _ hparent
          exact isSome_congr (hsame parent fun heq => hold (heq ▸ hnew)) hold
        · rcases token_of_moved hbegun hperm hmoves htoken with htoken | ⟨_, o', hnext', rfl⟩
          · exact .inr htoken
          · rw [hnext, List.singleton_inj, Task.authorize.injEq] at hnext'
            exact .inl (by rw [hnext'])
        · exact (haway id htoken hid).resolve_right (by simp [hreturning])
      rcases hmoves.registers_cases with ⟨hsame, hopening⟩ | ⟨o, rfl, hnext, hnew, hset⟩ |
        ⟨parentId, _, _, parent, o, ⟨_, _, rfl⟩, hnext, hparent, hstate, hnew, _, hparentId, _, hset⟩
      · have hparent := parent_congr hsame
        -- no session is new
        have htoken : ∀ id, Token ⟨s', rest ++ next⟩ id → w.Token id := fun id htoken => by
          rcases token_of_moved hbegun hperm hmoves htoken with htoken | ⟨hnone, o, rfl, rfl⟩
          · exact htoken
          · obtain ⟨current, hget, _⟩ := coming_of_ready hready (hopening _ List.mem_cons_self)
            simp [hnone] at hget
        refine ⟨fun parent child hchild => ?_, ?_, ?_⟩
        · exact isSome_congr (hsame parent) (h.stored parent child (hparent ▸ hchild))
        · rw [hparent]
          exact h.acyclic
        · rw [hparent]
          refine h.chained.of_subset htoken fun id hid hdown => ?_
          refine (haway id hid hdown).imp_right fun hreturning other hother hne => ?_
          exact halone task htask id hreturning hdown other (htoken other hother) hne
      · refine hgrown o hnext hnew (fun parent hparent => ?_) (fun id hid => ?_) ?_ rfl
          fun parent hparent => ?_
        · rw [hdirect o htask] at hparent
          cases hparent
        · rw [hset, Dict.get?_set_ne _ _ hid]
        · rw [hset, Dict.get?_set_self]
        · rw [hdirect o htask] at hparent
          cases hparent
      · have hne : parentId ≠ o.sessionId := fun heq => by simp [← heq, hparent] at hnew
        refine hgrown o hnext hnew (fun id hid => ?_) (fun id hid => ?_) ?_ rfl fun id hid => ?_
        · rw [hparentId, Option.some.injEq] at hid
          simp [← hid, hparent]
        · rw [hset, Dict.get?_set_ne _ _ hid]
          exact map_fresh_of_set (by rfl) hparent (by rfl) id
        · rw [hset, Dict.get?_set_self]
        · rw [hparentId, Option.some.injEq] at hid
          subst hid
          refine ⟨.inl ⟨parent, hparent, by simp [hstate, SessionState.Open]⟩, ?_, ?_⟩
          · rintro ⟨current, hget, haway⟩
            rw [hparent, Option.some.injEq] at hget
            simp [← hget, hstate] at haway
          · exact ⟨_, by rw [hset, Dict.get?_set_ne _ _ hne, Dict.get?_set_self], rfl⟩

theorem exclusive_initial {supervisor : String → Supervisor.World σ} :
    (initial supervisor).Exclusive := by
  have hnone : ∀ parent child, ¬ (initial supervisor).state.Parent parent child := by
    rintro parent child ⟨current, hget, _⟩
    simp [initial] at hget
  refine ⟨fun parent child h => absurd h (hnone _ _), fun id h => ?_, fun a b ha => ?_⟩
  · obtain ⟨_, hstep, _⟩ := TransGen.head'_iff.mp h
    exact hnone _ _ hstep
  · simp [Token, initial] at ha

end World

/-! ## Runs -/

/-- No two sessions that hang below one session, or are it, are both active; and no
session is active while one that it handed off to is active or hands off. -/
def State.HandoffExclusive (s : State σ) : Prop :=
  (∀ root id id' current current', ReflTransGen s.Parent root id →
    ReflTransGen s.Parent root id' → s.sessions.get? id = some current →
    s.sessions.get? id' = some current' → current.state = .active → current'.state = .active →
      id = id') ∧
  ∀ id id' parent child, s.Parent id id' → s.sessions.get? id = some parent →
    s.sessions.get? id' = some child → (child.state = .active ∨ child.state = .handingOff) →
      parent.state ≠ .active

theorem World.Exclusive.handoffExclusive {w : World σ} (h : w.Exclusive) :
    w.state.HandoffExclusive := by
  have hactive : ∀ {id : String} {current : Session}, w.state.sessions.get? id = some current →
      current.state = .active → w.Token id ∧ ¬ w.state.Away id := by
    refine fun {id current} hget hstate => ⟨.inl ⟨current, hget, by simp [hstate, SessionState.Open]⟩, ?_⟩
    rintro ⟨current', hget', haway⟩
    rw [hget, Option.some.injEq] at hget'
    simp [← hget', hstate] at haway
  refine ⟨fun root id id' current current' hid hid' hget hget' hstate hstate' => ?_,
    fun id id' parent child hparent hget hget' hchild hstate => ?_⟩
  · exact h.chained.eq_of_not_away ⟨root, hid, hid'⟩ (hactive hget hstate).1
      (hactive hget' hstate').1 (hactive hget hstate).2 (hactive hget' hstate').2
  · have htoken : w.Token id' := .inl ⟨child, hget', by simpa [SessionState.Open] using hchild⟩
    have hbelow : TransGen w.state.Parent id id' := .single hparent
    have hne : id ≠ id' := fun heq => h.acyclic id (heq ▸ hbelow)
    rcases h.chained id id' (hactive hget hstate).1 htoken hne
      ⟨id, .refl, hbelow.to_reflTransGen⟩ with ⟨_, haway⟩ | ⟨habove, _⟩
    · exact (hactive hget hstate).2 haway
    · exact h.acyclic id (hbelow.trans habove)

/-- In every run in which sessions return only to parents with nothing else below
them, handoffs are exclusive. -/
theorem handoff_exclusive {R : Setup σ} {supervisor : String → Supervisor.World σ} {w : World σ}
    (hrun : Machine.Run (World.step R)
      (fun w l => w.Fresh l ∧ World.OpensDirectly l ∧ w.ReturnsAlone l)
      (World.initial supervisor) w) : w.state.HandoffExclusive :=
  (World.run_invariant World.wellFormed_initial World.exclusive_initial (fun _ _ hok => hok.1) hrun
    fun _ _ _ _ hok hw h hsteps => h.of_step hw hok.2.1 hok.2.2 hsteps).handoffExclusive

/-- A session of `menu` hands off to `door` and gets the caller back. -/
theorem handoff_exclusive_after_return :
    ∃ w, Machine.Run (World.step (scripted 0))
        (fun w l => w.Fresh l ∧ World.OpensDirectly l ∧ w.ReturnsAlone l)
        (World.initial scriptedSupervisor) w ∧
      ((w.state.sessions.get? "p").map (·.state) = some .active ∧
        (w.state.sessions.get? "c").map (·.state) = some .closed) ∧
      w.state.HandoffExclusive := by
  have hexec : ((Machine.exec (World.step (scripted 0))
      (fun w l => w.Fresh l ∧ World.OpensDirectly l ∧
        ∀ task ∈ World.taskOf l, ∀ parent ∈ task.returning? w.state,
          (∀ id current, w.state.sessions.get? id = some current →
            current.state.Open → id = parent) ∧ w.tasks.filterMap Task.opening? = [])
      (World.initial scriptedSupervisor) (openMenu "p" "1" ++ handoffToDoor "p" "c" "2" true ++
        [⟨.call (.closeSession "c" "caller_closed"), scriptedAnswers "3" true true⟩,
          ⟨.resume (.restoreParent "c" none), scriptedAnswers "3" true true⟩])).map
      fun w => ((w.state.sessions.get? "p").map (·.state),
        (w.state.sessions.get? "c").map (·.state))) = some (some .active, some .closed) := by
    decide +kernel
  obtain ⟨w, hw, hobserved⟩ := Option.map_eq_some_iff.mp hexec
  rw [Prod.mk.injEq] at hobserved
  have hrun : Machine.Run (World.step (scripted 0))
      (fun w l => w.Fresh l ∧ World.OpensDirectly l ∧ w.ReturnsAlone l)
      (World.initial scriptedSupervisor) w := (Machine.run_of_exec hw).mono fun v l hok => by
      refine ⟨hok.1, hok.2.1, fun task htask parent hparent _ id htoken hne _ => hne ?_⟩
      obtain ⟨hopen, hopening⟩ := hok.2.2 task htask parent hparent
      rcases htoken with ⟨current, hget, hstate⟩ | hid
      · exact hopen id current hget hstate
      · simp [hopening] at hid
  exact ⟨w, hrun, hobserved, handoff_exclusive hrun⟩

/-- Closing a child whose own opening failed returns to the parent, which has
handed off to another child meanwhile. -/
theorem handoff_not_exclusive :
    ¬ ∀ (R : Setup Supervisor.Script) (supervisor : String → Supervisor.World Supervisor.Script)
        (w : World Supervisor.Script),
      Machine.Run (World.step R) (fun w l => w.Fresh l ∧ World.OpensDirectly l)
        (World.initial supervisor) w → w.state.HandoffExclusive := by
  intro hall
  have hexec : ((Machine.exec (World.step (scripted 0))
      (fun w l => w.Fresh l ∧ World.OpensDirectly l) (World.initial scriptedSupervisor)
      (openMenu "p" "1" ++ handoffToDoor "p" "c" "2" false ++
        [⟨.resume (.handoffFailed "p" ⟨.transportError, "connection refused"⟩),
          scriptedAnswers "3" true true⟩] ++ handoffToDoor "p" "d" "3" true ++
        [⟨.call (.closeSession "c" "caller_closed"), scriptedAnswers "4" true true⟩,
          ⟨.resume (.restoreParent "c" none), scriptedAnswers "4" true true⟩])).map
      fun w => ((w.state.sessions.get? "p").map (·.state), (w.state.sessions.get? "d").map
        fun child => (child.state, child.parentSessionId))) =
      some (some .active, some (.active, some "p")) := by decide +kernel
  obtain ⟨w, hw, hobserved⟩ := Option.map_eq_some_iff.mp hexec
  rw [Prod.mk.injEq] at hobserved
  obtain ⟨parent, hget, hparent⟩ := Option.map_eq_some_iff.mp hobserved.1
  obtain ⟨child, hget', hchild⟩ := Option.map_eq_some_iff.mp hobserved.2
  rw [Prod.mk.injEq] at hchild
  exact (hall _ _ w (Machine.run_of_exec hw)).2 "p" "d" parent child ⟨child, hget', hchild.2⟩ hget
    hget' (.inl hchild.1) hparent

end UltimateBBSBox.Router

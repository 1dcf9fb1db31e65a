import UltimateBBSBox.Router.Steps

/-!
# Only authorized routes reach the outside

Acquiring and connecting are tasks that follow an authorization, so whatever
session the supervisor, the stream resolver or a connector was called for had
its route validated before (`contacts_authorized`).  A denied request changes
nothing but its session (`denied_request_spec`).
-/

namespace UltimateBBSBox.Router

open Act SessionState

variable {σ : Type}

/-! ## Moves and the outside -/

/-- The session that the task may call the outside for. -/
def Task.authorized? : Task → Option String
  | .acquire o | .connect o => some o.sessionId
  | _ => none

namespace Moves

variable {R : Setup σ} {answers : Answers σ} {s s' : State σ} {task : Task} {next : List Task}

/-- Only acquiring and connecting call the outside. -/
theorem contacts_cases (h : Moves R answers s task next s') :
    s'.contacts = s.contacts ∨
      ∃ id, task.authorized? = some id ∧ s'.contacts = id :: s.contacts := by
  have hquiet : ∀ {s' : State σ}, s'.outgoing = s.outgoing → s'.contacts = s.contacts :=
    fun h => congrArg Prod.snd h
  cases h with
  | registered _ _ h' => exact .inl (hquiet h'.2.2)
  | handedOff _ _ _ _ _ h' => exact .inl (hquiet h'.2.2)
  | rejected _ _ _ h' => exact .inl (hquiet h'.2.2)
  | authorized _ _ _ _ h' => exact .inl (hquiet h'.2.2)
  | denied _ _ h' => exact .inl (hquiet h'.2.2)
  | acquired _ _ _ _ _ _ hcontacts => exact .inr ⟨_, rfl, hcontacts⟩
  | notAcquired _ _ _ _ _ hcontacts => exact .inr ⟨_, rfl, hcontacts⟩
  | connected _ _ _ _ _ _ hcontacts => exact .inr ⟨_, rfl, hcontacts⟩
  | notConnected _ _ _ _ _ hcontacts => exact .inr ⟨_, rfl, hcontacts⟩
  | stuck _ _ _ _ _ hcontacts => exact .inr ⟨_, rfl, hcontacts⟩
  | returned _ _ _ _ h' => exact .inl (hquiet h'.2.2)
  | closed _ _ _ _ _ _ houtgoing => exact .inl (hquiet houtgoing)
  | closeFailed _ _ _ _ _ _ _ _ houtgoing => exact .inl (hquiet houtgoing)
  | idle _ _ _ _ _ h' => exact .inl (hquiet h'.2.2)

/-- A task that may call the outside follows another one, or an authorization. -/
theorem authorized_next (h : Moves R answers s task next s') {t : Task} {id : String}
    (ht : t ∈ next) (hid : t.authorized? = some id) :
    task.authorized? = some id ∨ ∃ o declaration, task = .authorize o ∧ o.sessionId = id ∧
      Router.authorize R.site.registry o.request = .ok declaration ∧
      OriginOpen s o.request o.parentSessionId ∧
      s'.sessions.get? id = some (o.acquiring declaration.endpoint) := by
  have hafterOpenError : ∀ {o : Opening} {e : Exn}, t ∉ Task.afterOpenError o e := by
    intro o e ht
    unfold Task.afterOpenError at ht
    split at ht
    · rw [List.mem_singleton.mp ht] at hid
      cases hid
    · cases ht
  cases h with
  | registered => cases List.mem_singleton.mp ht; cases hid
  | handedOff => cases List.mem_singleton.mp ht; cases hid
  | rejected => cases List.mem_singleton.mp ht; cases hid
  | authorized hget hauthorize horigin hset =>
      cases List.mem_singleton.mp ht
      cases hid
      exact .inr ⟨_, _, rfl, rfl, hauthorize, horigin, by rw [hset, Dict.get?_set_self]⟩
  | denied => exact absurd ht hafterOpenError
  | acquired => cases List.mem_singleton.mp ht; exact .inl hid
  | notAcquired => exact absurd ht hafterOpenError
  | connected =>
      unfold Task.afterConnect at ht
      split at ht
      · cases List.mem_singleton.mp ht
        cases hid
      · cases ht
  | notConnected => exact absurd ht hafterOpenError
  | stuck => exact absurd ht hafterOpenError
  | returned => cases ht
  | closed => cases List.mem_singleton.mp ht; cases hid
  | closeFailed => cases ht
  | idle _ _ _ hnext =>
      obtain ⟨sessionId, call, rfl⟩ := hnext t ht
      cases hid

end Moves

/-! ## Validated routes -/

/-- In world `u` the route of a session is validated: the exposure of its target
permits it, and if it is a route via a service, then that service is the target
of the parent session, which is open. -/
structure RouteAuthorized (R : Setup σ) (u : World σ) (current : Session) : Prop where
  validating : ∃ o, Task.authorize o ∈ u.tasks ∧ o.created = current.fresh
  permitted : ∃ service, R.site.registry.find? current.targetService = some service ∧
    adminOnly service = false ∧
    ((current.routeType = .direct ∧ current.originService = none ∧
        service.exposure.mainMenu = true ∧ directAllowed service = true) ∨
      (current.routeType = .viaService ∧ ∃ parentId parent,
        current.parentSessionId = some parentId ∧
        u.state.sessions.get? parentId = some parent ∧
        (parent.state = .active ∨ parent.state = .handingOff) ∧
        current.originService = some parent.targetService ∧
        parent.targetService ∈ viaBbs service))

variable {R : Setup σ} {supervisor : String → Supervisor.World σ} {w w' : World σ} {l : Label σ}
  {r : Except Exn Unit}

theorem RouteAuthorized.of_fresh {u : World σ} {current current' : Session}
    (h : RouteAuthorized R u current) (hfresh : current'.fresh = current.fresh) :
    RouteAuthorized R u current' := by
  obtain ⟨_, htarget, horigin, hroute, hparent, _⟩ := Session.eq_of_fresh hfresh
  refine ⟨?_, ?_⟩
  · rw [hfresh]
    exact h.validating
  · rw [htarget, horigin, hroute, hparent]
    exact h.permitted

/-- What `open_session` checks before it goes on is what authorizes the route. -/
theorem routeAuthorized_of_authorize {u : World σ} {o : Opening} {declaration : Declaration}
    (htask : .authorize o ∈ u.tasks)
    (hauthorize : authorize R.site.registry o.request = .ok declaration)
    (horigin : OriginOpen u.state o.request o.parentSessionId) :
    RouteAuthorized R u (o.acquiring declaration.endpoint) := by
  obtain ⟨service, hservice, hadmin, hroute⟩ := authorize_eq_ok hauthorize
  refine ⟨⟨o, htask, rfl⟩, service, hservice, hadmin, ?_⟩
  rcases hroute with hdirect | ⟨hvia, claimed, hclaimed, hlisted⟩
  · exact .inl hdirect
  · obtain ⟨parentId, parent, hparent, hget, hopen, hmatches⟩ := horigin hvia
    rw [hclaimed, Option.some.injEq] at hmatches
    refine .inr ⟨hvia, parentId, parent, hparent, hget, ?_, ?_, hmatches ▸ hlisted⟩
    · simpa [SessionState.Open] using hopen
    · rw [hmatches]
      exact hclaimed

/-- The route of the session was validated on the way to `w`. -/
def AuthorizedBefore (R : Setup σ) (supervisor : String → Supervisor.World σ) (w : World σ)
    (id : String) : Prop :=
  ∃ current u, w.state.sessions.get? id = some current ∧
    Machine.Run (World.step R) World.Fresh (World.initial supervisor) u ∧
    Machine.Run (World.step R) World.Fresh u w ∧ RouteAuthorized R u current

/-- Nothing that happens later takes the authorization back. -/
theorem AuthorizedBefore.of_step {id : String} (h : AuthorizedBefore R supervisor w id)
    (hok : w.Fresh l) (hstep : w.step R l = some (r, w'))
    (hsame : (w'.state.sessions.get? id).map Session.fresh =
      (w.state.sessions.get? id).map Session.fresh) : AuthorizedBefore R supervisor w' id := by
  obtain ⟨current, u, hget, hbefore, hafter, hauthorized⟩ := h
  rw [hget, Option.map_some, Option.map_eq_some_iff] at hsame
  obtain ⟨current', hget', hfresh⟩ := hsame
  exact ⟨current', u, hget', hbefore, hafter.snoc hok hstep, hauthorized.of_fresh hfresh⟩

/-- Step lemma: sessions that are acquired or connected, or for which the outside
was called, are authorized. -/
theorem authorizedBefore_of_step (hw : w.WellFormed)
    (hrun : Machine.Run (World.step R) World.Fresh (World.initial supervisor) w)
    (hcontacts : ∀ id ∈ w.state.contacts, AuthorizedBefore R supervisor w id)
    (htasks : ∀ t ∈ w.tasks, ∀ id, t.authorized? = some id → AuthorizedBefore R supervisor w id)
    (hok : w.Fresh l) (hstep : w.step R l = some (r, w')) :
    (∀ id ∈ w'.state.contacts, AuthorizedBefore R supervisor w' id) ∧
      ∀ t ∈ w'.tasks, ∀ id, t.authorized? = some id → AuthorizedBefore R supervisor w' id := by
  have hsteps := World.steps_of_step hw hok hstep
  -- an authorized session is known, so it is not registered again
  have hkept : ∀ id, AuthorizedBefore R supervisor w id → AuthorizedBefore R supervisor w' id := by
    intro id h
    refine h.of_step hok hstep ?_
    obtain ⟨current, _, hget, _⟩ := h
    cases hsteps with
    | supervised => rfl
    | moved _ _ _ hmoves =>
        rcases hmoves.map_fresh id with hsame | ⟨hnone, _⟩
        · exact hsame
        · simp [hget] at hnone
  cases hsteps with
  | supervised => exact ⟨fun id hid => hkept id (hcontacts id hid),
      fun t ht id hid => hkept id (htasks t ht id hid)⟩
  | @moved task rest next _ s' _ hbegun hperm hmoves =>
      have hold : ∀ t ∈ task :: rest, ∀ id, t.authorized? = some id →
          AuthorizedBefore R supervisor ⟨s', rest ++ next⟩ id := fun t ht id hid => by
        rcases World.mem_tasks_of_perm hbegun hperm ht with hentry | hmem
        · cases t <;> first | exact hentry.elim | cases hid
        · exact hkept id (htasks t hmem id hid)
      refine ⟨fun id hid => ?_, fun t ht id hid => ?_⟩
      · rcases hmoves.contacts_cases with hsame | ⟨id', htask, hcons⟩
        · exact hkept id (hcontacts id (hsame ▸ hid))
        · rcases List.mem_cons.mp (hcons ▸ hid) with rfl | hid
          · exact hold task List.mem_cons_self _ htask
          · exact hkept id (hcontacts id hid)
      · rcases List.mem_append.mp ht with ht | ht
        · exact hold t (List.mem_cons_of_mem _ ht) id hid
        rcases hmoves.authorized_next ht hid with htask |
          ⟨o, declaration, rfl, rfl, hauthorize, horigin, hget⟩
        · exact hold task List.mem_cons_self id htask
        · have hmem : Task.authorize o ∈ w.tasks :=
            (World.mem_tasks_of_perm hbegun hperm List.mem_cons_self).resolve_left id
          exact ⟨_, w, hget, hrun, (Machine.Run.refl w).snoc hok hstep,
            routeAuthorized_of_authorize hmem hauthorize horigin⟩

/-! ## Denied requests -/

/-- A session without stream or hold that has ended. -/
def Session.Denied (current : Session) : Prop :=
  (current.state = .failed ∨ current.state = .closed) ∧ current.stream = none ∧
    current.lifecycleSessionId = none

theorem Moves.denied_kept {answers : Answers σ} {s s' : State σ} {task : Task} {next : List Task}
    (h : Moves R answers s task next s') (hready : task.Ready s) {id : String} {current : Session}
    (hget : s.sessions.get? id = some current) (hdenied : current.Denied) :
    ∃ current', s'.sessions.get? id = some current' ∧ current'.Denied := by
  obtain ⟨hstate, hstream, hlifecycle⟩ := hdenied
  cases h.change hget with
  | kept hget' => exact ⟨current, hget', hstate, hstream, hlifecycle⟩
  | opened hopening =>
      obtain ⟨current', hget', hcoming⟩ := World.coming_of_ready hready hopening
      rw [hget, Option.some.injEq] at hget'
      subst hget'
      rcases hstate with hstate | hstate <;> simp [SessionState.Coming, hstate] at hcoming
  | handedOff hactive => rcases hstate with hstate | hstate <;> simp [hstate] at hactive
  | returned hactive => rcases hstate with hstate | hstate <;> simp [hstate] at hactive
  | closed _ _ _ hget' => exact ⟨_, hget', .inr rfl, hstream, hlifecycle⟩
  | closeFailed _ _ _ hcurrent hget' =>
      rcases hcurrent with rfl | rfl <;> exact ⟨_, hget', .inl rfl, hstream, hlifecycle⟩

/-- Validating a request, or registering it, leaves the supervisor alone; if
validating raises, the session has failed. -/
theorem Moves.request_spec {answers : Answers σ} {s s' : State σ} {task : Task} {next : List Task}
    (h : Moves R answers s task next s') {o : Opening}
    (htask : task = .openSession o ∨ task = .authorize o) :
    s'.supervisor = s.supervisor ∧
      (task = .authorize o → (∃ e, next = Task.afterOpenError o e) →
        s'.sessions.get? o.sessionId = some (o.failed none)) := by
  rcases htask with rfl | rfl
  · cases h with
    | registered _ _ hquiet => exact ⟨hquiet.1, by simp⟩
    | returned hreturning => cases hreturning
    | closed _ hclosing => cases hclosing
    | closeFailed _ hclosing => cases hclosing
    | idle _ _ _ _ _ hquiet => exact ⟨hquiet.1, by simp⟩
  · cases h with
    | authorized _ _ _ _ hquiet =>
        refine ⟨hquiet.1, ?_⟩
        rintro _ ⟨e, hnext⟩
        unfold Task.afterOpenError at hnext
        split at hnext <;> cases hnext
    | denied _ hset hquiet => exact ⟨hquiet.1, fun _ _ => by rw [hset, Dict.get?_set_self]⟩
    | returned hreturning => cases hreturning
    | closed _ hclosing => cases hclosing
    | closeFailed _ hclosing => cases hclosing
    | idle hopening => cases hopening

/-! ## Runs -/

/-- The supervisor, a connector or the stream resolver is called for a session
only after its route was validated; a request that is denied changes no
supervised service, and its session has failed and never has a stream or a hold. -/
theorem contacts_authorized
    (hrun : Machine.Run (World.step R) World.Fresh (World.initial supervisor) w) :
    (∀ id ∈ w.state.contacts, AuthorizedBefore R supervisor w id) ∧
    ∀ o l r w', w.Fresh l → w.step R l = some (r, w') →
      (World.taskOf l = some (.openSession o) ∨ World.taskOf l = some (.authorize o)) →
      w'.state.supervisor = w.state.supervisor ∧
      ∀ e, r = .error e → World.taskOf l = some (.authorize o) →
        w'.state.sessions.get? o.sessionId = some (o.failed none) ∧
        ∀ w'', Machine.Run (World.step R) World.Fresh w' w'' →
          ∃ current, w''.state.sessions.get? o.sessionId = some current ∧ current.Denied := by
  have hw : w.WellFormed := World.wellFormed_of_run World.wellFormed_initial (fun _ _ h => h) hrun
  refine ⟨?_, fun o l r w' hok hstep htask => ?_⟩
  · -- induction over the run, with the tasks that are authorized
    have hinvariant : (∀ id ∈ w.state.contacts, AuthorizedBefore R supervisor w id) ∧
        ∀ t ∈ w.tasks, ∀ id, t.authorized? = some id → AuthorizedBefore R supervisor w id := by
      refine hrun.invariant_of_reached
        (P := fun w => (∀ id ∈ w.state.contacts, AuthorizedBefore R supervisor w id) ∧
          ∀ t ∈ w.tasks, ∀ id, t.authorized? = some id → AuthorizedBefore R supervisor w id)
        ⟨by simp [World.initial, State.contacts], by simp [World.initial]⟩
        fun u l r u' hreached hu hok hnext => ?_
      exact authorizedBefore_of_step
        (World.wellFormed_of_run World.wellFormed_initial (fun _ _ h => h) hreached) hreached
        hu.1 hu.2 hok hnext
    exact hinvariant.1
  · have hsteps := World.steps_of_step hw hok hstep
    have hw' := hsteps.wellFormed hw
    cases hsteps with
    | supervised haction => simp [World.taskOf, haction] at htask
    | moved htaskOf _ _ hmoves hraised =>
        rename_i task rest next s' _ _
        have htask' : task = .openSession o ∨ task = .authorize o := by
          simpa [htaskOf] using htask
        obtain ⟨hsame, hfailed⟩ := hmoves.request_spec htask'
        refine ⟨hsame, fun e he hauthorize => ?_⟩
        rw [htaskOf, Option.some.injEq] at hauthorize
        have hnext : next = Task.afterOpenError o e := by rw [hraised e he, hauthorize]; rfl
        refine ⟨hfailed hauthorize ⟨e, hnext⟩, fun w'' hlater => ?_⟩
        refine World.run_invariant (P := fun v => ∃ current,
          v.state.sessions.get? o.sessionId = some current ∧ current.Denied) hw'
          ⟨_, hfailed hauthorize ⟨e, hnext⟩, .inl rfl, rfl, rfl⟩ (fun _ _ h => h) hlater ?_
        rintro v l' r' v' hok' hv ⟨current, hget, hdenied⟩ hsteps'
        cases hsteps' with
        | supervised => exact ⟨current, hget, hdenied⟩
        | moved _ hbegun hperm hmoves' =>
            exact hmoves'.denied_kept
              ((World.mem_tasks_of_perm hbegun hperm List.mem_cons_self).elim
                World.ready_of_entry (hv.ready _)) hget hdenied

/-- `door` is reached via a session of `menu`. -/
theorem contacts_authorized_via_menu :
    ∃ w, Machine.Run (World.step (scripted 0)) World.Fresh (World.initial scriptedSupervisor) w ∧
      "c" ∈ w.state.contacts ∧ AuthorizedBefore (scripted 0) scriptedSupervisor w "c" := by
  have hexec : ((Machine.exec (World.step (scripted 0)) World.Fresh
      (World.initial scriptedSupervisor) (openMenu "p" "1" ++ handoffToDoor "p" "c" "2" true)).map
        fun w => decide ("c" ∈ w.state.contacts)) = some true := by decide +kernel
  obtain ⟨w, hw, hcontact⟩ := Option.map_eq_some_iff.mp hexec
  have hcontact := of_decide_eq_true hcontact
  have hrun := Machine.run_of_exec hw
  exact ⟨w, hrun, hcontact, (contacts_authorized hrun).1 "c" hcontact⟩

end UltimateBBSBox.Router

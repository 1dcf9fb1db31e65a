import UltimateBBSBox.Admin.Gate

/-!
# What a change of an account takes away

A session keeps the role its login found, for the lifetime of sessions; `SessionStore`
has no way to look an account up, and `AuthStore` no way to reach a session.  So a
change of an account takes effect at the next login: whatever a session may do, the
record allowed when the session was opened.
-/

namespace UltimateBBSBox.Admin

/-- Whether the stored record of a user allows a delegate to be called. -/
def allows (users : Users) (username : String) (delegate : Delegate) : Bool :=
  (users.get? username).any fun account =>
    account.enabled && decide (rank delegate.role ≤ rank account.role)

/-- A login is allowed what its record allows. -/
theorem allows_of_opens {app : DashboardApp} {users : Users} {session : Session} {time : ℚ}
    {delegate : Delegate} (h : Opens app users session time)
    (hrank : rank delegate.role ≤ rank session.role) :
    allows users session.username delegate := by
  obtain ⟨password, account, hauthenticated, hrole⟩ := h.authenticated
  obtain ⟨hget, henabled, -⟩ := AuthStore.authenticate_eq_some hauthenticated
  rw [← hrole] at hrank
  unfold allows
  rw [hget, Option.any_some, henabled, Bool.true_and]
  exact decide_eq_true hrank

theorem usersAt_append (initial : Users) (newer older : List Event) :
    usersAt initial (newer ++ older) = usersAt (usersAt initial older) newer := by
  induction newer with
  | nil => rfl
  | cons event newer ih =>
      cases event with
      | stored users => rfl
      | opened | removed => exact ih

/-- The accounts after a history were there before it or are written in it. -/
theorem usersAt_eq_or_mem (initial : Users) (history : List Event) :
    usersAt initial history = initial ∨ .stored (usersAt initial history) ∈ history := by
  induction history with
  | nil => exact .inl rfl
  | cons event older ih =>
      cases event with
      | stored users => exact .inr (List.mem_cons_self ..)
      | opened | removed => exact ih.imp_right (List.mem_cons_of_mem _)

/-- In every run, a delegate is called for a session that was opened, at most a lifetime
ago, by a login that the record of its user allowed that delegate.  Where the record no
longer allows it, the accounts as they are now were written after that login. -/
theorem revoked_at_login {app : DashboardApp} {users : Users} {maxEntries : ℕ} {w w' : World}
    {env : Environment} {request : Request} {outcome : Outcome}
    (hrun : Machine.Run (step app) (fun _ _ => True) (.fresh users maxEntries) w)
    (hstep : step app w (.request env request) = some (outcome, w')) :
    ∃ delegates, w'.invoked = w.invoked ++ delegates ∧ ∀ delegate ∈ delegates,
      ∃ token session newer older time, request.cookie "ubb_admin" = some token ∧
        w.sessions.get? token = some session ∧
        OpenedAt app users w.history token session newer older time ∧
        env.seen ≤ time + app.lifetime ∧
        allows (usersAt users older) session.username delegate ∧
        (¬ allows w.users session.username delegate → .stored w.users ∈ newer) := by
  have hconsistent := Consistent.run hrun
  obtain ⟨delegates, heq, hall⟩ := delegates_of_step hstep
  refine ⟨delegates, heq, fun delegate hmem => ?_⟩
  obtain ⟨env', request', hinput, -, -, token, session, form, hcookie, hget, hseen, -, -, hrank⟩ :=
    hall delegate hmem
  cases hinput
  obtain ⟨newer, older, time, hopened⟩ := hconsistent.sessions token session hget
  have hallowed := allows_of_opens hopened.opens hrank
  refine ⟨token, session, newer, older, time, hcookie, hget, hopened,
    hopened.opens.expires ▸ hseen, hallowed, fun hnot => ?_⟩
  have husers : w.users = usersAt (usersAt users older) newer := by
    rw [hconsistent.users, hopened.history_eq, usersAt_append]
    rfl
  rcases usersAt_eq_or_mem (usersAt users older) newer with hsame | hstored
  · rw [husers, hsame] at hnot
    exact absurd hallowed hnot
  · rw [husers]
    exact hstored

/-- The operator logs in, the account is switched off, and the session goes on. -/
theorem revoked_at_login_of_disabled :
    ∃ (w w' : World) (outcome : Outcome) (token : String) (session : Session)
      (newer older : List Event) (time : ℚ),
      w'.invoked = w.invoked ++ [.start "demo" "admin"] ∧
      ¬ allows w.users "olga" (.start "demo" "admin") ∧
      step plainApp w (.request (moment 2000 ⟨"r2", by decide⟩) startRequest) = some (outcome, w') ∧
      OpenedAt plainApp oneOperator w.history token session newer older time ∧
      allows (usersAt oneOperator older) session.username (.start "demo" "admin") := by
  have hexec : ((Machine.exec (step plainApp) (fun _ _ => True) (.fresh oneOperator 4096)
      [.request (moment 1000 ⟨"r1", by decide⟩) loginRequest, .disable "olga"]).bind fun w =>
        (step plainApp w (.request (moment 2000 ⟨"r2", by decide⟩) startRequest)).map fun result =>
          decide (result.2.invoked = w.invoked ++ [.start "demo" "admin"] ∧
            ¬ allows w.users "olga" (.start "demo" "admin"))) = some true := by
    decide +kernel
  obtain ⟨w, hw, hobserved⟩ := Option.bind_eq_some_iff.mp hexec
  obtain ⟨⟨outcome, w'⟩, hstep, hobserved⟩ := Option.map_eq_some_iff.mp hobserved
  obtain ⟨hinvoked, hnot⟩ := of_decide_eq_true hobserved
  obtain ⟨delegates, heq, hall⟩ := revoked_at_login (Machine.run_of_exec hw) hstep
  have hone : delegates = [.start "demo" "admin"] := List.append_cancel_left (heq ▸ hinvoked)
  obtain ⟨token, session, newer, older, time, -, -, hopened, -, hallowed, -⟩ :=
    hall (.start "demo" "admin") (by rw [hone]; exact List.mem_singleton_self _)
  exact ⟨w, w', outcome, token, session, newer, older, time, hinvoked, hnot, hstep, hopened, hallowed⟩

/-- Whether a change of the accounts returned. -/
def Outcome.returned : Outcome → Bool
  | .stored (.ok ()) => true
  | _ => false

theorem Outcome.eq_of_returned {outcome : Outcome} (h : outcome.returned) :
    outcome = .stored (.ok ()) := by
  cases outcome with
  | stored result =>
      cases result with
      | ok _ => rfl
      | error exn => cases h
  | answered result => cases h

/-- `disable` has returned, and a request with the session of the disabled account starts
a service. -/
theorem disabled_session_starts :
    ∃ (w₁ w w' : World) (outcome : Outcome),
      Machine.Run (step plainApp) (fun _ _ => True) (.fresh oneOperator 4096) w₁ ∧
      step plainApp w₁ (.disable "olga") = some (.stored (.ok ()), w) ∧
      (w.sessions.get? "q7pXl0").any (fun session => session.username == "olga") ∧
      ¬ allows w.users "olga" (.start "demo" "admin") ∧
      step plainApp w (.request (moment 2000 ⟨"r2", by decide⟩) startRequest) = some (outcome, w') ∧
      w'.invoked = w.invoked ++ [.start "demo" "admin"] := by
  have hexec : ((Machine.exec (step plainApp) (fun _ _ => True) (.fresh oneOperator 4096)
      [.request (moment 1000 ⟨"r1", by decide⟩) loginRequest]).bind fun w₁ =>
        (step plainApp w₁ (.disable "olga")).bind fun disabled =>
        (step plainApp disabled.2 (.request (moment 2000 ⟨"r2", by decide⟩) startRequest)).map
          fun result => decide (disabled.1.returned ∧
            (disabled.2.sessions.get? "q7pXl0").any (fun session => session.username == "olga") ∧
            ¬ allows disabled.2.users "olga" (.start "demo" "admin") ∧
            result.2.invoked = disabled.2.invoked ++ [.start "demo" "admin"])) = some true := by
    decide +kernel
  obtain ⟨w₁, hw₁, hobserved⟩ := Option.bind_eq_some_iff.mp hexec
  obtain ⟨⟨stored, w⟩, hdisable, hobserved⟩ := Option.bind_eq_some_iff.mp hobserved
  obtain ⟨⟨outcome, w'⟩, hstep, hobserved⟩ := Option.map_eq_some_iff.mp hobserved
  obtain ⟨hreturned, hsession, hnot, hinvoked⟩ := of_decide_eq_true hobserved
  have hstored : stored = .stored (.ok ()) := Outcome.eq_of_returned hreturned
  rw [hstored] at hdisable
  exact ⟨w₁, w, w', outcome, Machine.run_of_exec hw₁, hdisable, hsession, hnot, hstep, hinvoked⟩

end UltimateBBSBox.Admin

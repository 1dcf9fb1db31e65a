import UltimateBBSBox.Admin.Runs

/-!
# Delegates are called for entitled requests only

The session table and the history tell the same story: a session in the table was
opened by a login that the accounts of that moment authenticated, and nothing happened
to its token since (`Consistent`).  Every touch keeps this, so it holds in every run,
and what the handler demands of a session is what its login gave it.
-/

namespace UltimateBBSBox.Admin

open Act

/-! ## The history of a session -/

/-- The accounts after a history that started with `initial`. -/
def usersAt (initial : Users) : List Event → Users
  | [] => initial
  | .stored users :: _ => users
  | .opened .. :: older | .removed _ :: older => usersAt initial older

/-- Events that concern the session of a token. -/
def Event.about (token : String) : Event → Prop
  | .stored _ => False
  | .opened other _ _ => other = token
  | .removed other => other = token

/-- The session of a token was opened by a login, after `older` and before `newer`, and
has neither been removed nor replaced since. -/
structure OpenedAt (app : DashboardApp) (initial : Users) (history : List Event) (token : String)
    (session : Session) (newer older : List Event) (time : ℚ) : Prop where
  history_eq : history = newer ++ .opened token session time :: older
  untouched : ∀ event ∈ newer, ¬ event.about token
  opens : Opens app (usersAt initial older) session time

/-- The accounts and the sessions are what the history says. -/
structure Consistent (app : DashboardApp) (initial : Users) (w : World) : Prop where
  users : w.users = usersAt initial w.history
  sessions : ∀ token session, w.sessions.get? token = some session →
    ∃ newer older time, OpenedAt app initial w.history token session newer older time

namespace OpenedAt

variable {app : DashboardApp} {initial : Users} {history newer older : List Event}
  {token : String} {session : Session} {time : ℚ}

/-- An event about something else comes after it. -/
theorem cons (h : OpenedAt app initial history token session newer older time) {event : Event}
    (hevent : ¬ event.about token) :
    OpenedAt app initial (event :: history) token session (event :: newer) older time where
  history_eq := by rw [h.history_eq, List.cons_append]
  untouched := List.forall_mem_cons.mpr ⟨hevent, h.untouched⟩
  opens := h.opens

end OpenedAt

namespace Consistent

variable {app : DashboardApp} {initial : Users} {w w' : World}

theorem fresh (maxEntries : ℕ) : Consistent app initial (.fresh initial maxEntries) where
  users := rfl
  sessions _ _ hget := by cases hget

theorem store (h : Consistent app initial w) (users : Users) :
    Consistent app initial (w.store users) where
  users := rfl
  sessions token session hget := by
    obtain ⟨newer, older, time, hopened⟩ := h.sessions token session hget
    exact ⟨.stored users :: newer, older, time, hopened.cons fun habout => habout⟩

theorem remove (h : Consistent app initial w) (token : String) :
    Consistent app initial (w.remove token) where
  users := h.users
  sessions token' session hget := by
    obtain ⟨hne, hget⟩ : token' ≠ token ∧ w.sessions.get? token' = some session := by
      simpa [World.remove, Dict.get?_pop] using hget
    obtain ⟨newer, older, time, hopened⟩ := h.sessions token' session hget
    exact ⟨.removed token :: newer, older, time, hopened.cons fun habout => hne habout.symm⟩

theorem create (h : Consistent app initial w) {token : String} {session : Session} {time : ℚ}
    (hopens : Opens app w.users session time) :
    Consistent app initial (w.create token session time) where
  users := h.users
  sessions token' session' hget := by
    rw [World.create, Dict.get?_set] at hget
    split at hget
    · rename_i heq
      rw [heq, ← Option.some.inj hget]
      exact ⟨[], w.history, time, rfl, by simp, h.users ▸ hopens⟩
    · rename_i hne
      obtain ⟨newer, older, time', hopened⟩ := h.sessions token' session' hget
      exact ⟨.opened token session time :: newer, older, time',
        hopened.cons fun habout => hne habout.symm⟩

theorem touch {l : Touch} (h : Consistent app initial w) (htouch : Touches app l w w') :
    Consistent app initial w' := by
  cases htouch with
  | throttled | audited | invoked => exact ⟨h.users, h.sessions⟩
  | removed token => exact h.remove token
  | created token session time hopens => exact h.create hopens

theorem write (h : Consistent app initial w) (result : Except Exn Users) :
    Consistent app initial (w.write result).2 := by
  cases result with
  | ok users => exact h.store users
  | error exn => exact h

theorem step {input : Input} {outcome : Outcome} (h : Consistent app initial w)
    (hstep : step app w input = some (outcome, w')) : Consistent app initial w' := by
  cases input with
  | add username password salt role =>
      have heq : (w.write (AuthStore.add app.python username password salt role w.users)).2 = w' :=
        congrArg Prod.snd (Option.some.inj hstep)
      exact heq ▸ h.write _
  | disable username =>
      have heq : (w.write (AuthStore.disable username w.users)).2 = w' :=
        congrArg Prod.snd (Option.some.inj hstep)
      exact heq ▸ h.write _
  | request env request =>
      exact (footprint_of_step hstep).closed (fun _ _ _ _ htouch hP => hP.touch htouch) h

/-- What holds at the start of a dashboard holds in all its runs. -/
theorem run {maxEntries : ℕ} {ok : World → Input → Prop}
    (hrun : Machine.Run (Admin.step app) ok (.fresh initial maxEntries) w) :
    Consistent app initial w :=
  hrun.invariant (fresh maxEntries) fun _ _ _ _ h _ hstep => h.step hstep

end Consistent

/-- The delegates a step calls, it calls for a request that is entitled to them. -/
theorem delegates_of_step {app : DashboardApp} {w w' : World} {input : Input} {outcome : Outcome}
    (hstep : step app w input = some (outcome, w')) :
    ∃ delegates, w'.invoked = w.invoked ++ delegates ∧ ∀ delegate ∈ delegates,
      ∃ env request, input = .request env request ∧ Authorized app env request w delegate := by
  have hwrite : ∀ result : Except Exn Users, (w.write result).2.invoked = w.invoked := by
    intro result
    cases result <;> rfl
  cases input with
  | add username password salt role =>
      have heq := congrArg (fun result => result.2.invoked) (Option.some.inj hstep)
      exact ⟨[], by rw [← heq, hwrite, List.append_nil], by simp⟩
  | disable username =>
      have heq := congrArg (fun result => result.2.invoked) (Option.some.inj hstep)
      exact ⟨[], by rw [← heq, hwrite, List.append_nil], by simp⟩
  | request env request =>
      obtain ⟨delegates, heq, hall⟩ := invoked_of_footprint (footprint_of_step hstep)
      exact ⟨delegates, heq, fun delegate hmem => ⟨env, request, rfl, hall delegate hmem⟩⟩

/-- In every run, the delegates that a step calls are called for a POST below
`/api/v1/admin/` whose cookie names a session that a login opened and nothing removed,
that has not expired, whose CSRF token the request supplies, and whose role ranks as
high as each delegate demands.  Any other step calls none. -/
theorem delegates_gated {app : DashboardApp} {users : Users} {maxEntries : ℕ} {w w' : World}
    {input : Input} {outcome : Outcome}
    (hrun : Machine.Run (step app) (fun _ _ => True) (.fresh users maxEntries) w)
    (hstep : step app w input = some (outcome, w')) :
    ∃ delegates, w'.invoked = w.invoked ++ delegates ∧ ∀ delegate ∈ delegates,
      ∃ env request path token session form newer older time,
        input = .request env request ∧ request.method = "POST" ∧
        app.python.urlPath request.target = .ok path ∧ startsWith "/api/v1/admin/" path ∧
        request.cookie "ubb_admin" = some token ∧ w.sessions.get? token = some session ∧
        OpenedAt app users w.history token session newer older time ∧
        env.seen ≤ session.expires ∧ app.actionForm request = .ok form ∧
        DashboardApp.supplied request form = session.csrf.text ∧
        rank delegate.role ≤ rank session.role := by
  obtain ⟨delegates, heq, hall⟩ := delegates_of_step hstep
  refine ⟨delegates, heq, fun delegate hmem => ?_⟩
  obtain ⟨env, request, hinput, hmethod, ⟨path, hpath, hadmin⟩, token, session, form, hcookie,
    hget, hseen, hform, hcsrf, hrank⟩ := hall delegate hmem
  obtain ⟨newer, older, time, hopened⟩ := (Consistent.run hrun).sessions token session hget
  exact ⟨env, request, path, token, session, form, newer, older, time, hinput, hmethod, hpath,
    hadmin, hcookie, hget, hopened, hseen, hform, hcsrf, hrank⟩

/-! ## A dashboard with one operator -/

/-- The standard library on the requests below: no percent signs and no other escapes, one
password, its salt and its digest. -/
def plainPython : Python where
  urlPath target := .ok (String.ofList (target.toList.takeWhile (· ∉ ['?', '#', ';'])))
  int text :=
    if text ≠ "" ∧ text.toList.all Char.isDigit then
      .ok (text.toList.foldl (fun n c => 10 * n + (c.toNat - 48)) 0)
    else .error (.valueError "invalid literal for int() with base 10")
  maxRead := 2 ^ 63 - 1
  decode bytes :=
    if bytes.all (· < 128) then .ok (String.ofList (bytes.map fun b => Char.ofNat b.toNat))
    else .error (.valueError "'utf-8' codec can't decode byte")
  parseQs text := .ofList ((text.toList.splitOn '&').filterMap fun field =>
    match (field.dropWhile (· ≠ '=')).drop 1 with
    | [] => none
    | value => some (String.ofList (field.takeWhile (· ≠ '=')), String.ofList value, []))
  pbkdf2 password salt iterations :=
    if password = "secret" ∧ iterations = 240000 ∧
        salt = [48, 49, 50, 51, 52, 53, 54, 55, 56, 57, 97, 98, 99, 100, 101, 102] then
      .ok [132, 199, 160, 81, 90, 215, 4, 226, 89, 195, 152, 104, 70, 108, 239, 183, 143, 85, 113,
        25, 171, 66, 239, 28, 26, 79, 62, 17, 114, 103, 248, 39]
    else .ok []
  b64encode bytes :=
    if bytes.length = 16 then "MDEyMzQ1Njc4OWFiY2RlZg=="
    else "hMegUVrXBOJZw5hoRmzvt49VcRmrQu8cGk8-EXJn-Cc="
  b64decode text :=
    if text = "MDEyMzQ1Njc4OWFiY2RlZg==" then
      .ok [48, 49, 50, 51, 52, 53, 54, 55, 56, 57, 97, 98, 99, 100, 101, 102]
    else
      .ok [132, 199, 160, 81, 90, 215, 4, 226, 89, 195, 152, 104, 70, 108, 239, 183, 143, 85, 113,
        25, 171, 66, 239, 28, 26, 79, 62, 17, 114, 103, 248, 39]

/-- The bytes of an ASCII text. -/
def bytesOf (text : String) : List UInt8 := text.toList.map fun c => UInt8.ofNat c.toNat

/-- A dashboard as `main` sets it up, with a supervisor. -/
def plainApp : DashboardApp where
  python := plainPython
  auth := true
  audit := true
  actions := some
    { supervisor := true, setsLifecycleMode := true, backupApi := true, qualifyApi := false
      integrations := some ["amiexpress-amiga"], installRoots := ∅, archiveRoot := none }
  requireAuth := true
  secureCookies := false
  lifetime := 28800

/-- The operator `olga`. -/
def oneOperator : Users := .ofList [("olga",
  { hash := "pbkdf2_sha256$240000$MDEyMzQ1Njc4OWFiY2RlZg==$" ++
      "hMegUVrXBOJZw5hoRmzvt49VcRmrQu8cGk8-EXJn-Cc="
    role := "operator"
    enabled := true })]

/-- A moment at which everything that is asked for works. -/
def moment (now : ℚ) (requestId : Token) : Environment where
  offered := now
  checked := now
  failed := now
  opened := now
  seen := now
  shown := now
  timestamp := "2026-01-01T00:00:00+00:00"
  token := ⟨"q7pXl0", by decide⟩
  csrf := ⟨"Vt3mKz", by decide⟩
  requestId := requestId
  logging := .ok ()
  reply _ := .ok (.json (.str "starting"))
  jobs _ := .ok []
  api := .ok none
  page _ := .ok none

/-- `olga` logs in. -/
def loginRequest : Request where
  method := "POST"
  target := "/admin/login"
  headers := [("Content-Length", "29")]
  body := bytesOf "username=olga&password=secret"
  remote := "127.0.0.1"

/-- A request to start a service, with the session that the login above opened. -/
def startRequest : Request where
  method := "POST"
  target := "/api/v1/admin/services/demo/start"
  headers := [("Cookie", "theme=dark; ubb_admin=q7pXl0"), ("x-csrf-token", "Vt3mKz")]
  body := []
  remote := "127.0.0.1"

/-- The operator logs in and starts a service. -/
theorem delegates_gated_of_start :
    ∃ (w w' : World) (outcome : Outcome) (token : String) (session : Session)
      (newer older : List Event) (time : ℚ),
      step plainApp w (.request (moment 2000 ⟨"r2", by decide⟩) startRequest) = some (outcome, w') ∧
      w'.invoked = w.invoked ++ [.start "demo" "admin"] ∧
      w.sessions.get? token = some session ∧
      OpenedAt plainApp oneOperator w.history token session newer older time := by
  have hexec : ((Machine.exec (step plainApp) (fun _ _ => True) (.fresh oneOperator 4096)
      [.request (moment 1000 ⟨"r1", by decide⟩) loginRequest]).bind fun w =>
        (step plainApp w (.request (moment 2000 ⟨"r2", by decide⟩) startRequest)).map fun result =>
          decide (result.2.invoked = w.invoked ++ [.start "demo" "admin"])) = some true := by
    decide +kernel
  obtain ⟨w, hw, hobserved⟩ := Option.bind_eq_some_iff.mp hexec
  obtain ⟨⟨outcome, w'⟩, hstep, hinvoked⟩ := Option.map_eq_some_iff.mp hobserved
  have hinvoked := of_decide_eq_true hinvoked
  obtain ⟨delegates, heq, hall⟩ := delegates_gated (Machine.run_of_exec hw) hstep
  have hone : delegates = [.start "demo" "admin"] := List.append_cancel_left (heq ▸ hinvoked)
  obtain ⟨env, request, path, token, session, form, newer, older, time, hinput, -, -, -, -, hget,
    hopened, -⟩ := hall (.start "demo" "admin") (by rw [hone]; exact List.mem_singleton_self _)
  exact ⟨w, w', outcome, token, session, newer, older, time, hstep, hinvoked, hget, hopened⟩

end UltimateBBSBox.Admin

import UltimateBBSBox.Library.Machine
import UltimateBBSBox.Admin.Handler

/-!
# Runs of the dashboard

A run is any sequence of account changes (`ubb-admin-auth.py`, a process of its own) and
of requests.  `Touches` says what the handlers do to the state, one touch at a time; a
session is entered only where a login succeeded, and a delegate is called only where the
lemma about the handler says so.
-/

namespace UltimateBBSBox.Admin

open Act

/-! ## The machine -/

/-- What happens to the dashboard. -/
inductive Input
  | add (username password : String) (salt : List UInt8) (role : String)
  | disable (username : String)
  | request (env : Environment) (request : Request)

/-- What comes of it. -/
inductive Outcome
  | stored (result : Except Exn Unit)
  | answered (result : Except Exn Response)

/-- A changed accounts file is written back; an exception leaves it as it is. -/
def World.write (w : World) (result : Except Exn Users) : Outcome × World :=
  match result with
  | .ok users => (.stored (.ok ()), w.store users)
  | .error exn => (.stored (.error exn), w)

/-- One step of the dashboard. -/
def step (app : DashboardApp) (w : World) : Input → Option (Outcome × World)
  | .add username password salt role =>
      some (w.write (AuthStore.add app.python username password salt role w.users))
  | .disable username => some (w.write (AuthStore.disable username w.users))
  | .request env request =>
      ((app.handle env request).run w).map fun answer => (.answered answer.1, answer.2)

/-! ## Touches -/

/-- Kinds of touches. -/
inductive Touch
  | throttled | audited | removed | created
  | invoked (delegate : Delegate)

/-- A session may be entered where logins are taken, for a user whose password was right,
with the role of the account and the lifetime of sessions. -/
structure Opens (app : DashboardApp) (users : Users) (session : Session) (time : ℚ) : Prop where
  required : app.requireAuth
  authenticated : ∃ password account,
    AuthStore.authenticate app.python users session.username password = some account ∧
      account.role = session.role
  expires : session.expires = time + app.lifetime

/-- One touch of the state. -/
inductive Touches (app : DashboardApp) : Touch → World → World → Prop
  | throttled {w : World} (throttle : LoginThrottle) :
      Touches app .throttled w { w with throttle := throttle }
  | audited {w : World} (record : AuditRecord) :
      Touches app .audited w { w with audit := w.audit ++ [record] }
  | removed {w : World} (token : String) : Touches app .removed w (w.remove token)
  | created {w : World} (token : String) (session : Session) (time : ℚ)
      (hopens : Opens app w.users session time) :
      Touches app .created w (w.create token session time)
  | invoked {w : World} (delegate : Delegate) :
      Touches app (.invoked delegate) w { w with invoked := w.invoked ++ [delegate] }

/-- Finite sequences of touches of the allowed kinds. -/
abbrev Footprint (app : DashboardApp) (allowed : Touch → Prop) : World → World → Prop :=
  Steps (Touches app) allowed

/-- The touches of the throttle and of the sessions. -/
def Touch.silent : Touch → Prop
  | .audited | .invoked _ => False
  | _ => True

/-- Every touch but the call of a delegate. -/
def Touch.quiet : Touch → Prop
  | .invoked _ => False
  | _ => True

theorem Touch.silent_le_quiet : ∀ l : Touch, l.silent → l.quiet := by
  intro l hl
  cases l with
  | invoked delegate => exact False.elim hl
  | _ => trivial

theorem Touches.silent {app : DashboardApp} {l : Touch} {w w' : World} (h : Touches app l w w')
    (hl : l.silent) : Footprint app Touch.silent w w' := .single hl h

/-- Silent touches leave the audit log alone. -/
theorem audit_eq_of_silent {app : DashboardApp} {w w' : World}
    (h : Footprint app Touch.silent w w') : w'.audit = w.audit := by
  refine h.closed (P := fun w' => w'.audit = w.audit) (fun l s s' hl htouch hP => ?_) rfl
  cases htouch with
  | throttled | removed | created => exact hP
  | audited | invoked => exact False.elim hl

/-- The delegates of a footprint are the allowed ones. -/
theorem invoked_of_footprint {app : DashboardApp} {allowed : Touch → Prop} {w w' : World}
    (h : Footprint app allowed w w') :
    ∃ delegates, w'.invoked = w.invoked ++ delegates ∧
      ∀ delegate ∈ delegates, allowed (.invoked delegate) := by
  refine h.closed (P := fun w' => ∃ delegates, w'.invoked = w.invoked ++ delegates ∧
    ∀ delegate ∈ delegates, allowed (.invoked delegate)) (fun l s s' hl htouch hP => ?_)
    ⟨[], (List.append_nil _).symm, by simp⟩
  obtain ⟨delegates, heq, hall⟩ := hP
  cases htouch with
  | throttled | audited | removed | created => exact ⟨delegates, heq, hall⟩
  | invoked delegate =>
      refine ⟨delegates ++ [delegate], ?_, fun d hd => ?_⟩
      · dsimp only
        rw [heq, List.append_assoc]
      · rcases List.mem_append.mp hd with hmem | hmem
        · exact hall d hmem
        · rw [List.mem_singleton.mp hmem]
          exact hl

/-! ## The action service -/

section Service

variable {S : Type} {R : S → S → Prop} [IsPreorder S R] {service : AdminActionService}
  {others : Collaborators S} {role : String}

/-- Behind the check of the role, the role ranks high enough. -/
theorem within_p {needed : String} {act : Act S Exn Value}
    (h : rank needed ≤ rank role → Within R act) :
    Within R (do AdminActionService.p role needed; act) := by
  unfold AdminActionService.p
  intro s
  rw [wlp_bind, wlp_ite]
  exact ⟨fun _ => refl_of R s, fun hrank => h (not_lt.mp hrank) s⟩

theorem within_supervised {delegate : Delegate} (h : Within R (others.call delegate)) :
    Within R (service.supervised others delegate) :=
  within_ite (fun _ => h) fun _ => within_throw _

theorem within_integrated {identifier : String} {delegate : Delegate}
    (h : Within R (others.call delegate)) :
    Within R (service.integrated others identifier delegate) := by
  unfold AdminActionService.integrated
  cases service.integrations with
  | none => exact within_throw _
  | some known => exact within_ite (fun _ => h) fun _ => within_throw _

theorem within_deployed {identifier : String} {delegate : String → Delegate}
    (h : ∀ root, Within R (others.call (delegate root))) :
    Within R (service.deployed others identifier delegate) := by
  refine within_ite (fun _ => within_throw _) fun _ => ?_
  cases given (service.installRoots.get? identifier) with
  | none => exact within_throw _
  | some root => exact within_integrated (h root)

/-- A service that is asked for the role of a session calls the delegates that the role
may have called, and does nothing else. -/
theorem within_dispatch {env : Environment} {R : World → World → Prop} [IsPreorder World R]
    (h : ∀ delegate, rank delegate.role ≤ rank role →
      Within R ((DashboardApp.others env).call delegate))
    (action target : String) (form : Form) :
    Within R (DashboardApp.dispatch env service action target form role) := by
  refine within_ite (fun _ => ?start) fun _ => within_ite (fun _ => ?stop) fun _ =>
    within_ite (fun _ => ?restart) fun _ => within_ite (fun _ => ?maintenance) fun _ =>
    within_ite (fun _ => ?backup) fun _ => within_ite (fun _ => ?qualify) fun _ =>
    within_ite (fun _ => ?promote) fun _ => within_ite (fun _ => ?rollback) fun _ =>
    within_ite (fun _ => ?lifecycle) fun _ => within_throw _
  case start => exact within_p fun hrank => within_supervised (h _ hrank)
  case stop => exact within_p fun hrank => within_supervised (h _ hrank)
  case restart =>
      exact within_p fun hrank => within_bind (within_supervised (h _ hrank)) fun _ =>
        within_supervised (h _ hrank)
  case maintenance =>
      refine within_ite (fun _ => ?_) fun _ => within_throw _
      refine within_bind (within_ofExcept _) fun jobs => ?_
      exact within_ite (fun _ => within_p fun hrank => within_supervised (h _ hrank))
        fun _ => within_throw _
  case backup =>
      exact within_p fun hrank => within_ite (fun _ => h _ hrank) fun _ => within_throw _
  case qualify =>
      refine within_p fun hrank => within_ite (fun _ => h _ hrank) fun _ => ?_
      split
      · exact within_integrated (h _ hrank)
      · exact within_throw _
  case promote => exact within_p fun hrank => within_deployed fun _ => h _ hrank
  case rollback => exact within_p fun hrank => within_deployed fun _ => h _ hrank
  case lifecycle =>
      refine within_p fun hrank => within_ite (fun _ => within_throw _) fun _ => ?_
      exact within_ite (fun _ => within_throw _) fun _ => within_supervised (h _ hrank)

end Service

/-! ## The handler -/

/-- Every touch, the calls of delegates only as far as a role goes. -/
def Touch.ranked (role : String) : Touch → Prop
  | .invoked delegate => rank delegate.role ≤ rank role
  | _ => True

theorem Touch.quiet_le_ranked (role : String) : ∀ l : Touch, l.quiet → l.ranked role := by
  intro l hl
  cases l with
  | invoked delegate => exact False.elim hl
  | _ => trivial

section Handler

variable {app : DashboardApp} {env : Environment} {request : Request}

theorem within_append (record : AuditRecord) :
    Within (Footprint app Touch.quiet) (app.append env record) :=
  within_ite (fun _ => within_bind (within_ofExcept _) fun _ =>
    within_modify fun w => .single (l := Touch.audited) trivial (Touches.audited (w := w) record))
    fun _ => within_pure _

theorem within_retryAfter (now : ℚ) (user source : String) :
    Within (Footprint app Touch.silent) (DashboardApp.retryAfter now user source) :=
  within_bind within_get fun _ => within_bind
    (within_modify fun _ => (Touches.throttled _).silent trivial) fun _ => within_pure _

/-- Looking a session up: what is found is in the table and has not expired, and the
state is as before; what is not found has been taken out. -/
theorem wlp_getSession {now : ℚ} {token : String} {w : World}
    {Q : Option Session → World → Prop} {X : Exn → World → Prop}
    (hlive : ∀ session, SessionStore.live? now token w.sessions = some session → Q (some session) w)
    (hgone : SessionStore.live? now token w.sessions = none → Q none (w.remove token)) :
    wlp (DashboardApp.getSession now token) Q X w := by
  unfold DashboardApp.getSession
  rw [wlp_bind, wlp_get]
  cases hfound : SessionStore.live? now token w.sessions with
  | some session => exact hlive session hfound
  | none => exact hgone hfound

theorem wlp_authenticate {now : ℚ} {token : Option String} {w : World}
    {Q : Option Session → World → Prop} {X : Exn → World → Prop}
    (hlive : ∀ text session, token = some text →
      SessionStore.live? now text w.sessions = some session → Q (some session) w)
    (hnone : Q none w) (hgone : ∀ text, Q none (w.remove text)) :
    wlp (DashboardApp.authenticate now token) Q X w := by
  unfold DashboardApp.authenticate
  cases htoken : given token with
  | none => exact hnone
  | some text =>
      have htext : token = some text := (Option.filter_eq_some_iff.mp htoken).1
      exact wlp_getSession (fun session hfound => hlive text session htext hfound)
        fun _ => hgone text

theorem within_authenticate (now : ℚ) (token : Option String) :
    Within (Footprint app Touch.silent) (DashboardApp.authenticate now token) := fun _ =>
  wlp_authenticate (fun _ _ _ _ => .refl) .refl
    fun text => (Touches.removed text).silent trivial

/-- A login enters a session only for the account it authenticated. -/
theorem within_login (hrequire : app.requireAuth) (user password remote : String) :
    Within (Footprint app Touch.silent) (app.login env user password remote) := by
  refine within_bind (within_retryAfter _ _ _) fun wait => within_ite (fun _ => within_pure _)
    fun _ w => ?_
  rw [wlp_bind, wlp_get]
  split
  · exact (Touches.throttled _).silent trivial
  · rename_i record hrecord
    have hauthenticated :
        AuthStore.authenticate app.python w.users user password = some record := by
      by_cases hauth : app.auth = true
      · simpa [hauth] using hrecord
      · simp [hauth] at hrecord
    have hforgotten : Footprint app Touch.silent w { w with
        throttle := w.throttle.success user (if remote = "" then "unknown" else remote) } :=
      (Touches.throttled _).silent trivial
    refine hforgotten.trans ((Touches.created _ _ _ ⟨hrequire, ⟨password, record, ?_, rfl⟩, rfl⟩).silent
      trivial)
    exact hauthenticated

theorem within_postLogin (hrequire : app.requireAuth) :
    Within (Footprint app Touch.quiet) (app.postLogin env request) := by
  refine within_bind (within_ofExcept _) fun form =>
    within_bind ((within_retryAfter _ _ _).mono Touch.silent_le_quiet) fun wait =>
    within_ite (fun _ => within_bind (within_append _) fun _ => within_pure _) fun _ => ?_
  refine within_bind ((within_login hrequire _ _ _).mono Touch.silent_le_quiet) fun token => ?_
  cases given token with
  | none => exact within_bind (within_append _) fun _ => within_pure _
  | some token => exact within_bind (within_append _) fun _ => within_pure _

/-- The handlers of an action touch nothing. -/
theorem within_handling {R : World → World → Prop} [IsPreorder World R] {result : Result}
    {act : Act World Exn Ending} (h : Within R act) : Within R (DashboardApp.handling result act) := by
  refine within_tryCatch h fun exn => ?_
  cases DashboardApp.refusal result exn with
  | none => exact within_throw _
  | some ending => exact within_pure _

/-- An action calls delegates as far as the role of the session goes. -/
theorem within_action {path remote : String} {session : Session} {form : Form} :
    Within (Footprint app (Touch.ranked session.role))
      (app.action env path session form remote) := by
  unfold DashboardApp.action
  cases (pathParts path).getLast? with
  | none => exact within_throw _
  | some action =>
      refine within_bind ?_ fun ending => within_bind
        ((within_append _).mono (Touch.quiet_le_ranked _)) fun _ =>
        within_bind (within_ofExcept _) fun _ => within_pure _
      refine within_handling ?_
      cases app.actions with
      | none => exact within_throw _
      | some service =>
          refine within_bind (within_dispatch (fun delegate hrank => ?_) _ _ _) fun value =>
            within_handling (within_bind (within_ofExcept _) fun _ => within_pure _)
          have hinvoked : ∀ w, Footprint app (Touch.ranked session.role) w
              { w with invoked := w.invoked ++ [delegate] } := fun w =>
            Relation.ReflTransGen.single ⟨.invoked delegate, hrank, .invoked delegate⟩
          exact within_bind (within_modify hinvoked) fun _ => within_ofExcept _

/-- A CSRF token that is not rejected is the one of the session. -/
theorem csrfRejected_eq_false {supplied : String} {session : Session}
    (h : DashboardApp.csrfRejected supplied session = .ok false) :
    supplied = session.csrf.text := by
  unfold DashboardApp.csrfRejected compareDigest at h
  split at h
  · cases h
  · split at h
    · simpa [Except.map] using h
    · cases h

/-- What entitles a request to have a delegate called. -/
structure Authorized (app : DashboardApp) (env : Environment) (request : Request) (w : World)
    (delegate : Delegate) : Prop where
  method : request.method = "POST"
  path : ∃ path, app.python.urlPath request.target = .ok path ∧ startsWith "/api/v1/admin/" path
  session : ∃ token session form, request.cookie "ubb_admin" = some token ∧
    w.sessions.get? token = some session ∧ env.seen ≤ session.expires ∧
    app.actionForm request = .ok form ∧
    DashboardApp.supplied request form = session.csrf.text ∧
    rank delegate.role ≤ rank session.role

/-- Every touch, the calls of delegates only as far as the request is entitled to them. -/
def Touch.authorized (app : DashboardApp) (env : Environment) (request : Request) (w : World) :
    Touch → Prop
  | .invoked delegate => Authorized app env request w delegate
  | _ => True

theorem Touch.quiet_le_authorized (w : World) :
    ∀ l : Touch, l.quiet → l.authorized app env request w := by
  intro l hl
  cases l with
  | invoked delegate => exact False.elim hl
  | _ => trivial

theorem within_postAdmin {path token : String} {session : Session} {w : World}
    (hmethod : request.method = "POST") (hpath : app.python.urlPath request.target = .ok path)
    (hadmin : startsWith "/api/v1/admin/" path) (htoken : request.cookie "ubb_admin" = some token)
    (hlive : SessionStore.live? env.seen token w.sessions = some session) :
    wlp (app.postAdmin env request path session)
      (fun _ w' => Footprint app (Touch.authorized app env request w) w w')
      (fun _ w' => Footprint app (Touch.authorized app env request w) w w') w := by
  obtain ⟨hget, hseen⟩ := SessionStore.live?_eq_some.mp hlive
  unfold DashboardApp.postAdmin
  rw [wlp_bind, wlp_ofExcept]
  refine ⟨fun form hform => ?_, fun _ _ => .refl⟩
  rw [wlp_bind, wlp_ofExcept]
  refine ⟨fun rejected hrejected => ?_, fun _ _ => .refl⟩
  cases rejected with
  | true =>
      exact (within_bind ((within_append _).mono (Touch.quiet_le_authorized w))
        fun _ => within_pure _) w
  | false =>
      have hmono : ∀ l : Touch, l.ranked session.role → l.authorized app env request w := by
        intro l hl
        cases l with
        | invoked delegate =>
            exact ⟨hmethod, ⟨path, hpath, hadmin⟩, token, session, form, htoken, hget, hseen, hform,
              csrfRejected_eq_false hrejected, hl⟩
        | _ => trivial
      exact within_action.mono hmono w

theorem within_doPost (w : World) (hmethod : request.method = "POST") :
    wlp (app.doPost env request)
      (fun _ w' => Footprint app (Touch.authorized app env request w) w w')
      (fun _ w' => Footprint app (Touch.authorized app env request w) w w') w := by
  have hquiet : ∀ l : Touch, l.quiet → l.authorized app env request w :=
    Touch.quiet_le_authorized w
  have hsilent : ∀ l : Touch, l.silent → l.authorized app env request w := fun l hl =>
    hquiet l (Touch.silent_le_quiet l hl)
  unfold DashboardApp.doPost
  rw [wlp_bind, wlp_ofExcept]
  refine ⟨fun path hpath => ?_, fun _ _ => .refl⟩
  rw [wlp_ite]
  refine ⟨fun _ => .refl, fun hrequire => ?_⟩
  rw [wlp_ite]
  refine ⟨fun _ => (within_postLogin (not_not.mp hrequire)).mono hquiet w, fun _ => ?_⟩
  rw [wlp_bind]
  refine wlp_authenticate (fun token session htoken hlive => ?_) .refl
    fun text => ((Touches.removed text).silent trivial).mono hsilent
  dsimp only
  rw [wlp_ite]
  exact ⟨fun hadmin => within_postAdmin hmethod hpath hadmin htoken hlive, fun _ => .refl⟩

/-- The read-only side of the handler calls no delegate and writes no record. -/
theorem within_doGet : Within (Footprint app Touch.silent) (app.doGet env request) := by
  refine within_bind (within_ofExcept _) fun path => within_tryCatch ?_ fun exn =>
    within_ite (fun _ => within_throw _) fun _ => within_pure _
  have hsession : ∀ now, Within (Footprint app Touch.silent)
      (app.sessionOf now (request.cookie "ubb_admin")) := fun now =>
    within_ite (fun _ => within_authenticate _ _) fun _ => within_pure _
  refine within_ite (fun _ => within_pure _) fun _ => within_bind (hsession _) fun session =>
    within_ite (fun _ => within_pure _) fun _ => within_ite (fun _ => ?logout) fun _ =>
    within_ite (fun _ => ?audit) fun _ => within_ite (fun _ => ?api) fun _ => ?page
  case logout =>
      refine within_bind ?_ fun _ => within_pure _
      unfold DashboardApp.removeSession
      cases given (request.cookie "ubb_admin") with
      | none => exact within_pure _
      | some token => exact within_modify fun w => (Touches.removed token).silent trivial
  case audit => exact within_bind within_get fun _ => within_pure _
  case api =>
      refine within_bind (within_ofExcept _) fun value => ?_
      cases value with
      | none => exact within_pure _
      | some value =>
          exact within_bind (within_ofExcept _) fun _ => within_bind (within_ofExcept _) fun _ =>
            within_pure _
  case page =>
      refine within_bind (hsession _) fun session => within_bind (within_ofExcept _) fun page => ?_
      cases page with
      | none => exact within_pure _
      | some page => exact within_pure _

/-- What a request does, in the state it is handled in. -/
theorem wlp_handle (w : World) :
    wlp (app.handle env request)
      (fun _ w' => Footprint app (Touch.authorized app env request w) w w')
      (fun _ w' => Footprint app (Touch.authorized app env request w) w w') w := by
  unfold DashboardApp.handle
  rw [wlp_ite]
  refine ⟨fun _ => (within_doGet.mono Touch.silent_le_quiet).mono (Touch.quiet_le_authorized w) w,
    fun _ => ?_⟩
  rw [wlp_ite]
  refine ⟨fun hmethod => within_doPost w hmethod, fun _ => ?_⟩
  exact within_ite (fun _ => within_pure _) (fun _ => within_pure _) w

end Handler

/-- A step that answers a request leaves a footprint of it. -/
theorem footprint_of_step {app : DashboardApp} {env : Environment} {request : Request}
    {w w' : World} {outcome : Outcome}
    (h : step app w (.request env request) = some (outcome, w')) :
    Footprint app (Touch.authorized app env request w) w w' := by
  obtain ⟨⟨answer, w₁⟩, hrun, heq⟩ := Option.map_eq_some_iff.mp h
  cases heq
  cases answer with
  | ok response => exact wlp_ok (wlp_handle w) hrun
  | error exn => exact wlp_error (wlp_handle w) hrun

end UltimateBBSBox.Admin

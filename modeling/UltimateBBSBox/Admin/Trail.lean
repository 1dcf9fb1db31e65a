import UltimateBBSBox.Admin.Gate
import UltimateBBSBox.Admin.Plan

/-!
# The record of an action request

Between the session and the audit record stand a body that is decoded, a comparison of
texts and a `try` statement that reads the outcome off the class of an exception.  This
file says exactly when one truthful record comes out: what the request and the delegates
must be like (`Orderly`), and that nothing else is needed.
-/

namespace UltimateBBSBox.Admin

open Act

/-! ## One record a request, with an identifier of its own -/

/-- The random tokens of a request are distinct from those in the log. -/
def Fresh (w : World) : Input → Prop
  | .request env _ => ∀ record ∈ w.audit, record.requestId ≠ env.requestId.text
  | .add .. | .disable _ => True

instance (w : World) : ∀ input, Decidable (Fresh w input)
  | .request env _ =>
      inferInstanceAs (Decidable (∀ record ∈ w.audit, record.requestId ≠ env.requestId.text))
  | .add .. | .disable _ => isTrue trivial

/-- The log is as it was. -/
def Unlogged (w w' : World) : Prop := w'.audit = w.audit

instance : IsPreorder World Unlogged where
  refl _ := rfl
  trans _ _ _ h h' := h'.trans h

/-- At most one record was written, with the identifier of the request. -/
def Logged (env : Environment) (w w' : World) : Prop :=
  Unlogged w w' ∨
    ∃ record, w'.audit = w.audit ++ [record] ∧ record.requestId = env.requestId.text

/-- Every way back from `act` ends with one record more, or none. -/
def Logs {α : Type} (env : Environment) (act : Act World Exn α) : Prop :=
  ∀ w, wlp act (fun _ => Logged env w) (fun _ => Logged env w) w

section Logs

variable {α β : Type} {app : DashboardApp} {env : Environment} {request : Request}

theorem unlogged_of_silent (app : DashboardApp) {act : Act World Exn α}
    (h : Within (Footprint app Touch.silent) act) : Within Unlogged act := fun w =>
  wlp_mono (h w) (fun _ _ hfoot => audit_eq_of_silent hfoot) fun _ _ hfoot =>
    audit_eq_of_silent hfoot

theorem Logs.of_unlogged {act : Act World Exn α} (h : Within Unlogged act) : Logs env act :=
  fun w => wlp_mono (h w) (fun _ _ => .inl) fun _ _ => .inl

theorem Logs.bind {act : Act World Exn α} {f : α → Act World Exn β} (hact : Within Unlogged act)
    (hf : ∀ a, Logs env (f a)) : Logs env (act >>= f) := fun w => by
  have hlogged : ∀ {w₁ w₂}, Unlogged w w₁ → Logged env w₁ w₂ → Logged env w w₂ := by
    intro w₁ w₂ h h'
    unfold Logged Unlogged at *
    rwa [h] at h'
  exact wlp_bind.mpr <| wlp_mono (hact w)
    (fun a w₁ h => wlp_mono (hf a w₁) (fun _ _ => hlogged h) fun _ _ => hlogged h) fun _ _ => .inl

theorem Logs.ite {c : Prop} [Decidable c] {act act' : Act World Exn α} (h : Logs env act)
    (h' : Logs env act') : Logs env (if c then act else act') := by
  by_cases hc : c
  · rwa [if_pos hc]
  · rwa [if_neg hc]

/-- A record, and then nothing that writes one. -/
theorem Logs.append {record : AuditRecord} {act : Act World Exn α}
    (hid : record.requestId = env.requestId.text) (hact : Within Unlogged act) :
    Logs env (do app.append env record; act) := fun w => by
  have hlogged : ∀ {w₁}, Unlogged { w with audit := w.audit ++ [record] } w₁ → Logged env w w₁ :=
    fun h => .inr ⟨record, h, hid⟩
  unfold DashboardApp.append
  rw [wlp_bind, wlp_ite]
  refine ⟨fun _ => ?_, fun _ => ?_⟩
  · rw [wlp_bind, wlp_ofExcept]
    refine ⟨fun _ _ => ?_, fun _ _ => .inl rfl⟩
    rw [wlp_modify]
    exact wlp_mono (hact _) (fun _ _ => hlogged) fun _ _ => hlogged
  · rw [wlp_pure]
    exact wlp_mono (hact w) (fun _ _ => .inl) fun _ _ => .inl

theorem logs_postLogin (hrequire : app.requireAuth) : Logs env (app.postLogin env request) := by
  refine .bind (within_ofExcept _) fun form =>
    .bind (unlogged_of_silent app (within_retryAfter _ _ _)) fun wait =>
    .ite (.append rfl (within_pure _)) ?_
  refine .bind (unlogged_of_silent app (within_login hrequire _ _ _)) fun token => ?_
  cases given token with
  | none => exact .append rfl (within_pure _)
  | some token => exact .append rfl (within_pure _)

theorem logs_action {path remote : String} {session : Session} {form : Form} :
    Logs env (app.action env path session form remote) := by
  unfold DashboardApp.action
  cases (pathParts path).getLast? with
  | none => exact .of_unlogged (within_throw _)
  | some action =>
      refine .bind ?_ fun ending => .append rfl
        (within_bind (within_ofExcept _) fun _ => within_pure _)
      refine within_handling ?_
      cases app.actions with
      | none => exact within_throw _
      | some service =>
          exact within_bind (within_dispatch (fun delegate _ => within_bind
            (within_modify fun _ => rfl) fun _ => within_ofExcept _) _ _ _) fun _ =>
            within_handling (within_bind (within_ofExcept _) fun _ => within_pure _)

theorem logs_doPost : Logs env (app.doPost env request) := by
  refine .bind (within_ofExcept _) fun path => ?_
  by_cases hrequire : app.requireAuth
  · rw [if_neg (not_not.mpr hrequire)]
    refine .ite (logs_postLogin hrequire) <|
      .bind (unlogged_of_silent app (within_authenticate _ _)) fun session => ?_
    cases session with
    | none => exact .of_unlogged (within_pure _)
    | some session =>
        refine .ite (.bind (within_ofExcept _) fun form => .bind (within_ofExcept _) fun rejected =>
          .ite (.append rfl (within_pure _)) logs_action) (.of_unlogged (within_pure _))
  · rw [if_pos hrequire]
    exact .of_unlogged (within_pure _)

theorem logs_handle : Logs env (app.handle env request) :=
  .ite (.of_unlogged (unlogged_of_silent app within_doGet)) <| .ite logs_doPost <|
    .ite (.of_unlogged (within_pure _)) (.of_unlogged (within_pure _))

theorem logged_of_step {w w' : World} {outcome : Outcome}
    (hstep : step app w (.request env request) = some (outcome, w')) : Logged env w w' := by
  obtain ⟨⟨answer, w₁⟩, hrun, heq⟩ := Option.map_eq_some_iff.mp hstep
  cases heq
  cases answer with
  | ok response => exact wlp_ok (logs_handle w) hrun
  | error exn => exact wlp_error (logs_handle w) hrun

/-- A new record with a fresh identifier. -/
theorem nodup_append_record {audit : List AuditRecord} {record : AuditRecord}
    (h : (audit.map AuditRecord.requestId).Nodup)
    (hfresh : ∀ other ∈ audit, other.requestId ≠ record.requestId) :
    ((audit ++ [record]).map AuditRecord.requestId).Nodup := by
  rw [List.map_append, List.map_singleton]
  refine h.append (List.nodup_singleton _) fun id hid hnew => ?_
  obtain ⟨other, hmem, rfl⟩ := List.mem_map.mp hid
  exact hfresh other hmem (List.mem_singleton.mp hnew)

/-- In a run whose tokens are distinct, no two records have one identifier. -/
theorem requestIds_nodup {users : Users} {maxEntries : ℕ} {w : World}
    (hrun : Machine.Run (step app) Fresh (.fresh users maxEntries) w) :
    (w.audit.map AuditRecord.requestId).Nodup := by
  refine hrun.invariant (P := fun w => (w.audit.map AuditRecord.requestId).Nodup) List.nodup_nil
    fun w input outcome w' hnodup hfresh hstep => ?_
  have hwrite : ∀ result : Except Exn Users, (w.write result).2.audit = w.audit := by
    intro result
    cases result <;> rfl
  cases input with
  | add username password salt role =>
      have heq := congrArg (fun result => result.2.audit) (Option.some.inj hstep)
      rw [← heq, hwrite]
      exact hnodup
  | disable username =>
      have heq := congrArg (fun result => result.2.audit) (Option.some.inj hstep)
      rw [← heq, hwrite]
      exact hnodup
  | request env request =>
      rcases logged_of_step hstep with heq | ⟨record, heq, hid⟩
      · rw [heq]
        exact hnodup
      · rw [heq]
        exact nodup_append_record hnodup fun other hmem => hid ▸ hfresh other hmem

end Logs

/-! ## What a request does, exactly -/

/-- The ending an exception makes of a result, or the exception that passes every handler. -/
def concluded (result : Result) (exn : Exn) : Except Exn Ending :=
  match DashboardApp.refusal result exn with
  | some ending => .ok (DashboardApp.settleStatus ending)
  | none => .error exn

/-- The ending of an action, or the exception that passes every handler. -/
def settle : Except Exn Value → Except Exn Ending
  | .error exn => concluded .failure exn
  | .ok value =>
      match jsonable value with
      | .ok payload => .ok ⟨200, .success, "action delegated", .delegated payload⟩
      | .error exn => concluded .success exn

theorem settle_of_payload {value payload : Value} (h : jsonable value = .ok payload) :
    settle (.ok value) = .ok ⟨200, .success, "action delegated", .delegated payload⟩ := by
  simp only [settle, h]

theorem settle_of_raise {value : Value} {exn : Exn} (h : jsonable value = .error exn) :
    settle (.ok value) = concluded .success exn := by
  simp only [settle, h]

/-- What the action of a request answers and calls, with a service or without one. -/
def answered (app : DashboardApp) (env : Environment) (action target : String) (form : Form)
    (role : String) : Except Exn Value × List Delegate :=
  match app.actions with
  | none => (.error (.other "action service unavailable"), [])
  | some service => acted service env action target form role

section Exactly

variable {app : DashboardApp} {env : Environment} {request : Request} {w : World}

theorem run_handling_of_ok {result : Result} {act : Act World Exn Ending} {ending : Ending}
    {w' : World} (hrun : act.run w = some (.ok ending, w')) :
    (DashboardApp.handling result act).run w = some (.ok ending, w') := by
  unfold DashboardApp.handling
  rw [run_tryCatch, hrun]

theorem run_handling_of_error {result : Result} {act : Act World Exn Ending} {exn : Exn}
    {w' : World} (hrun : act.run w = some (.error exn, w')) :
    (DashboardApp.handling result act).run w = some (concluded result exn, w') := by
  unfold DashboardApp.handling concluded
  rw [run_tryCatch, hrun]
  dsimp only
  cases DashboardApp.refusal result exn <;> rfl

/-- What passes the handlers of the conversion passes those of the action. -/
theorem run_handling_again {act : Act World Exn Ending} {result : Result} {exn : Exn} {w' : World}
    (hrun : act.run w = some (concluded result exn, w')) :
    (DashboardApp.handling .failure act).run w = some (concluded result exn, w') := by
  cases hconcluded : concluded result exn with
  | ok ending => exact run_handling_of_ok (hconcluded ▸ hrun)
  | error exn' =>
      rw [run_handling_of_error (hconcluded ▸ hrun)]
      cases exn with
      | exit =>
          cases hconcluded
          rfl
      | _ => cases hconcluded

theorem run_attempt (action target : String) (form : Form) (role : String) :
    (app.attempt env action target form role).run w =
      some (settle (answered app env action target form role).1,
        w.call (answered app env action target form role).2) := by
  unfold DashboardApp.attempt answered
  cases app.actions with
  | none =>
      rw [run_handling_of_error (run_throw _ w), World.call_nil]
      rfl
  | some service =>
      dsimp only
      have hdispatch : (DashboardApp.dispatch env service action target form role).run w =
          some ((acted service env action target form role).1,
            w.call (acted service env action target form role).2) :=
        Answers.dispatch action target form w
      cases hacted : (acted service env action target form role).1 with
      | error exn =>
          rw [hacted] at hdispatch
          exact run_handling_of_error (by rw [run_bind, hdispatch])
      | ok value =>
          rw [hacted] at hdispatch
          cases hjsonable : jsonable value with
          | ok payload =>
              rw [settle_of_payload hjsonable]
              refine run_handling_of_ok ?_
              rw [run_bind, hdispatch]
              exact run_handling_of_ok (by rw [run_bind, run_ofExcept, hjsonable]; rfl)
          | error exn =>
              rw [settle_of_raise hjsonable]
              refine run_handling_again ?_
              rw [run_bind, hdispatch]
              exact run_handling_of_error (by rw [run_bind, run_ofExcept, hjsonable])

/-- The record of an action. -/
def actionRecord (env : Environment) (path remote : String) (session : Session) (action : String)
    (ending : Ending) : AuditRecord :=
  DashboardApp.recordOf env session.username session.role action
    (targetOf (pathParts path) "integration") ending.result remote ending.message

/-- An action with a working log: an ending is recorded before it is sent. -/
theorem run_action_of_ok {path remote action : String} {session : Session} {form : Form}
    {ending : Ending} (haudit : app.audit) (hlogging : env.logging = .ok ())
    (haction : (pathParts path).getLast? = some action)
    (hsettle : settle (answered app env action (targetOf (pathParts path) "integration") form
      session.role).1 = .ok ending) :
    (app.action env path session form remote).run w =
      some ((DashboardApp.dumps ending.body).map fun _ => send ending.status ending.body [],
        { w.call (answered app env action (targetOf (pathParts path) "integration") form
            session.role).2 with
          audit := w.audit ++ [actionRecord env path remote session action ending] }) := by
  unfold DashboardApp.action DashboardApp.append
  rw [haction]
  dsimp only
  rw [run_bind, run_attempt, hsettle]
  dsimp only
  rw [if_pos haudit, run_bind, run_bind, run_ofExcept, hlogging]
  dsimp only
  rw [run_modify]
  dsimp only
  rw [run_bind, run_ofExcept]
  cases DashboardApp.dumps ending.body <;> rfl

/-- An exception that passes the handlers of the action passes the request. -/
theorem run_action_of_error {path remote action : String} {session : Session} {form : Form}
    {exn : Exn} (haction : (pathParts path).getLast? = some action)
    (hsettle : settle (answered app env action (targetOf (pathParts path) "integration") form
      session.role).1 = .error exn) :
    (app.action env path session form remote).run w =
      some (.error exn, w.call (answered app env action
        (targetOf (pathParts path) "integration") form session.role).2) := by
  unfold DashboardApp.action
  rw [haction]
  dsimp only
  rw [run_bind, run_attempt, hsettle]

/-- A request that carries a session is handled below `/api/v1/admin/`. -/
theorem run_handle {path token : String} {session : Session} (hmethod : request.method = "POST")
    (hrequire : app.requireAuth) (hpath : app.python.urlPath request.target = .ok path)
    (hadmin : startsWith "/api/v1/admin/" path)
    (hcookie : given (request.cookie "ubb_admin") = some token)
    (hlive : SessionStore.live? env.seen token w.sessions = some session) :
    (app.handle env request).run w = (app.postAdmin env request path session).run w := by
  have hlogin : path ≠ "/admin/login" := by
    rintro rfl
    revert hadmin
    decide
  unfold DashboardApp.handle DashboardApp.doPost DashboardApp.authenticate
    DashboardApp.getSession
  rw [hmethod, if_neg (by decide), if_pos rfl, run_bind, run_ofExcept, hpath]
  dsimp only
  rw [if_neg (not_not.mpr hrequire), if_neg hlogin, hcookie]
  dsimp only
  rw [run_bind, run_bind, run_get]
  dsimp only
  rw [hlive]
  dsimp only
  rw [run_pure]
  dsimp only
  rw [if_pos hadmin]

end Exactly

/-! ## What is true of a record -/

/-- Delegates were called, and every one of them returned. -/
def Returned (env : Environment) (calls : List Delegate) : Prop :=
  calls ≠ [] ∧ ∀ delegate ∈ calls, ∃ value, env.reply delegate = .ok value

/-- The action that a path names. -/
def actionOf (path : String) : String := (pathParts path).getLastD "unknown"

/-- The CSRF check of a request failed. -/
def CsrfFailed (app : DashboardApp) (request : Request) (session : Session) : Prop :=
  ∃ form, app.actionForm request = .ok form ∧
    (DashboardApp.supplied request form = "" ∨
      DashboardApp.supplied request form ≠ session.csrf.text)

/-- The request was answered and left one record, whose identifier no other has and whose
result is what happened. -/
structure Truthful (app : DashboardApp) (env : Environment) (request : Request) (path : String)
    (session : Session) (w w' : World) (response : Response) (record : AuditRecord)
    (calls : List Delegate) : Prop where
  answered : step app w (.request env request) = some (.answered (.ok response), w')
  logged : w'.audit = w.audit ++ [record]
  unique : (w'.audit.map AuditRecord.requestId).Nodup
  called : w'.invoked = w.invoked ++ calls
  success : record.result = .success ↔ Returned env calls
  denied : record.result = .denied ↔
    CsrfFailed app request session ∨ outranked session.role (actionOf path)
  failure : record.result = .failure ↔ ¬ Returned env calls ∧
    ¬ (CsrfFailed app request session ∨ outranked session.role (actionOf path))

/-! ## When it is -/

/-- The exceptions whose handler tells the truth about an action that was allowed. -/
def Exn.telling : Exn → Bool
  | .permissionError _ | .exit => false
  | .valueError _ | .notImplementedError _ | .backupError _ | .other _ => true

/-- A value that can be sent, or whose conversion is answered as a success all the same. -/
def Presentable (value : Value) : Prop :=
  match jsonable value with
  | .ok payload => serializable payload
  | .error exn => exn.telling

/-- Delegates, called one after the other until one raises: none raises what is taken for a
refusal or for nothing at all, and what the last one returns can be sent. -/
def Settles (reply : Delegate → Except Exn Value) : List Delegate → Prop
  | [] => True
  | [delegate] => (∀ exn, reply delegate = .error exn → exn.telling) ∧
      ∀ value, reply delegate = .ok value → Presentable value
  | delegate :: rest => (∀ exn, reply delegate = .error exn → exn.telling) ∧
      ∀ value, reply delegate = .ok value → Settles reply rest

/-- What the action must be like.  For a role that is too low there is an action service,
and a maintenance action finds its job registered or is refused there; for any other role
the exception before the first delegate, or what the delegates do, is told apart. -/
def Settled (app : DashboardApp) (env : Environment) (action target : String) (form : Form)
    (role : String) : Prop :=
  if outranked role action then
    ∃ service, app.actions = some service ∧ (action = "maintenance" → ∀ exn,
      service.lookup env.jobs target (form.first "job_id" "") = .error exn →
        ∃ message, exn = .permissionError message)
  else
    ∀ service, app.actions = some service →
      (∀ exn, service.plan env.jobs action target form = .error exn → exn.telling) ∧
      ∀ delegates, service.plan env.jobs action target form = .ok delegates →
        Settles env.reply delegates

/-- What a request must be like: its form can be read, the CSRF token it supplies is ASCII
text, and if it is the one of the session, the action is settled. -/
def Orderly (app : DashboardApp) (env : Environment) (request : Request) (path : String)
    (session : Session) : Prop :=
  ∃ form, app.actionForm request = .ok form ∧
    isAscii (DashboardApp.supplied request form) ∧
    (DashboardApp.supplied request form ≠ "" →
      DashboardApp.supplied request form = session.csrf.text →
      Settled app env (actionOf path) (targetOf (pathParts path) "integration") form session.role)

/-! ## The endings of an action -/

/-- An ending that can be sent and tells what happened. -/
structure Honest (env : Environment) (role action : String) (answer : Except Exn Value)
    (calls : List Delegate) (ending : Ending) : Prop where
  settled : settle answer = .ok ending
  dumped : DashboardApp.dumps ending.body = .ok ()
  success : ending.result = .success ↔ Returned env calls
  denied : ending.result = .denied ↔ outranked role action

theorem not_returned_nil (env : Environment) : ¬ Returned env [] := fun h => h.1 rfl

section Endings

variable {env : Environment} {role action : String}

theorem settle_permissionError (message : String) :
    settle (.error (.permissionError message)) = .ok ⟨403, .denied, message, .error message⟩ := rfl

@[simp] theorem settleStatus_result (ending : Ending) :
    (DashboardApp.settleStatus ending).result = ending.result := by
  unfold DashboardApp.settleStatus
  split <;> rfl

@[simp] theorem settleStatus_body (ending : Ending) :
    (DashboardApp.settleStatus ending).body = ending.body := by
  unfold DashboardApp.settleStatus
  split <;> rfl

/-- A telling exception leaves the result as it was, and its ending can be sent. -/
theorem concluded_telling {exn : Exn} (result : Result) (h : exn.telling) :
    ∃ ending, concluded result exn = .ok ending ∧ ending.result = result ∧
      DashboardApp.dumps ending.body = .ok () := by
  unfold concluded
  cases exn with
  | permissionError message => cases h
  | exit => cases h
  | _ => exact ⟨_, rfl, settleStatus_result _, by rw [settleStatus_body]; rfl⟩

theorem settle_telling {exn : Exn} (h : exn.telling) :
    ∃ ending, settle (.error exn) = .ok ending ∧ ending.result = .failure ∧
      DashboardApp.dumps ending.body = .ok () := concluded_telling .failure h

/-- A success stands only where its exception is a telling one. -/
theorem telling_of_concluded {exn : Exn} {ending : Ending} (h : concluded .success exn = .ok ending)
    (hsuccess : ending.result = .success) : exn.telling := by
  cases exn with
  | permissionError message =>
      cases h
      cases hsuccess
  | exit => cases h
  | _ => rfl

/-- Only whether every delegate returned counts. -/
theorem honest_congr {answer : Except Exn Value} {calls calls' : List Delegate}
    (h : Returned env calls ↔ Returned env calls') :
    (∃ ending, Honest env role action answer calls ending) ↔
      ∃ ending, Honest env role action answer calls' ending :=
  exists_congr fun _ => ⟨fun hhonest => ⟨hhonest.settled, hhonest.dumped, hhonest.success.trans h,
      hhonest.denied⟩,
    fun hhonest => ⟨hhonest.settled, hhonest.dumped, hhonest.success.trans h.symm, hhonest.denied⟩⟩

/-- A role that is too low: only the refusal of the service is told as one. -/
theorem honest_refused_iff (hlow : outranked role action) (exn : Exn) :
    (∃ ending, Honest env role action (.error exn) [] ending) ↔
      ∃ message, exn = .permissionError message := by
  constructor
  · rintro ⟨ending, h⟩
    have hdenied := h.denied.mpr hlow
    by_cases htelling : exn.telling
    · obtain ⟨ending', hsettle, hfailure, -⟩ := settle_telling htelling
      rw [h.settled, Except.ok.injEq] at hsettle
      rw [hsettle, hfailure] at hdenied
      cases hdenied
    · cases exn with
      | permissionError message => exact ⟨message, rfl⟩
      | exit => cases h.settled
      | _ => exact absurd rfl htelling
  · rintro ⟨message, rfl⟩
    refine ⟨_, settle_permissionError message, rfl, ?_, ?_⟩
    · exact iff_of_false (fun heq => nomatch heq) (not_returned_nil env)
    · exact iff_of_true rfl hlow

/-- A role that is high enough: an exception must be a telling one. -/
theorem honest_error_iff {calls : List Delegate} (hhigh : ¬ outranked role action)
    (hcalls : ¬ Returned env calls) (exn : Exn) :
    (∃ ending, Honest env role action (.error exn) calls ending) ↔ exn.telling := by
  constructor
  · rintro ⟨ending, h⟩
    cases exn with
    | permissionError message =>
        have hsettled := h.settled
        rw [settle_permissionError, Except.ok.injEq] at hsettled
        exact absurd (h.denied.mp (by rw [← hsettled])) hhigh
    | exit => cases h.settled
    | _ => rfl
  · intro htelling
    obtain ⟨ending, hsettle, hfailure, hdumped⟩ := settle_telling htelling
    refine ⟨ending, hsettle, hdumped, ?_, ?_⟩
    · rw [hfailure]
      exact iff_of_false (by decide) hcalls
    · rw [hfailure]
      exact iff_of_false (by decide) hhigh

/-- A value must be one that can be sent. -/
theorem honest_value_iff {calls : List Delegate} (hhigh : ¬ outranked role action)
    (hcalls : Returned env calls) (value : Value) :
    (∃ ending, Honest env role action (.ok value) calls ending) ↔ Presentable value := by
  unfold Presentable
  have hhonest : ∀ {ending}, settle (.ok value) = .ok ending → ending.result = .success →
      DashboardApp.dumps ending.body = .ok () → Honest env role action (.ok value) calls ending :=
    fun hsettle hresult hdumped => ⟨hsettle, hdumped, iff_of_true hresult hcalls,
      iff_of_false (by rw [hresult]; exact fun heq => nomatch heq) hhigh⟩
  cases hjsonable : jsonable value with
  | error exn =>
      constructor
      · rintro ⟨ending, h⟩
        exact telling_of_concluded ((settle_of_raise hjsonable).symm.trans h.settled)
          (h.success.mpr hcalls)
      · intro htelling
        obtain ⟨ending, hconcluded, hresult, hdumped⟩ := concluded_telling .success htelling
        exact ⟨ending, hhonest ((settle_of_raise hjsonable).trans hconcluded) hresult hdumped⟩
  | ok payload =>
      constructor
      · rintro ⟨ending, h⟩
        have hsettled := h.settled
        rw [settle_of_payload hjsonable, Except.ok.injEq] at hsettled
        have hdumped := h.dumped
        rw [← hsettled] at hdumped
        simpa [DashboardApp.dumps] using hdumped
      · intro hserializable
        exact ⟨_, hhonest (settle_of_payload hjsonable) rfl (if_pos hserializable)⟩

theorem carry_ne_nil (delegate : Delegate) (rest : List Delegate) :
    (carry env.reply (delegate :: rest)).2 ≠ [] := by
  cases rest with
  | nil => exact List.cons_ne_nil _ _
  | cons next rest =>
      cases hreply : env.reply delegate with
      | error exn =>
          rw [carry_of_error hreply]
          exact List.cons_ne_nil _ _
      | ok value =>
          rw [carry_of_ok hreply (List.cons_ne_nil _ _)]
          exact List.cons_ne_nil _ _

/-- A delegate that raises is the last one called. -/
theorem not_returned_of_error {delegate : Delegate} {exn : Exn}
    (h : env.reply delegate = .error exn) : ¬ Returned env [delegate] := fun hreturned => by
  obtain ⟨value, hvalue⟩ := hreturned.2 delegate (List.mem_singleton_self _)
  rw [h] at hvalue
  cases hvalue

/-- Delegates that are carried out one after the other. -/
theorem honest_carry_iff (hhigh : ¬ outranked role action) (delegates : List Delegate) :
    (∃ ending, Honest env role action (carry env.reply delegates).1
      (carry env.reply delegates).2 ending) ↔ Settles env.reply delegates := by
  induction delegates with
  | nil => exact (honest_error_iff hhigh (not_returned_nil env) _).trans (iff_of_true rfl trivial)
  | cons delegate rest ih =>
      cases hreply : env.reply delegate with
      | error exn =>
          have hsettles : Settles env.reply (delegate :: rest) ↔ exn.telling := by
            cases rest <;> simp [Settles, hreply]
          rw [carry_of_error hreply, hsettles]
          exact honest_error_iff hhigh (not_returned_of_error hreply) exn
      | ok value =>
          cases rest with
          | nil =>
              have hreturned : Returned env [delegate] :=
                ⟨List.cons_ne_nil _ _, List.forall_mem_singleton.mpr ⟨value, hreply⟩⟩
              simp only [carry, Settles, hreply]
              rw [honest_value_iff hhigh hreturned]
              simp
          | cons next rest =>
              have hsettles : Settles env.reply (delegate :: next :: rest) ↔
                  Settles env.reply (next :: rest) := by
                simp [Settles, hreply]
              have hreturned : Returned env (delegate :: (carry env.reply (next :: rest)).2) ↔
                  Returned env (carry env.reply (next :: rest)).2 := by
                unfold Returned
                rw [List.forall_mem_cons]
                exact and_congr (iff_of_true (List.cons_ne_nil _ _) (carry_ne_nil next rest))
                  (and_iff_right ⟨value, hreply⟩)
              rw [carry_of_ok hreply (List.cons_ne_nil _ _), hsettles, ← ih]
              exact honest_congr hreturned

/-- What an action answers and calls is told as it is, exactly when it is settled. -/
theorem honest_iff (app : DashboardApp) (target : String) (form : Form) :
    (∃ ending, Honest env role action (answered app env action target form role).1
      (answered app env action target form role).2 ending) ↔
      Settled app env action target form role := by
  unfold Settled answered
  by_cases hlow : outranked role action = true
  · rw [if_pos hlow]
    cases app.actions with
    | none =>
        rw [honest_refused_iff hlow]
        simp
    | some service =>
        dsimp only
        unfold acted
        rw [if_pos hlow]
        -- a maintenance job is looked up before the role is checked
        by_cases haction : action = "maintenance"
        · rw [if_pos haction]
          cases hlookup : service.lookup env.jobs target (form.first "job_id" "") with
          | error exn =>
              unfold after
              rw [honest_refused_iff hlow]
              simp [haction, hlookup]
          | ok _ =>
              unfold after refused
              rw [honest_refused_iff hlow]
              simp [hlookup]
        · rw [if_neg haction]
          unfold refused
          rw [honest_refused_iff hlow]
          simp [haction]
  · rw [if_neg hlow]
    cases app.actions with
    | none =>
        rw [honest_error_iff hlow (not_returned_nil env)]
        simp [Exn.telling]
    | some service =>
        dsimp only
        unfold acted
        rw [if_neg hlow]
        cases hplan : service.plan env.jobs action target form with
        | error exn =>
            unfold follow
            rw [honest_error_iff hlow (not_returned_nil env)]
            simp [hplan]
        | ok delegates =>
            unfold follow
            rw [honest_carry_iff hlow]
            simp [hplan]

end Endings

/-! ## The request as a whole -/

section Requests

variable {app : DashboardApp} {env : Environment} {request : Request} {path : String}
  {session : Session} {w : World}

/-- Empty pieces leave nothing but the separators. -/
theorem eq_of_mem_intercalate {sep c : Char} {pieces : List (List Char)}
    (hpieces : ∀ piece ∈ pieces, piece = []) (hc : c ∈ [sep].intercalate pieces) : c = sep := by
  unfold List.intercalate at hc
  induction pieces with
  | nil => cases hc
  | cons piece rest ih =>
      obtain ⟨hpiece, hrest⟩ := List.forall_mem_cons.mp hpieces
      cases rest with
      | nil =>
          rw [hpiece] at hc
          cases hc
      | cons next rest =>
          rw [List.intersperse_cons_cons, List.flatten_cons, List.flatten_cons, hpiece,
            List.nil_append] at hc
          rcases List.mem_append.mp hc with hsep | htail
          · exact List.mem_singleton.mp hsep
          · exact ih hrest htail

theorem pathParts_ne_nil (hadmin : startsWith "/api/v1/admin/" path) : pathParts path ≠ [] := by
  intro hnil
  have hpieces : ∀ piece ∈ path.toList.splitOn '/', piece = [] := by
    have hfilter := List.map_eq_nil_iff.mp hnil
    rw [List.filter_eq_nil_iff] at hfilter
    simpa using hfilter
  have hmem : 'a' ∈ path.toList := (List.isPrefixOf_iff_prefix.mp hadmin).subset (by decide)
  have hjoined : ['/'].intercalate (path.toList.splitOn '/') = path.toList :=
    List.intercalate_splitOn '/'
  rw [← hjoined] at hmem
  exact absurd (eq_of_mem_intercalate hpieces hmem) (by decide)

/-- The last part of the path is the action. -/
theorem getLast?_pathParts (hadmin : startsWith "/api/v1/admin/" path) :
    (pathParts path).getLast? = some (actionOf path) := by
  unfold actionOf
  rw [List.getLastD_eq_getLast?, List.getLast?_eq_some_getLast (pathParts_ne_nil hadmin)]
  rfl

theorem run_postAdmin_of_form {exn : Exn} (hform : app.actionForm request = .error exn) :
    (app.postAdmin env request path session).run w = some (.error exn, w) := by
  unfold DashboardApp.postAdmin
  rw [run_bind, run_ofExcept, hform]

theorem run_postAdmin_of_csrf {form : Form} {exn : Exn} (hform : app.actionForm request = .ok form)
    (hcsrf : DashboardApp.csrfRejected (DashboardApp.supplied request form) session = .error exn) :
    (app.postAdmin env request path session).run w = some (.error exn, w) := by
  unfold DashboardApp.postAdmin
  rw [run_bind, run_ofExcept, hform]
  dsimp only
  rw [run_bind, run_ofExcept, hcsrf]

/-- A request whose CSRF check failed is recorded as denied. -/
theorem run_postAdmin_of_rejected {form : Form} (haudit : app.audit)
    (hlogging : env.logging = .ok ()) (hform : app.actionForm request = .ok form)
    (hcsrf : DashboardApp.csrfRejected (DashboardApp.supplied request form) session = .ok true) :
    (app.postAdmin env request path session).run w =
      some (.ok (send 403 (.html "CSRF rejected") []),
        { w with audit := w.audit ++ [DashboardApp.recordOf env session.username session.role
          (actionOf path) (targetOf (pathParts path) "admin") .denied request.remote
          "csrf rejected"] }) := by
  unfold DashboardApp.postAdmin DashboardApp.append
  rw [run_bind, run_ofExcept, hform]
  dsimp only
  rw [run_bind, run_ofExcept, hcsrf]
  dsimp only
  rw [if_pos rfl, if_pos haudit, run_bind, run_bind, run_ofExcept, hlogging]
  rfl

/-- A request whose CSRF check passed is an action. -/
theorem run_postAdmin_of_accepted {form : Form} (hform : app.actionForm request = .ok form)
    (hcsrf : DashboardApp.csrfRejected (DashboardApp.supplied request form) session = .ok false) :
    (app.postAdmin env request path session).run w =
      (app.action env path session form request.remote).run w := by
  unfold DashboardApp.postAdmin
  rw [run_bind, run_ofExcept, hform]
  dsimp only
  rw [run_bind, run_ofExcept, hcsrf]
  dsimp only
  rw [if_neg Bool.false_ne_true]

/-- What the CSRF check answers. -/
theorem csrfRejected_cases (supplied : String) (session : Session) :
    (¬ isAscii supplied ∧ supplied ≠ "" ∧
      ∃ exn, DashboardApp.csrfRejected supplied session = .error exn) ∨
    (isAscii supplied ∧ (supplied = "" ∨ supplied ≠ session.csrf.text) ∧
      DashboardApp.csrfRejected supplied session = .ok true) ∨
    (isAscii supplied ∧ supplied ≠ "" ∧ supplied = session.csrf.text ∧
      DashboardApp.csrfRejected supplied session = .ok false) := by
  unfold DashboardApp.csrfRejected compareDigest
  by_cases hempty : supplied = ""
  · subst hempty
    exact .inr (.inl ⟨by decide, .inl rfl, rfl⟩)
  · rw [if_neg hempty, session.csrf.ascii, Bool.and_true]
    by_cases hascii : isAscii supplied = true
    · rw [if_pos hascii]
      by_cases heq : supplied = session.csrf.text
      · exact .inr (.inr ⟨hascii, hempty, heq, by simp [Except.map, heq]⟩)
      · exact .inr (.inl ⟨hascii, .inr heq, by simp [Except.map, heq]⟩)
    · rw [if_neg hascii]
      exact .inl ⟨hascii, hempty, _, rfl⟩

/-- Success, denial and failure exclude each other. -/
theorem failure_iff (record : AuditRecord) {P Q : Prop} (hsuccess : record.result = .success ↔ P)
    (hdenied : record.result = .denied ↔ Q) : record.result = .failure ↔ ¬ P ∧ ¬ Q := by
  rw [← hsuccess, ← hdenied]
  cases record.result <;> simp

/-- The step that a request with a session takes. -/
theorem step_of_run {answer : Except Exn Response} {w' : World}
    (hhandle : (app.handle env request).run w = (app.postAdmin env request path session).run w)
    (hrun : (app.postAdmin env request path session).run w = some (answer, w')) :
    step app w (.request env request) = some (.answered answer, w') := by
  simp only [step, hhandle, hrun, Option.map_some]

/-- An accepted action leaves a truthful record exactly when its ending is honest. -/
theorem truthful_iff_honest {form : Form} (haudit : app.audit) (hlogging : env.logging = .ok ())
    (hadmin : startsWith "/api/v1/admin/" path)
    (hnodup : (w.audit.map AuditRecord.requestId).Nodup)
    (hfresh : Fresh w (.request env request))
    (hhandle : (app.handle env request).run w = (app.postAdmin env request path session).run w)
    (hform : app.actionForm request = .ok form)
    (hcsrf : DashboardApp.csrfRejected (DashboardApp.supplied request form) session = .ok false)
    (hpassed : ¬ CsrfFailed app request session) :
    (∃ w' response record calls,
      Truthful app env request path session w w' response record calls) ↔
    ∃ ending, Honest env session.role (actionOf path)
      (answered app env (actionOf path) (targetOf (pathParts path) "integration") form
        session.role).1
      (answered app env (actionOf path) (targetOf (pathParts path) "integration") form
        session.role).2 ending := by
  have haction := getLast?_pathParts hadmin
  have hrun : (app.postAdmin env request path session).run w =
      (app.action env path session form request.remote).run w :=
    run_postAdmin_of_accepted hform hcsrf
  constructor
  · rintro ⟨w', response, record, calls, h⟩
    have hanswered := h.answered
    cases hsettle : settle (answered app env (actionOf path)
        (targetOf (pathParts path) "integration") form session.role).1 with
    | error exn =>
        rw [run_action_of_error haction hsettle] at hrun
        rw [step_of_run hhandle hrun] at hanswered
        cases hanswered
    | ok ending =>
        rw [run_action_of_ok haudit hlogging haction hsettle] at hrun
        rw [step_of_run hhandle hrun, Option.some.injEq, Prod.mk.injEq, Outcome.answered.injEq]
          at hanswered
        obtain ⟨hdumped, rfl⟩ := hanswered
        -- the log has grown by one record, so the record is the one of the action
        have hrecord : actionRecord env path request.remote session (actionOf path) ending =
            record := (List.cons.inj (List.append_cancel_left h.logged)).1
        have hresult : ending.result = record.result := congrArg AuditRecord.result hrecord
        have hcalls := List.append_cancel_left h.called
        refine ⟨ending, hsettle, ?_, ?_, ?_⟩
        · cases hdumps : DashboardApp.dumps ending.body with
          | ok _ => rfl
          | error exn =>
              rw [hdumps] at hdumped
              cases hdumped
        · rw [hresult, hcalls]
          exact h.success
        · rw [hresult]
          exact h.denied.trans (or_iff_right hpassed)
  · rintro ⟨ending, h⟩
    rw [run_action_of_ok haudit hlogging haction h.settled, h.dumped] at hrun
    have hdenied := h.denied.trans (or_iff_right hpassed).symm
    have htruthful : Truthful app env request path session w _ _
        (actionRecord env path request.remote session (actionOf path) ending) _ :=
      { answered := step_of_run hhandle hrun
        logged := rfl
        unique := nodup_append_record hnodup hfresh
        called := rfl
        success := h.success
        denied := hdenied
        failure := failure_iff (actionRecord env path request.remote session (actionOf path)
          ending) h.success hdenied }
    exact ⟨_, _, _, _, htruthful⟩

/-- A request whose CSRF check failed leaves a truthful record. -/
theorem truthful_of_rejected {form : Form} (haudit : app.audit) (hlogging : env.logging = .ok ())
    (hnodup : (w.audit.map AuditRecord.requestId).Nodup) (hfresh : Fresh w (.request env request))
    (hhandle : (app.handle env request).run w = (app.postAdmin env request path session).run w)
    (hform : app.actionForm request = .ok form)
    (hcsrf : DashboardApp.csrfRejected (DashboardApp.supplied request form) session = .ok true)
    (hrejected : CsrfFailed app request session) :
    ∃ w' response record calls,
      Truthful app env request path session w w' response record calls := by
  have hrun : (app.postAdmin env request path session).run w = _ :=
    run_postAdmin_of_rejected haudit hlogging hform hcsrf
  have hsuccess : Result.denied = .success ↔ Returned env [] :=
    iff_of_false (by decide) (not_returned_nil env)
  have hdenied : Result.denied = .denied ↔
      CsrfFailed app request session ∨ outranked session.role (actionOf path) :=
    iff_of_true rfl (.inl hrejected)
  have htruthful : Truthful app env request path session w _ _
      (DashboardApp.recordOf env session.username session.role (actionOf path)
        (targetOf (pathParts path) "admin") .denied request.remote "csrf rejected") [] :=
    { answered := step_of_run hhandle hrun
      logged := rfl
      unique := nodup_append_record hnodup hfresh
      called := (List.append_nil _).symm
      success := hsuccess
      denied := hdenied
      failure := failure_iff (DashboardApp.recordOf env session.username session.role
        (actionOf path) (targetOf (pathParts path) "admin") .denied request.remote
        "csrf rejected") hsuccess hdenied }
  exact ⟨_, _, _, _, htruthful⟩

/-- A request that carries a session is answered, and leaves one record with an identifier
of its own that says what happened, exactly when it is orderly. -/
theorem truthful_iff_orderly {users : Users} {maxEntries : ℕ} {token : String}
    (haudit : app.audit)
    (hrun : Machine.Run (step app) Fresh (.fresh users maxEntries) w)
    (hfresh : Fresh w (.request env request)) (hlogging : env.logging = .ok ())
    (hmethod : request.method = "POST") (hpath : app.python.urlPath request.target = .ok path)
    (hadmin : startsWith "/api/v1/admin/" path)
    (hcookie : given (request.cookie "ubb_admin") = some token)
    (hlive : SessionStore.live? env.seen token w.sessions = some session) :
    (∃ w' response record calls,
      Truthful app env request path session w w' response record calls) ↔
    Orderly app env request path session := by
  have hnodup := requestIds_nodup hrun
  have hrequire : app.requireAuth := by
    have hget := (SessionStore.live?_eq_some.mp hlive).1
    obtain ⟨newer, older, time, hopened⟩ := (Consistent.run hrun).sessions token session hget
    exact hopened.opens.required
  have hhandle := run_handle hmethod hrequire hpath hadmin hcookie hlive
  -- a request that raises is not answered
  have hraised : ∀ {exn}, (app.postAdmin env request path session).run w = some (.error exn, w) →
      ¬ ∃ w' response record calls,
        Truthful app env request path session w w' response record calls := by
    rintro exn hrun ⟨w', response, record, calls, h⟩
    have hanswered := h.answered
    rw [step_of_run hhandle hrun] at hanswered
    cases hanswered
  cases hform : app.actionForm request with
  | error exn =>
      refine iff_of_false (hraised (run_postAdmin_of_form hform)) ?_
      rintro ⟨form, hform', -⟩
      rw [hform] at hform'
      cases hform'
  | ok form =>
      have honly : ∀ {form'}, app.actionForm request = .ok form' → form' = form := by
        intro form' hform'
        rw [hform] at hform'
        exact (Except.ok.inj hform').symm
      -- the comparison of the tokens raises, rejects or accepts
      rcases csrfRejected_cases (DashboardApp.supplied request form) session with
        ⟨hascii, -, exn, hcsrf⟩ | ⟨hascii, hfailed, hcsrf⟩ | ⟨hascii, hgiven, hmatches, hcsrf⟩
      · refine iff_of_false (hraised (run_postAdmin_of_csrf hform hcsrf)) ?_
        rintro ⟨form', hform', hascii', -⟩
        rw [honly hform'] at hascii'
        exact hascii hascii'
      · have hrejected : CsrfFailed app request session := ⟨form, hform, hfailed⟩
        have horderly : Orderly app env request path session := ⟨form, hform, hascii,
          fun hgiven hmatches => (hfailed.elim hgiven fun hne => hne hmatches).elim⟩
        exact iff_of_true (truthful_of_rejected haudit hlogging hnodup hfresh hhandle hform hcsrf
          hrejected) horderly
      · have hpassed : ¬ CsrfFailed app request session := by
          rintro ⟨form', hform', hfailed⟩
          rw [honly hform'] at hfailed
          exact hfailed.elim hgiven fun hne => hne hmatches
        rw [truthful_iff_honest haudit hlogging hadmin hnodup hfresh hhandle hform hcsrf hpassed,
          honest_iff]
        constructor
        · intro hsettled
          exact ⟨form, hform, hascii, fun _ _ => hsettled⟩
        · rintro ⟨form', hform', -, hsettled⟩
          rw [honly hform'] at hsettled
          exact hsettled hgiven hmatches

end Requests

/-! ## A request that is recorded and one that is not -/

/-- The operator starts a service. -/
theorem truthful_iff_orderly_of_start :
    ∃ (w w' : World) (session : Session) (response : Response) (record : AuditRecord)
      (calls : List Delegate),
      Truthful plainApp (moment 2000 ⟨"r2", by decide⟩) startRequest
        "/api/v1/admin/services/demo/start" session w w' response record calls := by
  have hexec : ((Machine.exec (step plainApp) Fresh (.fresh oneOperator 4096)
      [.request (moment 1000 ⟨"r1", by decide⟩) loginRequest]).bind fun w =>
        (SessionStore.live? 2000 "q7pXl0" w.sessions).map fun session =>
          decide (Fresh w (.request (moment 2000 ⟨"r2", by decide⟩) startRequest) ∧
            session.role = "operator")) = some true := by
    decide +kernel
  obtain ⟨w, hw, hobserved⟩ := Option.bind_eq_some_iff.mp hexec
  obtain ⟨session, hlive, hobserved⟩ := Option.map_eq_some_iff.mp hobserved
  obtain ⟨hfresh, hrole⟩ := of_decide_eq_true hobserved
  have hsettled : Settled plainApp (moment 2000 ⟨"r2", by decide⟩) "start" "demo" ∅
      session.role := by
    unfold Settled
    rw [hrole, if_neg (by decide)]
    rintro service ⟨⟩
    refine ⟨fun exn hplan => ?_, fun delegates hplan => ?_⟩
    · cases hplan
    · cases hplan
      refine ⟨fun exn hreply => ?_, fun value hreply => ?_⟩
      · cases hreply
      · cases hreply
        rfl
  have hparts : actionOf "/api/v1/admin/services/demo/start" = "start" ∧
      targetOf (pathParts "/api/v1/admin/services/demo/start") "integration" = "demo" := by
    decide
  have hcsrf : isAscii (DashboardApp.supplied startRequest ∅) := by decide
  have horderly : Orderly plainApp (moment 2000 ⟨"r2", by decide⟩) startRequest
      "/api/v1/admin/services/demo/start" session := by
    refine ⟨∅, by rfl, hcsrf, fun _ _ => ?_⟩
    rw [hparts.1, hparts.2]
    exact hsettled
  have hcookie : given (startRequest.cookie "ubb_admin") = some "q7pXl0" := by decide
  obtain ⟨w', response, record, calls, h⟩ := (truthful_iff_orderly rfl (Machine.run_of_exec hw)
    hfresh rfl rfl (by rfl) (by decide) hcookie hlive).mpr horderly
  exact ⟨w, w', session, response, record, calls, h⟩

/-- A request to start a service whose length is not a number. -/
def malformedRequest : Request :=
  { startRequest with headers := startRequest.headers ++ [("Content-Length", "abc")] }

/-- Whether a request ended in an exception. -/
def Outcome.raised : Outcome → Bool
  | .answered (.error _) => true
  | _ => false

/-- With a length that is not a number a request that carries a session and its CSRF token
is neither answered nor recorded. -/
theorem malformed_length_unrecorded :
    ∃ (w w' : World) (session : Session) (outcome : Outcome),
      Machine.Run (step plainApp) Fresh (.fresh oneOperator 4096) w ∧
      SessionStore.live? 2000 "q7pXl0" w.sessions = some session ∧
      DashboardApp.supplied malformedRequest ∅ = session.csrf.text ∧
      step plainApp w (.request (moment 2000 ⟨"r2", by decide⟩) malformedRequest) =
        some (outcome, w') ∧ w'.audit = w.audit ∧
      ¬ ∃ w' response record calls,
        Truthful plainApp (moment 2000 ⟨"r2", by decide⟩) malformedRequest
          "/api/v1/admin/services/demo/start" session w w' response record calls := by
  have hexec : ((Machine.exec (step plainApp) Fresh (.fresh oneOperator 4096)
      [.request (moment 1000 ⟨"r1", by decide⟩) loginRequest]).bind fun w =>
        (SessionStore.live? 2000 "q7pXl0" w.sessions).bind fun session =>
        (step plainApp w (.request (moment 2000 ⟨"r2", by decide⟩) malformedRequest)).map
          fun result => decide (result.1.raised ∧ result.2.audit = w.audit ∧
            DashboardApp.supplied malformedRequest ∅ = session.csrf.text)) = some true := by
    decide +kernel
  obtain ⟨w, hw, hobserved⟩ := Option.bind_eq_some_iff.mp hexec
  obtain ⟨session, hlive, hobserved⟩ := Option.bind_eq_some_iff.mp hobserved
  obtain ⟨⟨outcome, w'⟩, hstep, hobserved⟩ := Option.map_eq_some_iff.mp hobserved
  obtain ⟨hraised, haudit, hsupplied⟩ := of_decide_eq_true hobserved
  refine ⟨w, w', session, outcome, Machine.run_of_exec hw, hlive, hsupplied, hstep, haudit, ?_⟩
  rintro ⟨w₁, response, record, calls, h⟩
  have hanswered := h.answered
  rw [hstep, Option.some.injEq, Prod.mk.injEq] at hanswered
  rw [hanswered.1] at hraised
  cases hraised

end UltimateBBSBox.Admin

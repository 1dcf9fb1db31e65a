import UltimateBBSBox.Admin.Runs

/-!
# What an action comes to

The action service spreads over nine methods with their checks.  Seen from outside, an
action has a role it requires and a plan: the delegates that the service, as it is set
up, calls one after the other, or the exception it raises before the first of them.
`run_dispatch` says that the handler's call of the service does this and nothing else.
-/

namespace UltimateBBSBox.Admin

open Act

/-! ## Requirements and plans -/

/-- The role an action requires. -/
def requiredRole (action : String) : Option String :=
  if action ∈ ["start", "stop", "restart", "maintenance", "backup", "qualify"] then some "operator"
  else if action ∈ ["promote", "rollback", "lifecycle"] then some "administrator"
  else none

/-- The role ranks below the one that the action requires. -/
def outranked (role action : String) : Bool :=
  (requiredRole action).any fun needed => decide (rank role < rank needed)

/-- Delegates one after the other, or the exception raised before the first. -/
abbrev Plan := Except Exn (List Delegate)

namespace AdminActionService

variable (service : AdminActionService)

/-- A plan that needs the supervisor. -/
def supervisedPlan (delegates : List Delegate) : Plan :=
  if service.supervisor then .ok delegates
  else .error (.other "'NoneType' object has no such attribute")

/-- A plan that needs an integration. -/
def integratedPlan (identifier : String) (delegate : Delegate) : Plan :=
  match service.integrations with
  | none => .error (.other "'NoneType' object has no attribute 'get'")
  | some known =>
      if identifier ∈ known then .ok [delegate]
      else .error (.other (s!"unknown integration: " ++ identifier))

/-- A plan that needs an integration and the root it is deployed in. -/
def deployedPlan (identifier : String) (delegate : String → Delegate) : Plan :=
  if service.integrations.isNone then
    .error (.notImplementedError "integration API unavailable")
  else
    match given (service.installRoots.get? identifier) with
    | none => .error (.notImplementedError "integration deployment root unavailable")
    | some root => service.integratedPlan identifier (delegate root)

/-- The look at the registry with which a maintenance action starts. -/
def lookup (jobs : String → Except Exn (List (Option String))) (target job : String) :
    Except Exn Unit :=
  if service.supervisor then do
    let jobs ← jobs target
    if jobs.any (· == some job) then .ok () else .error (.valueError "maintenance job is not registered")
  else .error (.other "'NoneType' object has no attribute 'registry'")

/-- The plan of an action for a role that ranks high enough. -/
def plan (jobs : String → Except Exn (List (Option String))) (action target : String)
    (form : Form) : Plan :=
  if action = "start" then service.supervisedPlan [.start target "admin"]
  else if action = "stop" then service.supervisedPlan [.stop target]
  else if action = "restart" then service.supervisedPlan [.stop target, .start target "admin"]
  else if action = "maintenance" then
    (service.lookup jobs target (form.first "job_id" "")).map fun _ =>
      [.runMaintenance target (form.first "job_id" "")]
  else if action = "backup" then
    if service.backupApi then .ok [.backupApi target]
    else .error (.notImplementedError "backup API unavailable")
  else if action = "qualify" then
    let identifier := form.first "integration" target
    let release := form.first "release" ""
    if service.qualifyApi then .ok [.qualifyApi identifier release]
    else
      match given (service.installRoots.get? identifier), given service.archiveRoot with
      | some root, some archiveRoot =>
          service.integratedPlan identifier (.qualify identifier archiveRoot release root)
      | _, _ => .error (.notImplementedError "qualification API unavailable")
  else if action = "promote" then
    let identifier := form.first "integration" "amiexpress-amiga"
    service.deployedPlan identifier fun root =>
      .promote identifier root (form.first "release" "")
  else if action = "rollback" then
    let identifier := form.first "integration" "amiexpress-amiga"
    service.deployedPlan identifier fun root => .rollback identifier root
  else if action = "lifecycle" then
    let mode := form.first "mode" ""
    if mode ≠ "always_on" ∧ mode ≠ "on_demand" then
      .error (.valueError "invalid lifecycle mode")
    else if ¬ (service.supervisor ∧ service.setsLifecycleMode) then
      .error (.notImplementedError "deployment lifecycle API unavailable")
    else service.supervisedPlan [.setLifecycleMode target mode]
  else .error (.valueError "unsupported action")

end AdminActionService

/-- Call delegates one after the other until one raises: the last answer, and the delegates
that were called. -/
def carry (reply : Delegate → Except Exn Value) :
    List Delegate → Except Exn Value × List Delegate
  | [] => (.error (.other "nothing to call"), [])
  | [delegate] => (reply delegate, [delegate])
  | delegate :: rest =>
      match reply delegate with
      | .error exn => (.error exn, [delegate])
      | .ok _ => ((carry reply rest).1, delegate :: (carry reply rest).2)

theorem carry_of_error {reply : Delegate → Except Exn Value} {delegate : Delegate} {exn : Exn}
    (h : reply delegate = .error exn) (rest : List Delegate) :
    carry reply (delegate :: rest) = (.error exn, [delegate]) := by
  cases rest <;> simp [carry, h]

theorem carry_of_ok {reply : Delegate → Except Exn Value} {delegate : Delegate} {value : Value}
    (h : reply delegate = .ok value) {rest : List Delegate} (hrest : rest ≠ []) :
    carry reply (delegate :: rest) = ((carry reply rest).1, delegate :: (carry reply rest).2) := by
  cases rest with
  | nil => exact absurd rfl hrest
  | cons next rest => simp [carry, h]

/-- What carrying a plan out answers and calls. -/
def follow (reply : Delegate → Except Exn Value) (plan : Plan) :
    Except Exn Value × List Delegate :=
  match plan with
  | .error exn => (.error exn, [])
  | .ok delegates => carry reply delegates

/-- An answer behind a check. -/
def after (checked : Except Exn Unit) (result : Except Exn Value × List Delegate) :
    Except Exn Value × List Delegate :=
  match checked with
  | .error exn => (.error exn, [])
  | .ok () => result

/-- The answer to a role that is too low. -/
def refused : Except Exn Value × List Delegate :=
  (.error (.permissionError "insufficient role"), [])

/-- What an action answers and calls: a role that is too low is refused, for a maintenance
action after the look at the registry. -/
def acted (service : AdminActionService) (env : Environment) (action target : String)
    (form : Form) (role : String) : Except Exn Value × List Delegate :=
  if outranked role action then
    if action = "maintenance" then
      after (service.lookup env.jobs target (form.first "job_id" "")) refused
    else refused
  else follow env.reply (service.plan env.jobs action target form)

/-! ## The service follows the plan -/

/-- The state after delegates have been called. -/
def World.call (w : World) (delegates : List Delegate) : World :=
  { w with invoked := w.invoked ++ delegates }

@[simp] theorem World.call_nil (w : World) : w.call [] = w := by
  unfold World.call
  rw [List.append_nil]

@[simp] theorem World.call_call (w : World) (first second : List Delegate) :
    (w.call first).call second = w.call (first ++ second) := by
  unfold World.call
  rw [List.append_assoc]

/-- A program gives an answer and calls delegates, and does nothing else. -/
def Answers (act : Act World Exn Value) (result : Except Exn Value × List Delegate) : Prop :=
  ∀ w, act.run w = some (result.1, w.call result.2)

theorem run_ofExcept {α : Type} (result : Except Exn α) (w : World) :
    (Act.ofExcept result : Act World Exn α).run w = some (result, w) := by
  cases result <;> rfl

namespace Answers

variable {env : Environment} {service : AdminActionService} {role : String}

theorem throw (exn : Exn) : Answers (throw exn) (.error exn, []) := fun w => by
  rw [run_throw, World.call_nil]

theorem call (delegate : Delegate) :
    Answers ((DashboardApp.others env).call delegate) (env.reply delegate, [delegate]) := fun w => by
  unfold DashboardApp.others
  rw [run_bind, run_modify]
  exact run_ofExcept _ _

/-- Two delegates: the second is called when the first has returned. -/
theorem bind {act act' : Act World Exn Value} {delegate : Delegate} {rest : List Delegate}
    (hact : Answers act (env.reply delegate, [delegate]))
    (hact' : Answers act' (carry env.reply rest)) (hrest : rest ≠ []) :
    Answers (do let _ ← act; act') (carry env.reply (delegate :: rest)) := fun w => by
  rw [run_bind, hact w]
  cases hreply : env.reply delegate with
  | error exn => rw [carry_of_error hreply]
  | ok value =>
      rw [carry_of_ok hreply hrest]
      dsimp only
      rw [hact' _, World.call_call]
      rfl

theorem supervised (delegate : Delegate) :
    Answers (service.supervised (DashboardApp.others env) delegate)
      (follow env.reply (service.supervisedPlan [delegate])) := by
  unfold AdminActionService.supervised AdminActionService.supervisedPlan
  by_cases h : service.supervisor = true
  · rw [if_pos h, if_pos h]
    exact call delegate
  · rw [if_neg h, if_neg h]
    exact throw _

theorem supervised_two (first second : Delegate) :
    Answers (do
        let _ ← service.supervised (DashboardApp.others env) first
        service.supervised (DashboardApp.others env) second)
      (follow env.reply (service.supervisedPlan [first, second])) := by
  unfold AdminActionService.supervised AdminActionService.supervisedPlan
  by_cases h : service.supervisor = true
  · rw [if_pos h, if_pos h, if_pos h]
    exact bind (call first) (call second) (List.cons_ne_nil _ _)
  · rw [if_neg h, if_neg h, if_neg h]
    exact fun w => throw _ w

theorem integrated (identifier : String) (delegate : Delegate) :
    Answers (service.integrated (DashboardApp.others env) identifier delegate)
      (follow env.reply (service.integratedPlan identifier delegate)) := by
  unfold AdminActionService.integrated AdminActionService.integratedPlan
  cases service.integrations with
  | none => exact throw _
  | some known =>
      dsimp only
      by_cases h : identifier ∈ known
      · rw [if_pos h, if_pos h]
        exact call delegate
      · rw [if_neg h, if_neg h]
        exact throw _

theorem deployed (identifier : String) (delegate : String → Delegate) :
    Answers (service.deployed (DashboardApp.others env) identifier delegate)
      (follow env.reply (service.deployedPlan identifier delegate)) := by
  unfold AdminActionService.deployed AdminActionService.deployedPlan
  by_cases h : service.integrations.isNone = true
  · rw [if_pos h, if_pos h]
    exact throw _
  · rw [if_neg h, if_neg h]
    cases given (service.installRoots.get? identifier) with
    | none => exact throw _
    | some root => exact integrated identifier (delegate root)

/-- A program is what a condition picks. -/
theorem ite {c : Prop} [Decidable c] {act act' : Act World Exn Value} {plan plan' : Plan}
    (h : c → Answers act (follow env.reply plan)) (h' : ¬ c → Answers act' (follow env.reply plan')) :
    Answers (if c then act else act') (follow env.reply (if c then plan else plan')) := by
  by_cases hc : c
  · rw [if_pos hc, if_pos hc]
    exact h hc
  · rw [if_neg hc, if_neg hc]
    exact h' hc

/-- The check of the role in front. -/
theorem p {needed : String} {act : Act World Exn Value} {result : Except Exn Value × List Delegate}
    (h : Answers act result) :
    Answers (do AdminActionService.p role needed; act)
      (if rank role < rank needed then refused else result) := fun w => by
  unfold AdminActionService.p
  rw [run_bind]
  by_cases hrank : rank role < rank needed
  · rw [if_pos hrank, if_pos hrank, run_throw]
    exact throw _ w
  · rw [if_neg hrank, if_neg hrank, run_pure]
    exact h w

/-- Another check in front. -/
theorem after {checked : Except Exn Unit} {act : Act World Exn Value}
    {result : Except Exn Value × List Delegate} (h : Answers act result) :
    Answers (do Act.ofExcept checked; act) (Admin.after checked result) := fun w => by
  rw [run_bind, run_ofExcept]
  cases checked with
  | error exn => exact throw exn w
  | ok _ => exact h w

/-- An action whose method checks the role first. -/
theorem guarded {action target needed : String} {form : Form} {act : Act World Exn Value}
    (hrole : requiredRole action = some needed) (haction : action ≠ "maintenance")
    (h : Answers act (follow env.reply (service.plan env.jobs action target form))) :
    Answers (do AdminActionService.p role needed; act)
      (acted service env action target form role) := by
  have heq : acted service env action target form role =
      if rank role < rank needed then refused
      else follow env.reply (service.plan env.jobs action target form) := by
    unfold acted outranked
    rw [hrole, if_neg haction, Option.any_some]
    by_cases hrank : rank role < rank needed
    · rw [decide_eq_true hrank, if_pos rfl, if_pos hrank]
    · rw [decide_eq_false hrank, if_neg Bool.false_ne_true, if_neg hrank]
  rw [heq]
  exact h.p

/-- The maintenance action is a look at the registry, and then the rest. -/
theorem job_eq (target name : String) :
    service.job (DashboardApp.others env) target name role = (do
      Act.ofExcept (service.lookup env.jobs target name)
      service.maintenance (DashboardApp.others env) target name role) := by
  unfold AdminActionService.job AdminActionService.lookup
  by_cases h : service.supervisor = true
  · rw [if_pos h, if_pos h, show (DashboardApp.others env).jobs = env.jobs from rfl]
    cases env.jobs target with
    | error exn => rfl
    | ok jobs =>
        change (if jobs.any (· == some name) then
            service.maintenance (DashboardApp.others env) target name role
          else MonadExcept.throw (.valueError "maintenance job is not registered")) = (do
            Act.ofExcept (if jobs.any (· == some name) then .ok ()
              else .error (.valueError "maintenance job is not registered"))
            service.maintenance (DashboardApp.others env) target name role)
        by_cases hname : jobs.any (· == some name) = true
        · rw [if_pos hname, if_pos hname]
          rfl
        · rw [if_neg hname, if_neg hname]
          rfl
  · rw [if_neg h, if_neg h]
    rfl

/-- The registry is the supervisor's. -/
theorem supervisor_of_lookup {target name : String}
    (h : service.lookup env.jobs target name = .ok ()) : service.supervisor := by
  unfold AdminActionService.lookup at h
  by_cases hsupervisor : service.supervisor = true
  · exact hsupervisor
  · rw [if_neg hsupervisor] at h
    cases h

/-- The maintenance action checks the role behind the look at the registry. -/
theorem job {target : String} {form : Form} :
    Answers (service.job (DashboardApp.others env) target (form.first "job_id" "") role)
      (acted service env "maintenance" target form role) := by
  have heq : acted service env "maintenance" target form role =
      Admin.after (service.lookup env.jobs target (form.first "job_id" ""))
        (if rank role < rank "operator" then refused
          else follow env.reply
            (service.supervisedPlan [.runMaintenance target (form.first "job_id" "")])) := by
    have hplan : service.plan env.jobs "maintenance" target form =
        (service.lookup env.jobs target (form.first "job_id" "")).map fun _ =>
          [.runMaintenance target (form.first "job_id" "")] := rfl
    unfold acted outranked
    rw [show requiredRole "maintenance" = some "operator" from rfl, if_pos rfl, Option.any_some,
      hplan]
    cases hlookup : service.lookup env.jobs target (form.first "job_id" "") with
    | error exn => exact ite_self _
    | ok _ =>
        unfold AdminActionService.supervisedPlan
        rw [if_pos (supervisor_of_lookup hlookup)]
        by_cases hrank : rank role < rank "operator"
        · rw [decide_eq_true hrank, if_pos rfl]
          exact (if_pos hrank).symm
        · rw [decide_eq_false hrank, if_neg Bool.false_ne_true]
          exact (if_neg hrank).symm
  rw [heq, job_eq]
  exact after (p (supervised _))

/-- The handler's call of the service answers what the plan says. -/
theorem dispatch (action target : String) (form : Form) :
    Answers (DashboardApp.dispatch env service action target form role)
      (acted service env action target form role) := by
  unfold DashboardApp.dispatch
  by_cases hstart : action = "start"
  · subst hstart
    exact guarded rfl (by decide) (supervised _)
  by_cases hstop : action = "stop"
  · subst hstop
    exact guarded rfl (by decide) (supervised _)
  by_cases hrestart : action = "restart"
  · subst hrestart
    exact guarded rfl (by decide) (supervised_two _ _)
  by_cases hmaintenance : action = "maintenance"
  · subst hmaintenance
    exact job
  by_cases hbackup : action = "backup"
  · subst hbackup
    exact guarded rfl (by decide) (ite (fun _ => call _) fun _ => throw _)
  by_cases hqualify : action = "qualify"
  · subst hqualify
    refine guarded rfl (by decide) (ite (fun _ => call _) fun _ => ?_)
    cases given (service.installRoots.get? (form.first "integration" target)) with
    | none => exact throw _
    | some root =>
        cases given service.archiveRoot with
        | none => exact throw _
        | some archiveRoot => exact integrated _ _
  by_cases hpromote : action = "promote"
  · subst hpromote
    exact guarded rfl (by decide) (deployed _ _)
  by_cases hrollback : action = "rollback"
  · subst hrollback
    exact guarded rfl (by decide) (deployed _ _)
  by_cases hlifecycle : action = "lifecycle"
  · subst hlifecycle
    exact guarded rfl (by decide) (ite (fun _ => throw _) fun _ =>
      ite (fun _ => throw _) fun _ => supervised _)
  -- any other action needs no role and is refused by `action` itself
  have hrole : requiredRole action = none := by
    simp [requiredRole, *]
  have hacted : acted service env action target form role =
      (.error (.valueError "unsupported action"), []) := by
    simp [acted, outranked, AdminActionService.plan, follow, *]
  rw [hacted]
  simp only [if_neg, *, not_false_eq_true]
  exact throw _

end Answers

end UltimateBBSBox.Admin

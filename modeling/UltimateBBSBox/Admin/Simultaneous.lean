import UltimateBBSBox.Admin.Escalation
import UltimateBBSBox.Library.CheckThenAct

/-!
# Simultaneous logins

The check of the throttle, the verification of the password and the counting of the failure are
three steps of a login, and other logins run between them.  The throttle bounds the passwords
that are verified at one moment only while no login is checked when four have been let in and
fewer have been counted (`verified_card_le`).
-/

namespace UltimateBBSBox.Admin

open LoginThrottle CheckThenAct

namespace DashboardApp

variable (app : DashboardApp) (users : Users) (now : ℚ) (user remote : String)

/-- The first step of a login: the check of the throttle. -/
def check (throttle : LoginThrottle) : Bool × LoginThrottle :=
  let (wait, throttle) := throttle.retryAfter now user (sourceOf remote)
  (wait = 0, throttle)

/-- The third step, after the verification: what it came to is counted. -/
def record {ι : Type} (password : ι → String) (call : ι) (throttle : LoginThrottle) : LoginThrottle :=
  match app.verify users user (password call) with
  | none => (throttle.failure now user (sourceOf remote)).2
  | some _ => throttle.success user (sourceOf remote)

end DashboardApp

section Steps

variable {app : DashboardApp} {users : Users} {now : ℚ} {user remote password : String}
  {env : Environment} {w w' : Admin.World} {result : Except Exn (Option String)}

/-- A login by itself takes its three steps one after the other. -/
theorem run_of_login (hchecked : env.checked = now) (hfailed : env.failed = now)
    (hrun : (app.login env user password remote).run w = some (result, w')) :
    ∃ last : CheckThenAct.World Unit LoginThrottle,
      Machine.Run (World.step (DashboardApp.check now user remote)
        (app.record w.users now user remote fun _ => password)) (fun _ _ => True)
        (World.initial w.throttle) last ∧ last.gate = w'.throttle := by
  rw [run_login, hchecked, hfailed] at hrun
  by_cases hzero : (w.throttle.retryAfter now user (sourceOf remote)).1 = 0
  · rw [if_neg (not_not.mpr hzero)] at hrun
    have hgate : app.record w.users now user remote (fun _ => password) () (w.throttle.swept now) =
        w'.throttle := by
      unfold DashboardApp.record
      cases hverified : app.verify w.users user password with
      | none =>
          rw [hverified, Option.some.injEq, Prod.mk.injEq] at hrun
          rw [← hrun.2]
      | some record =>
          rw [hverified, Option.some.injEq, Prod.mk.injEq] at hrun
          rw [← hrun.2]
          rfl
    rw [← hgate]
    exact run_alone_admitted () (decide_eq_true hzero)
  · rw [if_pos hzero, Option.some.injEq, Prod.mk.injEq] at hrun
    rw [← hrun.2]
    exact run_alone_refused () (decide_eq_false hzero)

end Steps

/-- The throttle has counted the failures, and has room for an entry. -/
def Counted (user source : String) (now : ℚ) (failures : ℕ) (throttle : LoginThrottle) : Prop :=
  Backoff user source failures (now + delay failures) ∅ throttle.entries ∧ 0 < throttle.maxEntries

section Counting

variable {app : DashboardApp} {users : Users} {now : ℚ} {user remote : String} {ι : Type}
  {password : ι → String}

theorem one_le_truncate {x : ℚ} (h : 1 ≤ x) : 1 ≤ truncate x := by
  unfold truncate
  rw [if_pos (by linarith)]
  exact Int.le_floor.mpr (by exact_mod_cast h)

/-- From the fourth failure on there is something to wait for. -/
theorem retryAfter_ne_zero {source : String} {failures : ℕ} {throttle : LoginThrottle}
    (h : Counted user source now failures throttle) (hmany : 4 ≤ failures) :
    (throttle.retryAfter now user source).1 ≠ 0 := by
  obtain ⟨hbackoff, hroom⟩ := h
  have hdeadline : ((throttle.swept now).entries.getD (.source, source) (0, 0)).2 =
      now + delay failures := by
    have hsource := ((hbackoff.cleanup hroom (lt_add_delay now)).counted (by omega)).get?
    unfold Dict.getD
    rw [show (throttle.swept now).entries.get? (.source, source) = _ from hsource, Option.getD_some]
  have hdelay : (1 : ℚ) ≤ delay failures := Nat.one_le_cast.mpr (delay_pos hmany)
  have hwait : 1 ≤ truncate (max ((throttle.swept now).entries.getD (.user, user) (0, 0)).2
      ((throttle.swept now).entries.getD (.source, source) (0, 0)).2 - now + 999 / 1000) := by
    apply one_le_truncate
    have hmax := le_max_right ((throttle.swept now).entries.getD (.user, user) (0, 0)).2
      ((throttle.swept now).entries.getD (.source, source) (0, 0)).2
    rw [hdeadline] at hmax ⊢
    linarith
  have hpos : 1 ≤ (throttle.retryAfter now user source).1 := hwait.trans (le_max_right _ _)
  omega

theorem counts_throttle (hwrong : ∀ call, app.verify users user (password call) = none) :
    Counts (DashboardApp.check now user remote) (app.record users now user remote password) 4
      (Counted user (sourceOf remote) now) where
  kept n throttle h := ⟨h.1.cleanup h.2 (lt_add_delay now), h.2⟩
  refused n throttle h hmany := decide_eq_false (retryAfter_ne_zero h hmany)
  counted n throttle call h := by
    unfold DashboardApp.record
    rw [hwrong call]
    exact ⟨h.1.failure h.2 (lt_add_delay now), h.2⟩

end Counting

/-- **When four wrong passwords are verified at most.** -/
theorem verified_card_le {ι : Type} [DecidableEq ι] (app : DashboardApp) (users : Users) (now : ℚ)
    (user remote : String) (password : ι → String) (maxEntries : ℕ) (w : CheckThenAct.World ι LoginThrottle)
    (hroom : 0 < maxEntries) (hwrong : ∀ call, app.verify users user (password call) = none)
    (h : Machine.Run (World.step (DashboardApp.check now user remote)
      (app.record users now user remote password)) (Ordered 4) (World.initial (.fresh maxEntries)) w) :
    w.worked.card ≤ 4 := by
  have hfresh : Counted user (sourceOf remote) now 0 (.fresh maxEntries) :=
    ⟨⟨fun hpos => absurd hpos (lt_irrefl _), fun _ => rfl, fun _ _ hget => by cases hget⟩, hroom⟩
  exact worked_card_le (counts_throttle hwrong) hfresh h

/-- Four calls that are all checked first, and a fifth that is refused. -/
theorem verified_card_le_four_calls : ∃ w : CheckThenAct.World ℕ LoginThrottle,
    w.recorded = 4 ∧ w.phases 4 = .refused ∧ w.worked.card ≤ 4 := by
  have hexec : (Machine.exec (World.step (DashboardApp.check 0 "olga" "10.0.0.7")
      (emptyDashboard.record ∅ 0 "olga" "10.0.0.7" fun _ : ℕ => "guess")) (Ordered 4)
      (World.initial (.fresh 4096)) ([0, 1, 2, 3].map .check ++ [2, 0, 3, 1].map .work ++
        [3, 2, 1, 0].map .record ++ [.check 4])).map
        (fun w => (w.recorded, w.phases 4)) = some (4, .refused) := by decide +kernel
  obtain ⟨w, hrun, hobserved⟩ := Option.map_eq_some_iff.mp hexec
  obtain ⟨hrecorded, hrefused⟩ := Prod.mk.inj hobserved
  exact ⟨w, hrecorded, hrefused, verified_card_le emptyDashboard ∅ 0 "olga" "10.0.0.7"
    (fun _ => "guess") 4096 w (by decide) (fun _ => rfl) (Machine.run_of_exec hrun)⟩

/-- Five calls that are all checked first verify five passwords. -/
theorem verified_five : (∀ call : ℕ, emptyDashboard.verify ∅ "olga" ((fun _ => "guess") call) = none) ∧
    ∃ w : CheckThenAct.World ℕ LoginThrottle,
      Machine.Run (World.step (DashboardApp.check 0 "olga" "10.0.0.7")
        (emptyDashboard.record ∅ 0 "olga" "10.0.0.7" fun _ => "guess")) (fun _ _ => True)
        (World.initial (.fresh 4096)) w ∧ w.worked.card = 5 := by
  have hexec : (Machine.exec (World.step (DashboardApp.check 0 "olga" "10.0.0.7")
      (emptyDashboard.record ∅ 0 "olga" "10.0.0.7" fun _ : ℕ => "guess")) (fun _ _ => True)
      (World.initial (.fresh 4096)) ([0, 1, 2, 3, 4].map .check ++ [0, 1, 2, 3, 4].map .work)).map
        (fun w => w.worked.card) = some 5 := by decide +kernel
  obtain ⟨w, hrun, hworked⟩ := Option.map_eq_some_iff.mp hexec
  exact ⟨fun _ => rfl, w, Machine.run_of_exec hrun, hworked⟩

end UltimateBBSBox.Admin

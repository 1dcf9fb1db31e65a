import UltimateBBSBox.Supervisor.Cell
import UltimateBBSBox.Supervisor.Scheduler

/-!
# Which schedules evaluate

`is_due` announces one exception, `SupervisorError`, for a schedule it does not
understand.  Two more come out of the numbers it computes with: `int` refuses a
count of more than `maxIntDigits` digits, and the last run plus the interval can
lie behind the end of the calendar.  `Fits` excludes both.

`_validate_jobs` evaluates every schedule once, against the clock reading it has
just taken.  It visits the jobs in the order of the registry and stops at the
first one it refuses.
-/

namespace UltimateBBSBox.Supervisor

open Act

namespace Scheduler

/-! ## The cases of an evaluation -/

section Cases

variable {schedule : String} {now : DateTime} {lastRun : Option DateTime} {ds : List ℕ}
  {unit hour minute : ℕ}

theorem isDue_of_long (h : matchInterval (strip schedule.toList) = some (ds, unit))
    (hlong : maxIntDigits < ds.length) :
    ∃ message, isDue schedule now lastRun = .error ⟨.valueError, message⟩ := by
  simp only [isDue, h, if_pos hlong]
  exact ⟨_, rfl⟩

theorem isDue_of_zero (h : matchInterval (strip schedule.toList) = some (ds, unit))
    (hshort : ds.length ≤ maxIntDigits) (hzero : number ds = 0) :
    ∃ message, isDue schedule now lastRun = .error ⟨.supervisorError, message⟩ := by
  simp only [isDue, h, if_neg (not_lt.mpr hshort), hzero, if_pos Nat.one_pos]
  exact ⟨_, rfl⟩

/-- An interval without a run behind it has come. -/
theorem isDue_interval_none (h : matchInterval (strip schedule.toList) = some (ds, unit))
    (hshort : ds.length ≤ maxIntDigits) (hcount : 1 ≤ number ds) :
    isDue schedule now none = .ok true := by
  simp only [isDue, h, if_neg (not_lt.mpr hshort), if_neg (not_lt.mpr hcount), parseTimestamp]

/-- An interval with a run behind it has come once it is over. -/
theorem isDue_interval_some (h : matchInterval (strip schedule.toList) = some (ds, unit))
    (hshort : ds.length ≤ maxIntDigits) (hcount : 1 ≤ number ds) {previous : DateTime}
    (hfits : previous.wall + (number ds * unit : ℕ) * microsPerSecond < maxWall) :
    isDue schedule now (some previous) =
      .ok (previous.instant + (number ds * unit : ℕ) * microsPerSecond ≤ now.instant) := by
  simp only [isDue, h, if_neg (not_lt.mpr hshort), if_neg (not_lt.mpr hcount), parseTimestamp]
  cases hdue : (timedelta (number ds * unit : ℕ)).bind previous.add with
  | none => exact absurd (DateTime.bind_add_eq_none_iff.mp hdue) (not_le.mpr hfits)
  | some due =>
      obtain ⟨micros, hmicros, hadd⟩ := Option.bind_eq_some_iff.mp hdue
      simp only [DateTime.instant_of_add_eq_some hadd, timedelta_natCast_eq_some hmicros]

theorem isDue_interval_overflow (h : matchInterval (strip schedule.toList) = some (ds, unit))
    (hshort : ds.length ≤ maxIntDigits) (hcount : 1 ≤ number ds) {previous : DateTime}
    (hlate : maxWall ≤ previous.wall + (number ds * unit : ℕ) * microsPerSecond) :
    ∃ message, isDue schedule now (some previous) = .error ⟨.overflowError, message⟩ := by
  simp only [isDue, h, if_neg (not_lt.mpr hshort), if_neg (not_lt.mpr hcount), parseTimestamp,
    DateTime.bind_add_eq_none_iff.mpr hlate]
  exact ⟨_, rfl⟩

theorem isDue_of_invalid_daily (h : matchInterval (strip schedule.toList) = none)
    (hdaily : matchDaily (strip schedule.toList) = some (hour, minute))
    (hinvalid : ¬ (hour ≤ 23 ∧ minute ≤ 59)) :
    ∃ message, isDue schedule now lastRun = .error ⟨.supervisorError, message⟩ := by
  simp only [isDue, h, hdaily, dif_neg hinvalid]
  exact ⟨_, rfl⟩

theorem isDue_daily_none (h : matchInterval (strip schedule.toList) = none)
    (hdaily : matchDaily (strip schedule.toList) = some (hour, minute))
    (hvalid : hour ≤ 23 ∧ minute ≤ 59) :
    isDue schedule now none =
      .ok ((replaceTime now hour minute hvalid).instant ≤ now.instant) := by
  simp only [isDue, h, hdaily, dif_pos hvalid, parseTimestamp, Bool.and_true]

theorem isDue_daily_some (h : matchInterval (strip schedule.toList) = none)
    (hdaily : matchDaily (strip schedule.toList) = some (hour, minute))
    (hvalid : hour ≤ 23 ∧ minute ≤ 59) {previous : DateTime} :
    isDue schedule now (some previous) =
      .ok ((replaceTime now hour minute hvalid).instant ≤ now.instant ∧
        previous.instant < (replaceTime now hour minute hvalid).instant) := by
  simp only [isDue, h, hdaily, dif_pos hvalid, parseTimestamp, Bool.decide_and]

end Cases

/-! ## One evaluation -/

/-- The result is a value or the exception that the scheduler announces. -/
def Declared {α : Type} (result : Except Exn α) : Prop :=
  ∀ e, result = .error e → e.cls = .supervisorError

/-- Where the schedule is an interval, `int` reads its count, and the last run
plus the interval is a date. -/
def Fits (schedule : String) (lastRun : Option DateTime) : Prop :=
  ∀ ds unit, matchInterval (strip schedule.toList) = some (ds, unit) →
    ds.length ≤ maxIntDigits ∧ ∀ previous, lastRun = some previous →
      previous.wall + (number ds * unit : ℕ) * microsPerSecond < maxWall

/-- The schedule is one of the two patterns, with numbers in their bounds. -/
def Understood (schedule : String) : Prop :=
  (∃ ds unit, matchInterval (strip schedule.toList) = some (ds, unit) ∧ 1 ≤ number ds) ∨
    matchInterval (strip schedule.toList) = none ∧ ∃ hour minute,
      matchDaily (strip schedule.toList) = some (hour, minute) ∧ hour ≤ 23 ∧ minute ≤ 59

/-- An evaluation returns, or the scheduler refuses a schedule that it does not
understand, or the numbers do not fit. -/
theorem isDue_cases (schedule : String) (now : DateTime) (lastRun : Option DateTime) :
    (∃ due, isDue schedule now lastRun = .ok due ∧ Understood schedule ∧ Fits schedule lastRun) ∨
      (∃ message, isDue schedule now lastRun = .error ⟨.supervisorError, message⟩ ∧
        ¬ Understood schedule ∧ Fits schedule lastRun) ∨
      (∃ e, isDue schedule now lastRun = .error e ∧ e.cls ≠ .supervisorError ∧
        ¬ Fits schedule lastRun) := by
  cases hinterval : matchInterval (strip schedule.toList) with
  | none =>
      have hfits : Fits schedule lastRun := fun ds unit h => by simp [hinterval] at h
      cases hdaily : matchDaily (strip schedule.toList) with
      | none =>
          obtain ⟨message, hmessage⟩ := isDue_of_unsupported hinterval hdaily
          refine .inr (.inl ⟨message, hmessage, ?_, hfits⟩)
          rintro (⟨_, _, h, _⟩ | ⟨_, _, _, h, _⟩)
          · simp [hinterval] at h
          · simp [hdaily] at h
      | some time =>
          obtain ⟨hour, minute⟩ := time
          by_cases hvalid : hour ≤ 23 ∧ minute ≤ 59
          · have hunderstood : Understood schedule := .inr ⟨hinterval, hour, minute, hdaily, hvalid⟩
            cases lastRun with
            | none => exact .inl ⟨_, isDue_daily_none hinterval hdaily hvalid, hunderstood, hfits⟩
            | some previous =>
                exact .inl ⟨_, isDue_daily_some hinterval hdaily hvalid, hunderstood, hfits⟩
          · obtain ⟨message, hmessage⟩ := isDue_of_invalid_daily hinterval hdaily hvalid
            refine .inr (.inl ⟨message, hmessage, ?_, hfits⟩)
            rintro (⟨_, _, h, _⟩ | ⟨_, _, _, h, hvalid'⟩)
            · simp [hinterval] at h
            · rw [hdaily, Option.some.injEq, Prod.mk.injEq] at h
              exact hvalid (h.1 ▸ h.2 ▸ hvalid')
  | some interval =>
      obtain ⟨ds, unit⟩ := interval
      have hfits : Fits schedule lastRun ↔ ds.length ≤ maxIntDigits ∧
          ∀ previous, lastRun = some previous →
            previous.wall + (number ds * unit : ℕ) * microsPerSecond < maxWall := by
        simp only [Fits, hinterval, Option.some.injEq, Prod.mk.injEq]
        exact ⟨fun h => h ds unit ⟨rfl, rfl⟩, fun h _ _ heq => heq.1 ▸ heq.2 ▸ h⟩
      have hunderstood : Understood schedule ↔ 1 ≤ number ds := by
        simp [Understood, hinterval]
      rw [hfits, hunderstood]
      -- the digits are converted first, then the count is checked, and the sum comes last
      rcases Nat.lt_or_ge maxIntDigits ds.length with hlong | hshort
      · obtain ⟨message, hmessage⟩ :
            ∃ message, isDue schedule now lastRun = .error ⟨.valueError, message⟩ :=
          isDue_of_long hinterval hlong
        exact .inr (.inr ⟨_, hmessage, by simp, fun h => absurd h.1 (not_le.mpr hlong)⟩)
      rcases Nat.eq_zero_or_pos (number ds) with hzero | hcount
      · obtain ⟨message, hmessage⟩ :
            ∃ message, isDue schedule now lastRun = .error ⟨.supervisorError, message⟩ :=
          isDue_of_zero hinterval hshort hzero
        refine .inr (.inl ⟨message, hmessage, by omega, hshort, fun previous _ => ?_⟩)
        rw [hzero, Nat.zero_mul, Nat.cast_zero, zero_mul, add_zero]
        exact previous.inRange.2
      cases lastRun with
      | none =>
          exact .inl ⟨true, isDue_interval_none hinterval hshort hcount, hcount, hshort,
            fun _ h => nomatch h⟩
      | some previous =>
          rcases lt_or_ge (previous.wall + (number ds * unit : ℕ) * microsPerSecond) maxWall with
            hin | hlate
          · refine .inl ⟨_, isDue_interval_some hinterval hshort hcount hin, hcount, hshort, ?_⟩
            rintro _ ⟨⟩
            exact hin
          · obtain ⟨message, hmessage⟩ :
                ∃ message, isDue schedule now (some previous) = .error ⟨.overflowError, message⟩ :=
              isDue_interval_overflow hinterval hshort hcount hlate
            exact .inr (.inr ⟨_, hmessage, by simp, fun h =>
              absurd (h.2 previous rfl) (not_lt.mpr hlate)⟩)

/-- An evaluation returns a boolean exactly if the schedule is understood and fits. -/
theorem exists_isDue_eq_ok_iff {schedule : String} {now : DateTime} {lastRun : Option DateTime} :
    (∃ due, isDue schedule now lastRun = .ok due) ↔ Understood schedule ∧ Fits schedule lastRun := by
  rcases isDue_cases schedule now lastRun with
    ⟨due, hok, hyes⟩ | ⟨_, herror, hno, _⟩ | ⟨_, herror, _, hno⟩
  · exact iff_of_true ⟨due, hok⟩ hyes
  · exact iff_of_false (by simp [herror]) fun h => hno h.1
  · exact iff_of_false (by simp [herror]) fun h => hno h.2

/-- A schedule is evaluated to a boolean or a `SupervisorError` exactly if it fits. -/
theorem declared_isDue_iff {schedule : String} {now : DateTime} {lastRun : Option DateTime} :
    Declared (isDue schedule now lastRun) ↔ Fits schedule lastRun := by
  rcases isDue_cases schedule now lastRun with
    ⟨due, hok, _, hfits⟩ | ⟨_, herror, _, hfits⟩ | ⟨e, herror, hcls, hno⟩
  · exact iff_of_true (fun e he => by simp [hok] at he) hfits
  · refine iff_of_true (fun e he => ?_) hfits
    rw [herror, Except.error.injEq] at he
    rw [← he]
  · exact iff_of_false (fun h => hcls (h e herror)) hno

theorem unit_pos_of_matchInterval {chars : List Char} {ds : List ℕ} {unit : ℕ}
    (h : matchInterval chars = some (ds, unit)) : 0 < unit := by
  unfold matchInterval at h
  obtain ⟨rest, -, h⟩ := Option.bind_eq_some_iff.mp h
  obtain ⟨rest', -, h⟩ := Option.bind_eq_some_iff.mp h
  split at h
  · cases h
  · split at h
    · split_ifs at h <;> cases h <;> decide
    · cases h

/-- A job is due only after its last run. -/
theorem lt_of_isDue {schedule : String} {now previous : DateTime}
    (h : isDue schedule now (some previous) = .ok true) : previous.instant < now.instant := by
  obtain ⟨⟨ds, unit, hinterval, hcount⟩ | ⟨hinterval, hour, minute, hdaily, hvalid⟩, hfits⟩ :=
    exists_isDue_eq_ok_iff.mp ⟨true, h⟩
  · obtain ⟨hshort, hfits⟩ := hfits ds unit hinterval
    rw [isDue_interval_some hinterval hshort hcount (hfits previous rfl), Except.ok.injEq,
      decide_eq_true_iff] at h
    have hpos : 0 < number ds * unit := Nat.mul_pos hcount (unit_pos_of_matchInterval hinterval)
    unfold microsPerSecond at h
    omega
  · rw [isDue_daily_some hinterval hdaily hvalid, Except.ok.injEq, decide_eq_true_iff] at h
    exact h.2.trans_le h.1

/-! ## The evaluations of the constructor -/

/-- The loop state of `_validate_jobs`: the names of the service's jobs so far,
and the world the clock is read from. -/
structure Validation (σ : Type) where
  names : List String
  env : σ

variable {σ : Type} (clock : σ → DateTime × σ)

/-- A reading of the clock. -/
def readClock : Act (Validation σ) Exn DateTime := do
  let v ← get
  modify fun v => { v with env := (clock v.env).2 }
  return (clock v.env).1

/-- The body of the inner loop of `_validate_jobs`. -/
def validateJob (service : Service) (job : Job) : Act (Validation σ) Exn Unit := do
  let v ← get
  if job.name ∈ v.names then
    throw ⟨.supervisorError, s!"duplicate maintenance job {service.id}/{job.name}"⟩
  else do
    modify fun v => { v with names := job.name :: v.names }
    let now ← readClock clock
    let lastRun ← readClock clock
    let _ ← Act.ofExcept (isDue job.schedule now (some lastRun))
    return ()

/-- The body of the outer loop. -/
def validateService (service : Service) : Act (Validation σ) Exn Unit := do
  modify fun v => { v with names := [] }
  forEach service.jobs (validateJob clock service)

/-- `_validate_jobs`. -/
def validateJobs (registry : Registry) : Act (Validation σ) Exn Unit :=
  forEach registry.services (validateService clock)

/-- `_validate_jobs` accepts everything before that job. -/
def ComesTo (registry : Registry) (v : Validation σ) (service : Service) (job : Job)
    (v' : Validation σ) : Prop :=
  ∃ before after passed rest v₁,
    registry.services = before ++ service :: after ∧ service.jobs = passed ++ job :: rest ∧
      (forEach before (validateService clock)).run v = some (.ok (), v₁) ∧
      (forEach passed (validateJob clock service)).run { v₁ with names := [] } = some (.ok (), v')

/-- The second reading of the clock from there on, which `_validate_jobs` takes for the last run. -/
def secondReading (env : σ) : DateTime := (clock (clock env).2).1

variable {clock} in
/-- A job is refused for its name or for the evaluation of its schedule. -/
theorem run_validateJob_eq_error_iff {service : Service} {job : Job} {v : Validation σ} {e : Exn} :
    (∃ v', (validateJob clock service job).run v = some (.error e, v')) ↔
      (job.name ∈ v.names ∧
        e = ⟨.supervisorError, s!"duplicate maintenance job {service.id}/{job.name}"⟩) ∨
      job.name ∉ v.names ∧
        isDue job.schedule (clock v.env).1 (some (secondReading clock v.env)) = .error e := by
  by_cases hname : job.name ∈ v.names
  · simp [validateJob, run_bind, run_get, run_throw, hname, eq_comm]
  · cases hdue : isDue job.schedule (clock v.env).1 (some (secondReading clock v.env)) with
    | ok due =>
        unfold secondReading at hdue
        simp [validateJob, readClock, run_bind, run_get, run_modify, run_pure, Act.ofExcept, hname,
          hdue]
    | error e' =>
        unfold secondReading at hdue
        simp [validateJob, readClock, run_bind, run_get, run_modify, run_pure, run_throw,
          Act.ofExcept, hname, hdue]

variable {clock} in
/-- `_validate_jobs` raises where it refuses the job it has come to. -/
theorem run_validateJobs_eq_error_iff {registry : Registry} {v : Validation σ} {e : Exn} :
    (∃ v', (validateJobs clock registry).run v = some (.error e, v')) ↔
      ∃ service job v₁, ComesTo clock registry v service job v₁ ∧
        ∃ v', (validateJob clock service job).run v₁ = some (.error e, v') := by
  have hservice : ∀ service (v v' : Validation σ),
      (validateService clock service).run v = some (.error e, v') ↔
        (forEach service.jobs (validateJob clock service)).run { v with names := [] } =
          some (.error e, v') := by
    intro service v v'
    rw [validateService, run_bind, run_modify]
  constructor
  · rintro ⟨v', hrun⟩
    obtain ⟨before, service, after, v₁, hservices, hbefore, hraises⟩ :=
      run_forEach_eq_error_iff.mp hrun
    obtain ⟨passed, job, rest, v₂, hjobs, hpassed, hraises⟩ :=
      run_forEach_eq_error_iff.mp ((hservice _ _ _).mp hraises)
    exact ⟨service, job, v₂, ⟨before, after, passed, rest, v₁, hservices, hjobs, hbefore, hpassed⟩,
      v', hraises⟩
  · rintro ⟨service, job, v₂, ⟨before, after, passed, rest, v₁, hservices, hjobs, hbefore, hpassed⟩,
      v', hraises⟩
    refine ⟨v', run_forEach_eq_error_iff.mpr ⟨before, service, after, v₁, hservices, hbefore, ?_⟩⟩
    exact (hservice _ _ _).mpr
      (run_forEach_eq_error_iff.mpr ⟨passed, job, rest, v₂, hjobs, hpassed, hraises⟩)

variable {clock} in
/-- The constructor raises only `SupervisorError`s exactly if the schedule of
every job it comes to fits the reading that stands for its last run. -/
theorem declared_validateJobs_iff {registry : Registry} {v : Validation σ} :
    (∀ e v', (validateJobs clock registry).run v = some (.error e, v') → e.cls = .supervisorError) ↔
      ∀ service job v', ComesTo clock registry v service job v' → job.name ∉ v'.names →
        Fits job.schedule (some (secondReading clock v'.env)) := by
  constructor
  · intro hdeclared service job v₁ hcomes hname
    have hdue : Declared
        (isDue job.schedule (clock v₁.env).1 (some (secondReading clock v₁.env))) := by
      intro e he
      obtain ⟨v', hraises⟩ := run_validateJobs_eq_error_iff.mpr
        ⟨service, job, v₁, hcomes, run_validateJob_eq_error_iff.mpr (.inr ⟨hname, he⟩)⟩
      exact hdeclared e v' hraises
    exact declared_isDue_iff.mp hdue
  · intro hfits e v' hraises
    obtain ⟨service, job, v₁, hcomes, hjob⟩ := run_validateJobs_eq_error_iff.mp ⟨v', hraises⟩
    rcases run_validateJob_eq_error_iff.mp hjob with ⟨_, rfl⟩ | ⟨hname, hdue⟩
    · rfl
    · exact declared_isDue_iff.mpr (hfits service job v₁ hcomes hname) e hdue

/-! ## When schedules fail as declared -/

/-- Two hundred centuries from now is not a date. -/
theorem isDue_undeclared :
    ¬ ∀ (schedule : String) (now : DateTime) (lastRun : Option DateTime),
      Declared (isDue schedule now lastRun) := by
  intro hall
  have hfits := declared_isDue_iff.mp
    (hall "every 7304118d" (.ofSeconds 63902822399) (some (.ofSeconds 63902822399)))
  obtain ⟨_, hdate⟩ := hfits [7, 3, 0, 4, 1, 1, 8] 86400 (by decide)
  exact absurd (hdate _ rfl) (by decide)

/-- An evaluation returns or raises a `SupervisorError` exactly if the schedule
fits; the constructor does exactly if every schedule it comes to fits its clock
reading; and a schedule that it accepts is evaluated later exactly if it still fits. -/
theorem schedules_declared_iff :
    (∀ schedule now lastRun, Declared (isDue schedule now lastRun) ↔ Fits schedule lastRun) ∧
    (∀ (registry : Registry) (v : Validation σ),
      (∀ e v', (validateJobs clock registry).run v = some (.error e, v') →
        e.cls = .supervisorError) ↔
      ∀ service job v', ComesTo clock registry v service job v' → job.name ∉ v'.names →
        Fits job.schedule (some (secondReading clock v'.env))) ∧
    ∀ schedule now lastRun now' lastRun', (∃ due, isDue schedule now lastRun = .ok due) →
      ((∃ due, isDue schedule now' lastRun' = .ok due) ↔ Fits schedule lastRun') := by
  refine ⟨fun _ _ _ => declared_isDue_iff, fun _ _ => declared_validateJobs_iff,
    fun schedule now lastRun now' lastRun' hok => ?_⟩
  have hunderstood := (exists_isDue_eq_ok_iff.mp hok).1
  rw [exists_isDue_eq_ok_iff]
  exact and_iff_right hunderstood

end Scheduler

end UltimateBBSBox.Supervisor

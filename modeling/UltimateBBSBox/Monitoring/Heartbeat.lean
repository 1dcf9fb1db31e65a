import UltimateBBSBox.Archive.Values
import UltimateBBSBox.Library.DateTime
import UltimateBBSBox.Library.Faults

/-!
# Ingestion of heartbeats

`heartbeat_ingest` of the monitoring engine.  Its clock is relabelled with the offset of the
observation before the two are compared, so that it is local times that are compared, and not
instants (`heartbeatIngest_judges_iff`).

What `str` makes of a value and `fromisoformat` of a text are parameters: nothing here depends on
them.  The temporary file is left out; it is never the file of a host.
-/

namespace UltimateBBSBox.Monitoring.Heartbeat

open Archive Act Faulty

/-! ## Datetimes with and without an offset -/

/-- A datetime: the reading of a wall clock, and its offset from UTC unless it is naive. -/
structure Reading where
  wall : ℤ
  offset : Option ℤ
  inRange : 0 ≤ wall ∧ wall < maxWall

/-- The exceptions: a `ValueError` with its text, or another one. -/
inductive Exn
  | valueError (message : Text)
  | overflowError
  | foreign (cls : Foreign)

namespace Reading

/-- `now.replace(tzinfo=observed.tzinfo)`. -/
def relabel (now : DateTime) (observed : Reading) : Reading := ⟨now.wall, observed.offset, now.inRange⟩

/-- `reading + timedelta(seconds=seconds)`. -/
def later (reading : Reading) (seconds : ℚ) : Except Exn Reading :=
  match timedelta seconds with
  | none => .error .overflowError
  | some d =>
      if h : 0 ≤ reading.wall + d ∧ reading.wall + d < maxWall then
        .ok ⟨reading.wall + d, reading.offset, h⟩
      else .error .overflowError

/-- `reading > other`: two aware readings are compared as instants. -/
def after (reading other : Reading) : Except Exn Bool :=
  match reading.offset, other.offset with
  | none, none => .ok (other.wall < reading.wall)
  | some offset, some offset' => .ok (other.wall - offset' < reading.wall - offset)
  | _, _ => .error (.foreign .typeError)

end Reading

/-! ## `heartbeat_ingest` -/

/-- What the call needs of the standard library. -/
structure Python where
  str : Value → Text
  fromisoformat : Text → Except Text Reading

/-- The engine at the moment of the call. -/
structure Engine where
  now : DateTime
  maxFutureSkewSeconds : ℚ

/-- The directory of heartbeats, if the engine has a state root: what is read from the file of a
host. -/
abbrev Heartbeats : Type := Option (Text → Option Value)

/-- The file operations. -/
inductive Step | makeDirectory | write | replace
deriving DecidableEq

/-- Which operations fail. -/
abbrev Failures : Type := Step → Bool

/-- An operation that fails raises `OSError`. -/
def Failures.answer (failures : Failures) (step : Step) : Option (Exn × ℕ) :=
  if failures step then some (.foreign .osError, 0) else none

/-- `allowed`. -/
def allowed : List Text :=
  ["schema_version", "host_id", "observed_at", "received_at", "health", "source", "summary",
    "metrics"].map .of

/-- `metrics_allowed`. -/
def metricsAllowed : List Text :=
  ["load_1m", "disk_free_bytes", "uptime_seconds", "service_count", "running_service_count"].map .of

/-- `[A-Za-z0-9]`. -/
def isAlphanumeric (c : CodePoint) : Bool := c.isLetter ∨ c.isDigit

/-- `[A-Za-z0-9][A-Za-z0-9_.-]{0,63}`. -/
def isHostId (host : Text) : Bool :=
  host.head?.any isAlphanumeric ∧ host.length ≤ 64 ∧
    ∀ c ∈ host, isAlphanumeric c = true ∨ c ∈ ['_', '.', '-'].map CodePoint.ofChar

/-- The keys are all in a list. -/
def keysIn (keys : List Text) (fields : Fields) : Bool := ∀ field ∈ fields, field.1 ∈ keys

/-- The test of the metrics: a value that is falsy stands for none. -/
def isMetrics : Value → Bool
  | .object metrics => keysIn metricsAllowed metrics
  | value => ¬ value.truthy

/-- `text.replace("Z", "+00:00")`. -/
def expandZulu (text : Text) : Text :=
  text.flatMap fun c => if c = .ofChar 'Z' then Text.of "+00:00" else [c]

/-- `if condition: raise ValueError(message)`. -/
def refuse (condition : Bool) (message : String) : Except Exn Unit :=
  if condition then .error (.valueError (.of message)) else .ok ()

section Ingest

variable (python : Python) (engine : Engine) (failures : Failures)

/-- The checks of schema, host, health and metrics: the host of the record. -/
def checkFields (fields : Fields) : Except Exn Text := do
  refuse (keysIn allowed fields = false ∨ ((fields.get? "schema_version").getD .null).isInt 1 = false)
    "invalid heartbeat schema"
  let host := python.str ((fields.get? "host_id").getD (.text []))
  refuse (isHostId host = false) "invalid host id"
  let health := (fields.get? "health").getD .null
  refuse (∀ known ∈ ["HEALTHY", "DEGRADED", "UNHEALTHY"], health.isText (.of known) = false)
    "invalid heartbeat health"
  refuse (isMetrics ((fields.get? "metrics").getD .null) = false) "invalid heartbeat metrics"
  return host

/-- The checks of a record: its fields and its host. -/
def check (record : Value) : Except Exn (Fields × Text) :=
  match record with
  | .object fields => do
      let host ← checkFields python fields
      return (fields, host)
  | _ => .error (.valueError (.of "invalid heartbeat schema"))

/-- `observed`. -/
def observedAt (fields : Fields) : Except Exn Reading :=
  match fields.get? "observed_at" with
  | none => .error (.foreign .keyError)
  | some (.text text) =>
      match python.fromisoformat (expandZulu text) with
      | .ok observed => .ok observed
      | .error message => .error (.valueError message)
  | some _ => .error (.foreign .attributeError)

/-- The comparison with the clock. -/
def judge (fields : Fields) : Except Exn Unit := do
  let observed ← observedAt python fields
  let limit ← (Reading.relabel engine.now observed).later engine.maxFutureSkewSeconds
  let future ← observed.after limit
  refuse future "heartbeat is from the future"

/-- The writing of the record. -/
def store (host : Text) (record : Value) : Act Heartbeats Exn Value := do
  let heartbeats ← get
  if heartbeats.isSome then do
    attempt (failures.answer .makeDirectory) (fun _ => id) id
    attempt (failures.answer .write) (fun _ => id) id
    attempt (failures.answer .replace) (fun _ => id) fun heartbeats =>
      heartbeats.map fun directory => Function.update directory host (some record.sortKeys)
    return record
  else return record

/-- `heartbeat_ingest`. -/
def heartbeatIngest (record : Value) : Act Heartbeats Exn Value := do
  let (fields, host) ← Act.ofExcept (check python record)
  Act.ofExcept (judge python engine fields)
  store failures host record

end Ingest

/-! ## Instants -/

/-- `max_future_skew_seconds` as a duration, in microseconds. -/
def Engine.skew (engine : Engine) : ℤ := roundHalfEven (engine.maxFutureSkewSeconds * 1000000)

/-- `observed_at` denotes an instant, and one that is not later than now and the skew. -/
def OnTime (python : Python) (engine : Engine) (fields : Fields) : Prop :=
  ∃ text observed offset, fields.get? "observed_at" = some (.text text) ∧
    python.fromisoformat (expandZulu text) = .ok observed ∧ observed.offset = some offset ∧
    observed.wall - offset ≤ engine.now.instant + engine.skew

/-- The sum of the clock and the skew is in range; a naive reading is later than it, and an aware one
is not between the two places where the local times and the instants change over. -/
structure Agrees (engine : Engine) (observed : Reading) : Prop where
  inRange : 0 ≤ engine.now.wall + engine.skew ∧ engine.now.wall + engine.skew < maxWall
  naive : observed.offset = none → engine.now.wall + engine.skew < observed.wall
  aware : ∀ offset, observed.offset = some offset →
    observed.wall - (engine.now.wall + engine.skew) ≤ min 0 (offset - engine.now.offset) ∨
      max 0 (offset - engine.now.offset) < observed.wall - (engine.now.wall + engine.skew)

/-- `observed_at` is a text that is unparsable or agrees, and a record that is on time can be stored. -/
structure Comparable (python : Python) (engine : Engine) (failures : Failures) (fields : Fields)
    (heartbeats : Heartbeats) : Prop where
  isText : ∃ text, fields.get? "observed_at" = some (.text text)
  agrees : ∀ observed, observedAt python fields = .ok observed → Agrees engine observed
  stored : OnTime python engine fields → heartbeats.isSome = true ∧ ∀ step, failures step = false

/-- The directory with the record in the file of the host. -/
def written (directory : Text → Option Value) (host : Text) (record : Value) : Heartbeats :=
  some (Function.update directory host (some record.sortKeys))

/-- The call raises `ValueError` and stores nothing, or stores the record and returns it; and it does
that if the observation is on time. -/
def Judges (python : Python) (engine : Engine) (failures : Failures) (record : Value) (fields : Fields)
    (host : Text) (heartbeats : Heartbeats) : Prop :=
  (∃ message, (heartbeatIngest python engine failures record).run heartbeats =
      some (.error (.valueError message), heartbeats) ∧ ¬ OnTime python engine fields) ∨
    ∃ directory, heartbeats = some directory ∧
      (heartbeatIngest python engine failures record).run heartbeats =
        some (.ok record, written directory host record) ∧ OnTime python engine fields

section Comparing

variable {python : Python} {engine : Engine} {failures : Failures} {fields : Fields} {host : Text}
  {record : Value} {heartbeats : Heartbeats} {observed : Reading}

/-- A duration that is too long leaves the calendar. -/
theorem not_inRange_of_timedelta {seconds : ℚ} {wall : ℤ} (h : timedelta seconds = none)
    (hwall : 0 ≤ wall ∧ wall < maxWall) :
    ¬ (0 ≤ wall + roundHalfEven (seconds * 1000000) ∧
      wall + roundHalfEven (seconds * 1000000) < maxWall) := by
  unfold timedelta at h
  simp only [ite_eq_right_iff, reduceCtorEq, imp_false] at h
  intro ⟨hlow, hhigh⟩
  unfold maxWall microsPerDay at *
  omega

/-- The clock and the skew: the sum is taken on the wall clock. -/
theorem later_relabel (observed : Reading) :
    (∃ limit, (Reading.relabel engine.now observed).later engine.maxFutureSkewSeconds = .ok limit ∧
        limit.wall = engine.now.wall + engine.skew ∧ limit.offset = observed.offset ∧
        0 ≤ engine.now.wall + engine.skew ∧ engine.now.wall + engine.skew < maxWall) ∨
      (Reading.relabel engine.now observed).later engine.maxFutureSkewSeconds = .error .overflowError ∧
        ¬ (0 ≤ engine.now.wall + engine.skew ∧ engine.now.wall + engine.skew < maxWall) := by
  unfold Reading.later Reading.relabel Engine.skew
  cases hduration : timedelta engine.maxFutureSkewSeconds with
  | none => exact .inr ⟨rfl, not_inRange_of_timedelta hduration engine.now.inRange⟩
  | some d =>
      have hd : roundHalfEven (engine.maxFutureSkewSeconds * 1000000) = d := by
        unfold timedelta at hduration
        simp only at hduration
        split at hduration
        · exact Option.some.inj hduration
        · cases hduration
      rw [hd]
      by_cases hrange : 0 ≤ engine.now.wall + d ∧ engine.now.wall + d < maxWall
      · exact .inl ⟨⟨engine.now.wall + d, observed.offset, hrange⟩, by simp [hrange], rfl, rfl, hrange⟩
      · exact .inr ⟨by simp [hrange], hrange⟩

/-- At one offset the readings are compared as local times. -/
theorem after_eq {reading other : Reading} (h : other.offset = reading.offset) :
    reading.after other = .ok (decide (other.wall < reading.wall)) := by
  unfold Reading.after
  rw [h]
  cases reading.offset with
  | none => rfl
  | some offset => simp

/-- What comes of an observation that is read. -/
theorem judge_of_observed (h : observedAt python fields = .ok observed) :
    judge python engine fields =
      if 0 ≤ engine.now.wall + engine.skew ∧ engine.now.wall + engine.skew < maxWall then
        refuse (decide (engine.now.wall + engine.skew < observed.wall)) "heartbeat is from the future"
      else .error .overflowError := by
  unfold judge
  rw [h]
  rcases @later_relabel engine observed with ⟨limit, hlater, hwall, hoffset, hrange⟩ |
    ⟨hlater, hrange⟩
  · rw [if_pos hrange]
    simp only [bind, Except.bind, hlater, after_eq hoffset, hwall]
  · rw [if_neg hrange]
    simp only [bind, Except.bind, hlater]

theorem observedAt_eq_ok_iff : observedAt python fields = .ok observed ↔
    ∃ text, fields.get? "observed_at" = some (.text text) ∧
      python.fromisoformat (expandZulu text) = .ok observed := by
  unfold observedAt
  split
  · rename_i hnone
    simp [hnone]
  · rename_i text htext
    rw [htext]
    simp only [Option.some.injEq, Value.text.injEq, exists_eq_left']
    split
    · rename_i reading hreading
      simp [hreading]
    · rename_i message hmessage
      simp [hmessage]
  · rename_i value hnot hvalue
    refine iff_of_false (by simp) ?_
    intro ⟨text, htext, _⟩
    exact hnot text (Option.some.inj (hvalue.symm.trans htext))

theorem onTime_iff_instant (h : observedAt python fields = .ok observed) :
    OnTime python engine fields ↔ ∃ offset, observed.offset = some offset ∧
      observed.wall - offset ≤ engine.now.instant + engine.skew := by
  obtain ⟨text, htext, hread⟩ := observedAt_eq_ok_iff.mp h
  constructor
  · intro ⟨text', observed', offset, htext', hread', hoffset, hle⟩
    rw [htext, Option.some.injEq, Value.text.injEq] at htext'
    subst htext'
    obtain rfl := Except.ok.inj (hread.symm.trans hread')
    exact ⟨offset, hoffset, hle⟩
  · exact fun ⟨offset, hoffset, hle⟩ => ⟨text, observed, offset, htext, hread, hoffset, hle⟩

/-- In range, an observation agrees exactly where the local times say whether it is on time. -/
theorem agrees_iff (h : observedAt python fields = .ok observed)
    (hrange : 0 ≤ engine.now.wall + engine.skew ∧ engine.now.wall + engine.skew < maxWall) :
    Agrees engine observed ↔
      (OnTime python engine fields ↔ ¬ engine.now.wall + engine.skew < observed.wall) := by
  rw [onTime_iff_instant h]
  cases hoffset : observed.offset with
  | none =>
      -- without an offset nothing is on time, so the local time has to be the later one
      constructor
      · intro hagrees
        refine iff_of_false (by simp) (not_not.mpr (hagrees.naive hoffset))
      · intro hiff
        refine ⟨hrange, fun _ => ?_, fun offset hsome => ?_⟩
        · by_contra hlate
          obtain ⟨offset, hsome, _⟩ := hiff.mpr hlate
          cases hsome
        · rw [hoffset] at hsome
          cases hsome
  | some offset =>
      have hinstant : (∃ offset', some offset = some offset' ∧
          observed.wall - offset' ≤ engine.now.instant + engine.skew) ↔
            observed.wall - offset ≤ engine.now.instant + engine.skew := by simp
      rw [hinstant]
      unfold DateTime.instant
      constructor
      · intro hagrees
        have haware := hagrees.aware offset hoffset
        omega
      · intro hiff
        refine ⟨hrange, fun hnone => ?_, fun offset' hsome => ?_⟩
        · rw [hoffset] at hnone
          cases hnone
        · rw [hoffset, Option.some.injEq] at hsome
          subst hsome
          omega

/-- What follows the checks. -/
theorem run_of_check (h : check python record = .ok (fields, host)) :
    (heartbeatIngest python engine failures record).run heartbeats =
      match judge python engine fields with
      | .ok _ => (store failures host record).run heartbeats
      | .error e => some (.error e, heartbeats) := by
  unfold heartbeatIngest
  rw [run_bind, h]
  simp only [Act.ofExcept, run_pure, run_bind]
  cases judge python engine fields with
  | ok _ => rfl
  | error e => rfl

theorem run_store_none : (store failures host record).run none = some (.ok record, none) := rfl

/-- Where nothing fails, the record is stored. -/
theorem run_store_unfailing {directory : Text → Option Value} (h : ∀ step, failures step = false) :
    (store failures host record).run (some directory) =
      some (.ok record, written directory host record) := by
  have hanswer : ∀ step, failures.answer step = none := fun step => by simp [Failures.answer, h step]
  unfold store
  rw [run_bind, run_get]
  simp only [Option.isSome_some, if_true, hanswer]
  rfl

/-- Where an operation fails, nothing is stored. -/
theorem run_store_failing {directory : Text → Option Value} {step : Step} (h : failures step = true) :
    (store failures host record).run (some directory) =
      some (.error (.foreign .osError), some directory) := by
  -- the first operation that fails is not always `step`, but all of them fail alike
  have hraises : ∀ step, failures.answer step = none ∨
      failures.answer step = some (.foreign .osError, 0) := by
    intro step
    unfold Failures.answer
    cases failures step with
    | true => exact .inr rfl
    | false => exact .inl rfl
  have hanswer : failures.answer step = some (.foreign .osError, 0) := by simp [Failures.answer, h]
  unfold store
  rw [run_bind, run_get]
  simp only [Option.isSome_some, if_true]
  rcases hraises .makeDirectory with hdirectory | hdirectory
  · rcases hraises .write with hwrite | hwrite
    · rw [hdirectory, hwrite]
      cases step with
      | makeDirectory => simp [hanswer] at hdirectory
      | write => simp [hanswer] at hwrite
      | replace =>
          rw [hanswer]
          rfl
    · rw [hdirectory, hwrite]
      rfl
  · rw [hdirectory]
    rfl

/-! ## Judging -/

/-- What is no text raises something else than `ValueError`. -/
theorem isText_iff {e : Exn} (h : observedAt python fields = .error e) :
    (∃ message, e = .valueError message) ↔ ∃ text, fields.get? "observed_at" = some (.text text) := by
  unfold observedAt at h
  split at h
  · rename_i hnone
    obtain rfl := Except.error.inj h
    simp [hnone]
  · rename_i text htext
    split at h
    · cases h
    · obtain rfl := Except.error.inj h
      simp [htext]
  · rename_i value hnot hvalue
    obtain rfl := Except.error.inj h
    simp only [reduceCtorEq, exists_false, false_iff, not_exists]
    intro text htext
    exact hnot text (Option.some.inj (hvalue.symm.trans htext))

/-- An observation that is not read. -/
theorem judges_iff_of_unread (h : check python record = .ok (fields, host)) {e : Exn}
    (hread : observedAt python fields = .error e) :
    Judges python engine failures record fields host heartbeats ↔
      Comparable python engine failures fields heartbeats := by
  have hjudge : judge python engine fields = .error e := by
    unfold judge
    rw [hread]
    rfl
  -- what cannot be read is not on time, so the call has to refuse it
  have hlate : ¬ OnTime python engine fields := by
    intro ⟨text, observed, _, htext, hobserved, _⟩
    rw [observedAt_eq_ok_iff.mpr ⟨text, htext, hobserved⟩] at hread
    cases hread
  unfold Judges
  rw [run_of_check h, hjudge]
  constructor
  · rintro (⟨message, hrun, -⟩ | ⟨directory, -, hrun, -⟩)
    · rw [Option.some.injEq, Prod.mk.injEq, Except.error.injEq] at hrun
      refine ⟨(isText_iff hread).mp ⟨message, hrun.1⟩, ?_, fun hon => absurd hon hlate⟩
      intro observed hok
      rw [hread] at hok
      cases hok
    · cases hrun
  · intro hcomparable
    obtain ⟨message, rfl⟩ := (isText_iff hread).mpr hcomparable.isText
    exact .inl ⟨message, rfl, hlate⟩

/-- A comparable call, when the observation is read and the sum is in range. -/
theorem comparable_iff (hread : observedAt python fields = .ok observed)
    (hrange : 0 ≤ engine.now.wall + engine.skew ∧ engine.now.wall + engine.skew < maxWall) :
    Comparable python engine failures fields heartbeats ↔
      (OnTime python engine fields ↔ ¬ engine.now.wall + engine.skew < observed.wall) ∧
        (OnTime python engine fields → heartbeats.isSome = true ∧ ∀ step, failures step = false) := by
  constructor
  · intro hcomparable
    exact ⟨(agrees_iff hread hrange).mp (hcomparable.agrees observed hread), hcomparable.stored⟩
  · intro ⟨hiff, hstored⟩
    obtain ⟨text, htext, -⟩ := observedAt_eq_ok_iff.mp hread
    refine ⟨⟨text, htext⟩, fun observed' hread' => ?_, hstored⟩
    obtain rfl := Except.ok.inj (hread.symm.trans hread')
    exact (agrees_iff hread hrange).mpr hiff

/-- An observation whose local time is later. -/
theorem judges_iff_of_later (h : check python record = .ok (fields, host))
    (hread : observedAt python fields = .ok observed)
    (hrange : 0 ≤ engine.now.wall + engine.skew ∧ engine.now.wall + engine.skew < maxWall)
    (hlater : engine.now.wall + engine.skew < observed.wall) :
    Judges python engine failures record fields host heartbeats ↔
      Comparable python engine failures fields heartbeats := by
  unfold Judges
  rw [run_of_check h, judge_of_observed hread, if_pos hrange, decide_eq_true hlater,
    comparable_iff hread hrange]
  constructor
  · rintro (⟨_, -, hlate⟩ | ⟨_, -, hrun, -⟩)
    · exact ⟨iff_of_false hlate (not_not.mpr hlater), fun hon => absurd hon hlate⟩
    · cases hrun
  · intro ⟨hiff, _⟩
    exact .inl ⟨_, rfl, fun hon => hiff.mp hon hlater⟩

/-- An observation whose local time is not later. -/
theorem judges_iff_of_not_later (h : check python record = .ok (fields, host))
    (hread : observedAt python fields = .ok observed)
    (hrange : 0 ≤ engine.now.wall + engine.skew ∧ engine.now.wall + engine.skew < maxWall)
    (hlater : ¬ engine.now.wall + engine.skew < observed.wall) :
    Judges python engine failures record fields host heartbeats ↔
      Comparable python engine failures fields heartbeats := by
  unfold Judges
  rw [run_of_check h, judge_of_observed hread, if_pos hrange, decide_eq_false hlater,
    comparable_iff hread hrange, iff_true_right hlater]
  simp only [refuse, Bool.false_eq_true, if_false]
  cases heartbeats with
  | none =>
      rw [run_store_none]
      simp
  | some directory =>
      by_cases hfailures : ∀ step, failures step = false
      · rw [run_store_unfailing hfailures]
        simp [hfailures, written]
      · obtain ⟨step, hstep⟩ := not_forall.mp hfailures
        rw [run_store_failing (by simpa using hstep)]
        simp [hfailures]

end Comparing

/-- **When the judgement is one of instants.** -/
theorem heartbeatIngest_judges_iff (python : Python) (engine : Engine) (failures : Failures)
    (record : Value) (fields : Fields) (host : Text) (heartbeats : Heartbeats)
    (h : check python record = .ok (fields, host)) :
    Judges python engine failures record fields host heartbeats ↔
      Comparable python engine failures fields heartbeats := by
  cases hread : observedAt python fields with
  | error e => exact judges_iff_of_unread h hread
  | ok observed =>
      by_cases hrange : 0 ≤ engine.now.wall + engine.skew ∧ engine.now.wall + engine.skew < maxWall
      · by_cases hlater : engine.now.wall + engine.skew < observed.wall
        · exact judges_iff_of_later h hread hrange hlater
        · exact judges_iff_of_not_later h hread hrange hlater
      · have hoverflow : judge python engine fields = .error .overflowError := by
          rw [judge_of_observed hread, if_neg hrange]
        refine iff_of_false ?_ fun hcomparable => hrange (hcomparable.agrees observed hread).inRange
        unfold Judges
        rw [run_of_check h, hoverflow]
        rintro (⟨_, hrun, -⟩ | ⟨_, -, hrun, -⟩)
        · cases hrun
        · cases hrun

/-- A record of the time `observed`. -/
def recordOf (observed : String) : Fields :=
  [(.of "schema_version", .number (.int 1)), (.of "host_id", .text (.of "remote-1")),
    (.of "observed_at", .text (.of observed)), (.of "health", .text (.of "HEALTHY"))]

/-- Noon of the first day of 2026, at an offset of `hours`. -/
def noonAt (hours : ℤ) : Reading where
  wall := 63902865600000000
  offset := some (hours * 3600000000)
  inRange := by decide

/-- The standard library, as far as it is asked about noon. -/
def noonPython : Python where
  str value := match value with
    | .text text => text
    | _ => []
  fromisoformat text :=
    if text = .of "2026-01-01T12:00:00+00:00" then .ok (noonAt 0)
    else if text = .of "2026-01-01T12:00:00+02:00" then .ok (noonAt 2)
    else .error []

/-- The engine at a whole hour of that day, in UTC. -/
def engineAt (hour : ℕ) : Engine := ⟨.ofSeconds (63902822400 + hour * 3600), 300⟩

theorem check_recordOf (observed : String) :
    check noonPython (.object (recordOf observed)) = .ok (recordOf observed, .of "remote-1") := by
  have hkeys : keysIn allowed (recordOf observed) = true := by
    simp [keysIn, recordOf, allowed, Text.of_inj]
  have hschema : (recordOf observed).get? "schema_version" = some (.number (.int 1)) := by
    unfold recordOf
    rw [Fields.get?_cons, if_pos rfl]
  have hhost : (recordOf observed).get? "host_id" = some (.text (.of "remote-1")) := by
    unfold recordOf
    rw [Fields.get?_cons, if_neg (by decide), Fields.get?_cons, if_pos rfl]
  have hhealth : (recordOf observed).get? "health" = some (.text (.of "HEALTHY")) := by
    unfold recordOf
    rw [Fields.get?_cons, if_neg (by decide), Fields.get?_cons, if_neg (by decide), Fields.get?_cons,
      if_neg (by decide), Fields.get?_cons, if_pos rfl]
  have hmetrics : (recordOf observed).get? "metrics" = none := by
    unfold recordOf
    rw [Fields.get?_cons, if_neg (by decide), Fields.get?_cons, if_neg (by decide), Fields.get?_cons,
      if_neg (by decide), Fields.get?_cons, if_neg (by decide), Fields.get?_nil]
  have hid : isHostId (.of "remote-1") = true := by decide
  have hfields : checkFields noonPython (recordOf observed) = .ok (.of "remote-1") := by
    unfold checkFields
    rw [hkeys, hschema, hhost, hhealth, hmetrics]
    simp only [Option.getD_some, Option.getD_none, noonPython, hid]
    rfl
  unfold check
  simp only [hfields]
  rfl

theorem observedAt_noonAt {hours : ℤ} {observed : String}
    (h : noonPython.fromisoformat (expandZulu (.of observed)) = .ok (noonAt hours)) :
    observedAt noonPython (recordOf observed) = .ok (noonAt hours) := by
  refine observedAt_eq_ok_iff.mpr ⟨.of observed, ?_, h⟩
  unfold recordOf
  rw [Fields.get?_cons, if_neg (by decide), Fields.get?_cons, if_neg (by decide), Fields.get?_cons,
    if_pos rfl]

theorem skew_engineAt (hour : ℕ) : (engineAt hour).skew = 300000000 := by
  unfold Engine.skew engineAt
  norm_num [roundHalfEven]

theorem wall_engineAt : (engineAt 10).now.wall = 63902858400000000 ∧
    (engineAt 12).now.wall = 63902865600000000 := by
  decide

theorem observedAt_utc :
    observedAt noonPython (recordOf "2026-01-01T12:00:00Z") = .ok (noonAt 0) := by
  have hexpand : expandZulu (.of "2026-01-01T12:00:00Z") = .of "2026-01-01T12:00:00+00:00" := by
    decide
  apply observedAt_noonAt
  rw [hexpand]
  unfold noonPython
  simp only [if_true]

theorem observedAt_east :
    observedAt noonPython (recordOf "2026-01-01T12:00:00+02:00") = .ok (noonAt 2) := by
  have hexpand : expandZulu (.of "2026-01-01T12:00:00+02:00") = .of "2026-01-01T12:00:00+02:00" := by
    decide
  have hother : Text.of "2026-01-01T12:00:00+02:00" ≠ .of "2026-01-01T12:00:00+00:00" := by
    decide
  apply observedAt_noonAt
  rw [hexpand]
  unfold noonPython
  simp only [hother, if_false, if_true]

/-- Noon in UTC is judged at noon. -/
theorem heartbeatIngest_judges_noon : Judges noonPython (engineAt 12) (fun _ => false)
    (.object (recordOf "2026-01-01T12:00:00Z")) (recordOf "2026-01-01T12:00:00Z") (.of "remote-1")
    (some fun _ => none) := by
  refine (heartbeatIngest_judges_iff noonPython (engineAt 12) (fun _ => false) _ _ _ _
    (check_recordOf _)).mpr ⟨?_, fun observed hread => ?_, fun _ => ⟨rfl, fun _ => rfl⟩⟩
  · obtain ⟨text, htext, -⟩ := observedAt_eq_ok_iff.mp observedAt_utc
    exact ⟨text, htext⟩
  · obtain rfl := Except.ok.inj (observedAt_utc.symm.trans hread)
    have hwall := wall_engineAt.2
    have hskew := skew_engineAt 12
    refine ⟨?_, fun hnaive => ?_, fun offset hoffset => .inl ?_⟩
    · rw [hwall, hskew]
      decide
    · cases hnaive
    · obtain rfl := Option.some.inj hoffset
      rw [hwall, hskew]
      decide

/-- At ten in UTC an observation from noon, two hours east of it, is refused. -/
theorem heartbeatIngest_refuses_east :
    check noonPython (.object (recordOf "2026-01-01T12:00:00+02:00")) =
        .ok (recordOf "2026-01-01T12:00:00+02:00", .of "remote-1") ∧
      OnTime noonPython (engineAt 10) (recordOf "2026-01-01T12:00:00+02:00") ∧
      ¬ Judges noonPython (engineAt 10) (fun _ => false)
        (.object (recordOf "2026-01-01T12:00:00+02:00")) (recordOf "2026-01-01T12:00:00+02:00")
        (.of "remote-1") (some fun _ => none) := by
  have hwall := wall_engineAt.1
  have hskew := skew_engineAt 10
  have hontime : OnTime noonPython (engineAt 10) (recordOf "2026-01-01T12:00:00+02:00") := by
    refine (onTime_iff_instant observedAt_east).mpr ⟨2 * 3600000000, rfl, ?_⟩
    rw [hskew]
    unfold DateTime.instant
    rw [hwall]
    decide
  have hjudge : judge noonPython (engineAt 10) (recordOf "2026-01-01T12:00:00+02:00") =
      .error (.valueError (.of "heartbeat is from the future")) := by
    rw [judge_of_observed observedAt_east, hwall, hskew, if_pos (by decide)]
    rfl
  refine ⟨check_recordOf _, hontime, ?_⟩
  unfold Judges
  rw [run_of_check (check_recordOf _), hjudge]
  rintro (⟨_, -, hlate⟩ | ⟨_, -, hrun, -⟩)
  · exact hlate hontime
  · cases hrun

end UltimateBBSBox.Monitoring.Heartbeat

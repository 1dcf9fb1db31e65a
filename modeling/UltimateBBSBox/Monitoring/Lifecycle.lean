import UltimateBBSBox.Library.Machine
import UltimateBBSBox.Monitoring.Engine

/-!
# The lifecycle of alerts

One engine evaluates snapshot after snapshot under a UTC clock that does not go
back.  `AfterCall` says what every call leaves behind: the active records are
those of the conditions of its snapshot, times are in order, and the history of
cleared records is cut to the bound at its old end.

The invariant `Sound` is about the records of the file: each stands under its own
key, and its times are in order and not later than the last call.  Times are
texts; `isoformat_le_iff` makes their order that of the instants.
-/

namespace UltimateBBSBox.Monitoring

open Observatory

/-! ## Calls one after the other -/

/-- The file, and the time of the last call. -/
structure World where
  file : AlertsFile
  latest : Option DateTime

/-- A call of `evaluate`. -/
structure Call where
  now : DateTime
  snapshot : Snapshot

namespace World

variable (engine : Engine)

/-- One call. -/
def step (w : World) (call : Call) : Option (List Record × World) :=
  let (records, file) := engine.evaluate call.now call.snapshot w.file
  some (records, ⟨file, some call.now⟩)

/-- The clock is in UTC and has not gone back. -/
def Ticks (w : World) (call : Call) : Prop :=
  call.now.offset = 0 ∧ ∀ before ∈ w.latest, before.instant ≤ call.now.instant

instance (w : World) (call : Call) : Decidable (w.Ticks call) :=
  inferInstanceAs (Decidable (_ ∧ _))

end World

/-- What a call has left behind, where `setting` is the bound that was asked for. -/
structure AfterCall (setting : ℤ) (w : World) (call : Call) (records : List Record) (w' : World) :
    Prop where
  distinct : (records.map Record.alertId).Nodup
  active : ∀ key, (∃ r ∈ records, r.alertId = key ∧ r.state = .active) ↔
    ∃ condition, (key, condition) ∈ conditions call.snapshot
  condition : ∀ r ∈ records, r.state = .active →
    (r.alertId, r.condition) ∈ conditions call.snapshot
  seen : ∀ r ∈ records, r.firstSeen ≤ r.lastSeen ∧ r.lastSeen ≤ call.now.isoformat
  clearing : ∀ r ∈ records, r.state = .cleared →
    ∃ clearedAt, r.clearedAt = some clearedAt ∧ r.lastSeen ≤ clearedAt
  uninterrupted : ∀ key prior, w.file.load.get? key = some prior → prior.state = .active →
    ∀ r ∈ records, r.alertId = key → r.state = .active →
      r.firstSeen = prior.firstSeen ∧ r.occurrenceCount = prior.occurrenceCount + 1
  evicted : ∀ r ∈ (merge call.now.isoformat (activeConditions call.snapshot) w.file.load).values,
    r ∉ records → r.state = .cleared ∧ ∀ kept ∈ records, kept.state = .cleared →
      r.clearedAt.getD "" ≤ kept.clearedAt.getD ""
  bounded : ((records.filter fun r => r.state = .cleared).length : ℤ) ≤ setting
  file : ∃ alerts, w'.file = .stored alerts ∧
    ∀ key r, alerts.get? key = some r ↔ r ∈ records ∧ r.alertId = key

/-! ## The records of the file -/

/-- A record under its key, with times that are in order up to a time. -/
structure Sound (time key : String) (r : Record) : Prop where
  alertId : r.alertId = key
  seen : r.firstSeen ≤ r.lastSeen
  past : r.lastSeen ≤ time
  clearing : r.state = .cleared →
    ∃ clearedAt, r.clearedAt = some clearedAt ∧ r.lastSeen ≤ clearedAt

section Step

variable {time now key : String} {active : Dict String Condition} {old : Dict String Record}

theorem Sound.lapsed {r : Record} (h : Sound time key r) (htime : time ≤ now) :
    Sound now key (r.lapsed now) := by
  unfold Record.lapsed
  split
  · exact ⟨h.alertId, h.seen, h.past.trans htime, fun _ => ⟨now, rfl, h.past.trans htime⟩⟩
  · exact ⟨h.alertId, h.seen, h.past.trans htime, h.clearing⟩

theorem sound_renewed {condition : Condition}
    (hold : ∀ r, old.get? key = some r → r.firstSeen ≤ now) :
    Sound now key (renewed now old key condition) := by
  refine ⟨rfl, ?_, le_rfl, fun hstate => by cases hstate⟩
  cases hprior : old.get? key with
  | none => simp [renewed, hprior]
  | some prior => simpa [renewed, hprior] using hold prior hprior

/-- Merging keeps the records sound. -/
theorem sound_merge (hold : ∀ key r, old.get? key = some r → Sound time key r) (htime : time ≤ now)
    {r : Record} (h : (merge now active old).get? key = some r) : Sound now key r := by
  rcases get?_merge_cases h with ⟨condition, _, rfl⟩ | ⟨_, prior, hprior, rfl⟩
  · refine sound_renewed fun prior hprior => ?_
    have hsound := hold key prior hprior
    exact (hsound.seen.trans hsound.past).trans htime
  · exact (hold key prior hprior).lapsed htime

end Step

/-! ## Reached worlds -/

/-- The records of the file are sound at the time of the last call. -/
structure World.Sound (w : World) : Prop where
  utc : ∀ before ∈ w.latest, before.offset = 0
  records : ∀ key r, w.file.load.get? key = some r →
    ∃ before ∈ w.latest, Monitoring.Sound before.isoformat key r

/-- What a call builds from sound records is sound at its time. -/
theorem World.Sound.merged {w : World} (h : w.Sound) {call : Call} (hticks : w.Ticks call)
    {active : Dict String Condition} {key : String} {r : Record}
    (hget : (merge call.now.isoformat active w.file.load).get? key = some r) :
    Monitoring.Sound call.now.isoformat key r := by
  cases hlatest : w.latest with
  | none =>
      have hempty : ∀ key r, w.file.load.get? key = some r →
          Monitoring.Sound call.now.isoformat key r := by
        intro key r hr
        obtain ⟨before, hbefore, _⟩ := h.records key r hr
        rw [hlatest] at hbefore
        cases hbefore
      exact sound_merge hempty le_rfl hget
  | some before =>
      have hmem : before ∈ w.latest := by rw [hlatest]; rfl
      have hold : ∀ key r, w.file.load.get? key = some r →
          Monitoring.Sound before.isoformat key r := by
        intro key r hr
        obtain ⟨before', hbefore', hsound⟩ := h.records key r hr
        rw [hlatest] at hbefore'
        cases hbefore'
        exact hsound
      have hoffset : before.offset = call.now.offset := (h.utc before hmem).trans hticks.1.symm
      exact sound_merge hold ((DateTime.isoformat_le_iff hoffset).mpr (hticks.2 before hmem)) hget

variable {engine : Engine}

/-- The records a call returns. -/
theorem mem_records {now : DateTime} {snapshot : Snapshot} {old : Dict String Record} {r : Record} :
    r ∈ (engine.records now snapshot old).values ↔ ∃ key,
      (merge now.isoformat (activeConditions snapshot) old).get? key = some r ∧
        key ∉ prunedKeys engine.retention (merge now.isoformat (activeConditions snapshot) old) := by
  rw [Engine.records, Dict.mem_values_iff]
  simp only [get?_prune]

theorem World.Sound.step {w w' : World} (h : w.Sound) {call : Call} {records : List Record}
    (hticks : w.Ticks call) (hstep : w.step engine call = some (records, w')) : w'.Sound := by
  obtain ⟨rfl, rfl⟩ := Prod.mk.inj (Option.some.inj hstep)
  constructor
  · rintro before hbefore
    obtain rfl := Option.some.inj hbefore
    exact hticks.1
  · intro key r hr
    refine ⟨call.now, rfl, ?_⟩
    have hget : (engine.records call.now call.snapshot w.file.load).get? key = some r := by
      rw [← Dict.get?_sortKeys]
      exact hr
    rw [Engine.records, get?_prune] at hget
    exact h.merged hticks hget.1

theorem World.sound_of_run {file : AlertsFile} (hfile : file.load = ∅) {w : World}
    (hrun : Machine.Run (World.step engine) World.Ticks ⟨file, none⟩ w) : w.Sound := by
  have hinitial : World.Sound ⟨file, none⟩ := by
    constructor
    · intro before hbefore
      cases hbefore
    · intro key r hr
      rw [hfile] at hr
      cases hr
  exact hrun.invariant hinitial fun w call records w' h hticks hstep => h.step hticks hstep

/-! ## What one call leaves behind -/

section Call

variable {now : DateTime} {snapshot : Snapshot} {old : Dict String Record} {key : String}
  {r : Record}

/-- An active record is that of a condition of the snapshot. -/
theorem mem_conditions_of_active
    (h : (merge now.isoformat (activeConditions snapshot) old).get? key = some r)
    (hactive : r.state = .active) :
    r = renewed now.isoformat old key r.condition ∧ (key, r.condition) ∈ conditions snapshot := by
  obtain ⟨condition, hcondition, rfl⟩ := active_of_merge h hactive
  exact ⟨rfl, Dict.mem_of_get?_ofList hcondition⟩

/-- The record of a condition that holds is returned. -/
theorem renewed_mem_records {condition : Condition}
    (h : (activeConditions snapshot).get? key = some condition) :
    renewed now.isoformat old key condition ∈ (engine.records now snapshot old).values := by
  have hget := get?_merge_of_some now.isoformat old h
  refine mem_records.mpr ⟨key, hget, fun hpruned => ?_⟩
  have hcleared := state_of_mem_prunedKeys hget hpruned
  cases hcleared

end Call

/-- Every call from sound records does what `AfterCall` says. -/
theorem World.Sound.afterCall {w w' : World} (h : w.Sound) {call : Call} {records : List Record}
    (hticks : w.Ticks call) (hstep : w.step engine call = some (records, w')) :
    AfterCall engine.retention w call records w' := by
  obtain ⟨rfl, rfl⟩ := Prod.mk.inj (Option.some.inj hstep)
  set old := w.file.load with hold
  set merged := merge call.now.isoformat (activeConditions call.snapshot) old with hmerged
  -- a returned record is a merged one under its own key
  have hreturned : ∀ r ∈ (engine.records call.now call.snapshot old).values,
      merged.get? r.alertId = some r ∧ r.alertId ∉ prunedKeys engine.retention merged ∧
        Monitoring.Sound call.now.isoformat r.alertId r := by
    intro r hr
    obtain ⟨key, hget, hkept⟩ := mem_records.mp hr
    have hsound := h.merged hticks hget
    obtain rfl := hsound.alertId
    exact ⟨hget, hkept, hsound⟩
  constructor
  case distinct =>
    refine Dict.nodup_map_values fun key r hget => ?_
    rw [Engine.records, get?_prune] at hget
    exact (h.merged hticks hget.1).alertId
  case active =>
    intro key
    constructor
    · rintro ⟨r, hr, rfl, hactive⟩
      exact ⟨r.condition, (mem_conditions_of_active (hreturned r hr).1 hactive).2⟩
    · rintro ⟨condition, hmem⟩
      obtain ⟨condition, hget⟩ := Dict.get?_ofList_ne_none hmem
      exact ⟨_, renewed_mem_records hget, rfl, rfl⟩
  case condition =>
    intro r hr hactive
    exact (mem_conditions_of_active (hreturned r hr).1 hactive).2
  case seen =>
    intro r hr
    have hsound := (hreturned r hr).2.2
    exact ⟨hsound.seen, hsound.past⟩
  case clearing =>
    intro r hr hcleared
    exact (hreturned r hr).2.2.clearing hcleared
  case uninterrupted =>
    intro key prior hprior hactive r hr hkey hstate
    subst hkey
    rw [← hold] at hprior
    have hrenewed := (mem_conditions_of_active (hreturned r hr).1 hstate).1
    rw [hrenewed]
    simp [renewed, hprior]
  case evicted =>
    intro r hr hgone
    obtain ⟨key, hget⟩ := Dict.mem_values_iff.mp hr
    have hpruned : key ∈ prunedKeys engine.retention merged := by
      by_contra hkept
      exact hgone (mem_records.mpr ⟨key, hget, hkept⟩)
    refine ⟨state_of_mem_prunedKeys hget hpruned, fun kept hkept hcleared => ?_⟩
    obtain ⟨hget', hkept', _⟩ := hreturned kept hkept
    exact clearedAt_le_of_pruned hget hpruned hget' hkept' hcleared
  case bounded => exact_mod_cast length_cleared_prune_le
  case file =>
    refine ⟨_, rfl, fun key r => ?_⟩
    rw [Dict.get?_sortKeys]
    constructor
    · intro hget
      have hr : r ∈ (engine.records call.now call.snapshot old).values :=
        Dict.mem_values_iff.mpr ⟨key, hget⟩
      rw [Engine.records, get?_prune] at hget
      exact ⟨hr, (h.merged hticks hget.1).alertId⟩
    · rintro ⟨hr, rfl⟩
      obtain ⟨hget, hkept, _⟩ := hreturned r hr
      rw [Engine.records, get?_prune]
      exact ⟨hget, hkept⟩

/-! ## Every call of every run -/

/-- The summary of a service that runs and is qualified. -/
def runningSummary (id : String) (backup : Option BackupSummary) : ServiceSummary where
  id := id
  integration := none
  endpoint := ⟨"ep", .tcp, none, none, .local⟩
  policy := .onDemand
  state := "running"
  activeSessions := 0
  maintenance := false
  readiness := .ready
  artifact := none
  deployment := none
  backup := backup
  hostHealth := .local
  health := .healthy

/-- A snapshot of two services, with or without a backup of them. -/
def backedUp (backup : Option BackupSummary) : Snapshot where
  services := [runningSummary "a" backup, runningSummary "b" backup]
  alerts := []
  hosts := []

/-- Calls a second apart: no backup yet, then one of both services. -/
def backupCalls : List Call :=
  [⟨.ofSeconds 0, backedUp none⟩, ⟨.ofSeconds 1, backedUp (some ⟨true, [], none, none⟩)⟩]

/-- Two conditions that clear leave two cleared records, although one was asked for. -/
theorem two_cleared_kept :
    ¬ ∀ (engine : Engine) (file : AlertsFile), (file = .missing ∨ file = .unreadable) →
      ∀ (w w' : World) (call : Call) (records : List Record),
        Machine.Run (World.step engine) World.Ticks ⟨file, none⟩ w → w.Ticks call →
          w.step engine call = some (records, w') →
            AfterCall engine.retentionSetting w call records w' := by
  intro hall
  let second : Call := ⟨.ofSeconds 1, backedUp (some ⟨true, [], none, none⟩)⟩
  have hexec : (Machine.exec (World.step ⟨1⟩) World.Ticks ⟨.missing, none⟩
      (backupCalls.take 1)).bind (fun w => (w.step ⟨1⟩ second).map fun result =>
        (decide (w.Ticks second), (result.1.filter fun r => r.state = .cleared).length)) =
      some (true, 2) := by decide
  obtain ⟨w, hw, hobserved⟩ := Option.bind_eq_some_iff.mp hexec
  obtain ⟨⟨records, w'⟩, hstep, hobserved⟩ := Option.map_eq_some_iff.mp hobserved
  simp only [Prod.mk.injEq, decide_eq_true_eq] at hobserved
  have hafter := hall ⟨1⟩ .missing (.inl rfl) w w' second records (Machine.run_of_exec hw)
    hobserved.1 hstep
  have hbounded := hafter.bounded
  rw [hobserved.2] at hbounded
  exact absurd hbounded (by decide)

/-- **The lifecycle of alerts.**  After any sequence of calls that started without
a readable file, every call does what `AfterCall` says; the bound is the setting,
but never less than ten. -/
theorem alert_lifecycle (engine : Engine) {file : AlertsFile}
    (hfile : file = .missing ∨ file = .unreadable) {w w' : World} {call : Call}
    {records : List Record} (hrun : Machine.Run (World.step engine) World.Ticks ⟨file, none⟩ w)
    (hticks : w.Ticks call) (hstep : w.step engine call = some (records, w')) :
    AfterCall (max 10 engine.retentionSetting) w call records w' := by
  have hempty : file.load = ∅ := by
    rcases hfile with rfl | rfl <;> rfl
  have hafter := (World.sound_of_run hempty hrun).afterCall hticks hstep
  have hretention : (engine.retention : ℤ) = max 10 engine.retentionSetting := by
    rw [Engine.retention]
    omega
  rwa [hretention] at hafter

/-- The conditions clear, recur and count on. -/
theorem alert_lifecycle_of_recurrence :
    ∃ (w w' : World) (records : List Record),
      w.step ⟨200⟩ ⟨.ofSeconds 3, backedUp none⟩ = some (records, w') ∧
        records.map (·.occurrenceCount) = [3, 3] ∧
        AfterCall 200 w ⟨.ofSeconds 3, backedUp none⟩ records w' := by
  let again : Call := ⟨.ofSeconds 3, backedUp none⟩
  have hexec : (Machine.exec (World.step ⟨200⟩) World.Ticks ⟨.unreadable, none⟩
      (backupCalls ++ [⟨.ofSeconds 2, backedUp none⟩])).bind (fun w =>
        (w.step ⟨200⟩ again).map fun result =>
          (decide (w.Ticks again), result.1.map (·.occurrenceCount))) =
      some (true, [3, 3]) := by decide
  obtain ⟨w, hw, hobserved⟩ := Option.bind_eq_some_iff.mp hexec
  obtain ⟨⟨records, w'⟩, hstep, hobserved⟩ := Option.map_eq_some_iff.mp hobserved
  simp only [Prod.mk.injEq, decide_eq_true_eq] at hobserved
  exact ⟨w, w', records, hstep, hobserved.2,
    alert_lifecycle ⟨200⟩ (.inr rfl) (Machine.run_of_exec hw) hobserved.1 hstep⟩

end UltimateBBSBox.Monitoring

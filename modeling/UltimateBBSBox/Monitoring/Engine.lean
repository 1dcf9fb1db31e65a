import UltimateBBSBox.Library.IsoFormat
import UltimateBBSBox.Library.Retention
import UltimateBBSBox.Observatory.Collector

/-!
# The monitoring engine

`engine.py` of `ubb_monitoring`: from a snapshot it derives the conditions that
hold, merges them with the records of `alerts.json`, prunes the cleared records
and writes the file again.

Times are kept as the texts that `isoformat` writes.  The file holds its records
by key, in the order of the keys.
-/

namespace UltimateBBSBox.Monitoring

open Observatory

/-! ## Records -/

/-- What a condition is about: `service_id` or `host_id`. -/
inductive Subject
  | service (id : String)
  | host (id : String)
deriving DecidableEq, Repr

/-- A value of `active`. -/
structure Condition where
  severity : Severity
  subject : Subject
  summary : String
deriving DecidableEq

/-- `state` of a record. -/
inductive AlertState | active | cleared
deriving DecidableEq, Repr

/-- A record of `alerts.json`. -/
structure Record where
  condition : Condition
  alertId : String
  state : AlertState
  firstSeen : String
  lastSeen : String
  occurrenceCount : ℕ
  clearedAt : Option String
deriving DecidableEq

/-- `alerts.json`. -/
inductive AlertsFile
  | missing
  | unreadable
  | stored (alerts : Dict String Record)
deriving DecidableEq

/-- `_load`. -/
def AlertsFile.load : AlertsFile → Dict String Record
  | .missing | .unreadable => ∅
  | .stored alerts => alerts

/-! ## Conditions -/

/-- The conditions of a service. -/
def serviceConditions (item : ServiceSummary) : List (String × Condition) :=
  (match item.health with
    | .unhealthy =>
        [(s!"health:{item.id}", ⟨.critical, .service item.id, "service health is unhealthy"⟩)]
    | .degraded =>
        [(s!"health:{item.id}", ⟨.warning, .service item.id, "service health is degraded"⟩)]
    | _ => []) ++
  (if item.backup = none then
    [(s!"backup:{item.id}", ⟨.warning, .service item.id, "no backup evidence recorded"⟩)]
    else []) ++
  (if item.readiness ∈ [Readiness.notReady, .blocked] then
    [(s!"qualification:{item.id}",
      ⟨.warning, .service item.id, s!"qualification is {item.readiness.name}"⟩)] else [])

/-- The conditions of a host. -/
def hostConditions (host : Host) : List (String × Condition) :=
  if host.health = .unknown then
    [(s!"host:{host.id}", ⟨.warning, .host host.id, "remote host has no current telemetry"⟩)]
  else []

/-- The assignments to `active`, in their order. -/
def conditions (snapshot : Snapshot) : List (String × Condition) :=
  snapshot.services.flatMap serviceConditions ++ snapshot.hosts.flatMap hostConditions

/-- `active`. -/
def activeConditions (snapshot : Snapshot) : Dict String Condition := .ofList (conditions snapshot)

/-! ## `evaluate` -/

/-- The record of a condition that holds now. -/
def renewed (now : String) (old : Dict String Record) (key : String) (condition : Condition) :
    Record where
  condition := condition
  alertId := key
  state := .active
  firstSeen := ((old.get? key).map (·.firstSeen)).getD now
  lastSeen := now
  occurrenceCount := ((old.get? key).map (·.occurrenceCount)).getD 0 + 1
  clearedAt := none

/-- The record of a condition that does not hold now. -/
def Record.lapsed (now : String) (prior : Record) : Record :=
  if prior.state = .active then { prior with state := .cleared, clearedAt := some now } else prior

/-- The two loops that build `records`. -/
def merge (now : String) (active : Dict String Condition) (old : Dict String Record) :
    Dict String Record :=
  (active.mapValues (renewed now old)).update
    ((old.filterKeys fun key => (active.get? key).isNone).mapValues fun _ => Record.lapsed now)

/-- The pruning of `evaluate`. -/
def prune (retention : ℕ) (records : Dict String Record) : Dict String Record :=
  let cleared := records.entries.filter fun entry => entry.2.state = .cleared
  if retention < cleared.length then
    records.popAll ((Retention.victims (fun entry : String × Record =>
      entry.2.clearedAt.getD "") retention cleared).map Prod.fst)
  else records

/-- `MonitoringEngine`, with the setting of its bound. -/
structure Engine where
  retentionSetting : ℤ

/-- `self.retention`. -/
def Engine.retention (engine : Engine) : ℕ := (max 10 engine.retentionSetting).toNat

/-- The records of `evaluate`. -/
def Engine.records (engine : Engine) (now : DateTime) (snapshot : Snapshot)
    (old : Dict String Record) : Dict String Record :=
  prune engine.retention (merge now.isoformat (activeConditions snapshot) old)

/-- `evaluate`: what it returns, and the file it leaves. -/
def Engine.evaluate (engine : Engine) (now : DateTime) (snapshot : Snapshot) (file : AlertsFile) :
    List Record × AlertsFile :=
  let records := engine.records now snapshot file.load
  (records.values, .stored records.sortKeys)

/-! ## What merging and pruning do to a key -/

section Merge

variable {now : String} {active : Dict String Condition} {old : Dict String Record} {key : String}

theorem get?_merge_of_some (now : String) (old : Dict String Record) {condition : Condition}
    (h : active.get? key = some condition) :
    (merge now active old).get? key = some (renewed now old key condition) := by
  rw [merge, Dict.get?_update, Dict.get?_mapValues, Dict.get?_mapValues, Dict.get?_filterKeys, h]
  simp

theorem get?_merge_of_none (h : active.get? key = none) :
    (merge now active old).get? key = (old.get? key).map (Record.lapsed now) := by
  rw [merge, Dict.get?_update, Dict.get?_mapValues, Dict.get?_mapValues, Dict.get?_filterKeys, h]
  simp

/-- A merged record is that of a condition that holds, or an earlier one that lapsed. -/
theorem get?_merge_cases {r : Record} (h : (merge now active old).get? key = some r) :
    (∃ condition, active.get? key = some condition ∧ r = renewed now old key condition) ∨
      (active.get? key = none ∧ ∃ prior, old.get? key = some prior ∧ r = prior.lapsed now) := by
  cases hactive : active.get? key with
  | some condition =>
      rw [get?_merge_of_some now old hactive] at h
      exact .inl ⟨condition, rfl, (Option.some.inj h).symm⟩
  | none =>
      rw [get?_merge_of_none hactive] at h
      obtain ⟨prior, hprior, hr⟩ := Option.map_eq_some_iff.mp h
      exact .inr ⟨rfl, prior, hprior, hr.symm⟩

theorem lapsed_state (prior : Record) : (prior.lapsed now).state = .cleared := by
  unfold Record.lapsed
  cases hstate : prior.state with
  | active => simp
  | cleared => simpa using hstate

/-- The active records of a merge are those of the conditions that hold. -/
theorem active_of_merge {r : Record} (h : (merge now active old).get? key = some r)
    (hactive : r.state = .active) :
    ∃ condition, active.get? key = some condition ∧ r = renewed now old key condition := by
  rcases get?_merge_cases h with hrenewed | ⟨_, prior, _, rfl⟩
  · exact hrenewed
  · rw [lapsed_state] at hactive
    cases hactive

end Merge

/-- The keys that pruning drops. -/
def prunedKeys (retention : ℕ) (records : Dict String Record) : List String :=
  (Retention.victims (fun entry : String × Record => entry.2.clearedAt.getD "") retention
    (records.entries.filter fun entry => entry.2.state = .cleared)).map Prod.fst

/-- Pruning drops these keys, none where the bound is kept anyway. -/
theorem prune_eq (retention : ℕ) (records : Dict String Record) :
    prune retention records = records.filterKeys fun key => key ∉ prunedKeys retention records := by
  unfold prune
  dsimp only
  split
  · exact Dict.popAll_eq_filterKeys _ _
  · rename_i hwithin
    rw [prunedKeys, Retention.victims_eq_nil (not_lt.mp hwithin)]
    simp [Dict.filterKeys]

section Prune

variable {retention : ℕ} {records : Dict String Record} {key : String} {r : Record}

/-- The cleared records with their keys. -/
def clearedEntries (records : Dict String Record) : List (String × Record) :=
  records.entries.filter fun entry => entry.2.state = .cleared

theorem mem_clearedEntries {entry : String × Record} :
    entry ∈ clearedEntries records ↔ entry ∈ records.entries ∧ entry.2.state = .cleared := by
  simp [clearedEntries]

theorem get?_prune :
    (prune retention records).get? key = some r ↔
      records.get? key = some r ∧ key ∉ prunedKeys retention records := by
  rw [prune_eq, Dict.get?_filterKeys]
  by_cases hkey : key ∈ prunedKeys retention records <;> simp [hkey]

/-- A key that is dropped is that of a cleared record among the oldest. -/
theorem mem_prunedKeys (h : records.get? key = some r) :
    key ∈ prunedKeys retention records ↔
      (key, r) ∈ Retention.victims (fun entry : String × Record => entry.2.clearedAt.getD "")
        retention (clearedEntries records) := by
  constructor
  · intro hmem
    obtain ⟨⟨key', r'⟩, hvictim, rfl⟩ := List.mem_map.mp hmem
    have hentry := (mem_clearedEntries.mp (Retention.mem_of_mem_victims hvictim)).1
    have hget := Dict.get?_of_mem_entries hentry
    rw [h] at hget
    rwa [Option.some.inj hget]
  · exact fun hvictim => List.mem_map.mpr ⟨_, hvictim, rfl⟩

/-- An active record is never dropped. -/
theorem state_of_mem_prunedKeys (h : records.get? key = some r)
    (hkey : key ∈ prunedKeys retention records) : r.state = .cleared :=
  (mem_clearedEntries.mp (Retention.mem_of_mem_victims ((mem_prunedKeys h).mp hkey))).2

/-- No record that is dropped was cleared after one that stays. -/
theorem clearedAt_le_of_pruned {key' : String} {r' : Record} (h : records.get? key = some r)
    (hkey : key ∈ prunedKeys retention records) (h' : records.get? key' = some r')
    (hkey' : key' ∉ prunedKeys retention records) (hstate' : r'.state = .cleared) :
    r.clearedAt.getD "" ≤ r'.clearedAt.getD "" :=
  Retention.age_le_of_victim (fun entry : String × Record => entry.2.clearedAt.getD "")
    ((mem_prunedKeys h).mp hkey)
    (mem_clearedEntries.mpr ⟨Dict.mem_entries_of_get? h', hstate'⟩)
    fun hvictim => hkey' ((mem_prunedKeys h').mpr hvictim)

/-- No more cleared records than the bound stay. -/
theorem length_cleared_prune_le :
    ((prune retention records).values.filter fun r => r.state = .cleared).length ≤ retention := by
  have hsurvivors := Retention.length_survivors_le
    (fun entry : String × Record => entry.2.clearedAt.getD "") retention (clearedEntries records)
  have hsame : (prune retention records).entries.filter (fun entry => entry.2.state = .cleared) =
      (clearedEntries records).filter fun entry => entry ∉ Retention.victims
        (fun entry : String × Record => entry.2.clearedAt.getD "") retention
        (clearedEntries records) := by
    rw [prune_eq, Dict.filterKeys, clearedEntries, List.filter_filter, List.filter_filter]
    refine List.filter_congr fun entry hmem => ?_
    have hget := Dict.get?_of_mem_entries (d := records) (v := entry.2) hmem
    simp only [mem_prunedKeys hget, clearedEntries, Bool.and_comm]
  have hvalues : (prune retention records).values.filter (fun r => r.state = .cleared) =
      ((prune retention records).entries.filter fun entry => entry.2.state = .cleared).map
        Prod.snd := by
    rw [Dict.values, List.filter_map]
    rfl
  rw [hvalues, List.length_map, hsame]
  exact hsurvivors

end Prune

end UltimateBBSBox.Monitoring

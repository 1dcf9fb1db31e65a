import UltimateBBSBox.Library.Dict
import UltimateBBSBox.Library.DateTime
import UltimateBBSBox.Archive.Values
import UltimateBBSBox.Supervisor.Lifecycle

/-!
# Instance state and what is persisted of it

`models.py` of `ubb_supervisor`.  `Document` is the mapping `to_dict` builds;
the state file of a service holds the one built with `persist=True`, which
keeps only the `admin` and `always_on` holds and no sessions.
-/

namespace UltimateBBSBox.Supervisor

/-- An entry of `maintenance_results`: `{"timestamp": timestamp, **result}`. -/
structure MaintenanceResult where
  timestamp : DateTime
  result : Archive.Fields

/-- `InstanceState`. -/
structure InstanceState where
  serviceId : String
  instanceId : String
  state : LifecycleState := .stopped
  holds : Dict String ℤ := ∅
  sessions : Dict String DateTime := ∅
  adminIntent : Bool := false
  idleDeadline : Option DateTime := none
  lastStartAt : Option DateTime := none
  lastStopAt : Option DateTime := none
  lastFailure : Option String := none
  restartTimes : List DateTime := []
  nextRestartAt : Option DateTime := none
  restartExhausted : Bool := false
  maintenanceResults : Dict String MaintenanceResult := ∅
  scheduleLastRun : Dict String DateTime := ∅
  runtime : Archive.Fields := []

/-- The mapping `to_dict` returns. -/
structure Document where
  serviceId : String
  instanceId : String
  state : LifecycleState
  holds : Dict String ℤ
  sessions : Dict String DateTime
  activeSessionCount : ℕ
  adminIntent : Bool
  idleDeadline : Option DateTime
  lastStartAt : Option DateTime
  lastStopAt : Option DateTime
  lastFailure : Option String
  restartTimes : List DateTime
  nextRestartAt : Option DateTime
  restartExhausted : Bool
  maintenanceResults : Dict String MaintenanceResult
  scheduleLastRun : Dict String DateTime
  runtime : Archive.Fields

/-- The holds that outlive the process. -/
def isPersistentHold (key : String) : Bool := key ∈ ["admin", "always_on"]

namespace InstanceState

/-- `active_holds`. -/
def activeHolds (inst : InstanceState) : ℤ := inst.holds.values.sum

/-- `to_dict`. -/
def toDict (inst : InstanceState) (persist : Bool) : Document where
  serviceId := inst.serviceId
  instanceId := inst.instanceId
  state := inst.state
  holds := if persist then inst.holds.filterKeys isPersistentHold else inst.holds
  sessions := if persist then ∅ else inst.sessions
  activeSessionCount := inst.sessions.size
  adminIntent := inst.adminIntent
  idleDeadline := inst.idleDeadline
  lastStartAt := inst.lastStartAt
  lastStopAt := inst.lastStopAt
  lastFailure := inst.lastFailure
  restartTimes := inst.restartTimes
  nextRestartAt := inst.nextRestartAt
  restartExhausted := inst.restartExhausted
  maintenanceResults := inst.maintenanceResults
  scheduleLastRun := inst.scheduleLastRun
  runtime := inst.runtime

/-- `from_dict`. -/
def fromDict (value : Document) : InstanceState where
  serviceId := value.serviceId
  instanceId := value.instanceId
  state := value.state
  holds := value.holds.filterKeys isPersistentHold
  sessions := ∅
  adminIntent := value.adminIntent
  idleDeadline := value.idleDeadline
  lastStartAt := value.lastStartAt
  lastStopAt := value.lastStopAt
  lastFailure := value.lastFailure
  restartTimes := value.restartTimes
  nextRestartAt := value.nextRestartAt
  restartExhausted := value.restartExhausted
  maintenanceResults := value.maintenanceResults
  scheduleLastRun := value.scheduleLastRun
  runtime := value.runtime

/-- Holds that are counted stay positive, so one that is present keeps the sum positive. -/
theorem activeHolds_pos {inst : InstanceState}
    (hpos : ∀ k count, inst.holds.get? k = some count → 0 < count) {k : String}
    (hk : inst.holds.get? k ≠ none) : 0 < inst.activeHolds :=
  Dict.sum_values_pos hpos hk

/-- What the state file keeps is what is read back from it. -/
theorem fromDict_toDict (inst : InstanceState) :
    fromDict (inst.toDict true) =
      { inst with holds := inst.holds.filterKeys isPersistentHold, sessions := ∅ } := by
  have hholds : (inst.holds.filterKeys isPersistentHold).filterKeys isPersistentHold =
      inst.holds.filterKeys isPersistentHold := by
    simp [Dict.filterKeys]
  simp [fromDict, toDict, hholds]

end InstanceState

end UltimateBBSBox.Supervisor

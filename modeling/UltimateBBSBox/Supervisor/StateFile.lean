import UltimateBBSBox.Archive.JsonDump
import UltimateBBSBox.Library.IsoFormat
import UltimateBBSBox.Supervisor.Instance

/-!
# The state file of a service

`models.py` and `persistence.py` down to the text of the file.  `RawInstance` is
`InstanceState` as the source keeps it: a timestamp is any text.  An instance
of the rest of the development, whose timestamps are datetimes, is rendered
into one.

`save` sorts the keys of every object it writes, so `load` gives back what was
saved with its mappings in another order: `restored` is that instance, and
saving it again changes nothing.  A high surrogate in front of a low one is
written as the character that the two stand for, and is read back as that
character.  An instance round-trips if and only if none of its texts has such a
pair, and no integer is too long to be written (`StateFiles.load_save_round_trip`).
-/

namespace UltimateBBSBox.Supervisor

open Archive (Fields Value)
open Archive.JsonText (Dumpable FloatFormat Unpaired UnpairedValue codePoint dump loads
  unpairedValue_of_same)

/-- `LifecycleState(value)`. -/
def LifecycleState.ofValue (value : Text) : Option LifecycleState :=
  [stopped, starting, ready, running, maintenance, stopping, failed].find? (.of ·.value = value)

theorem LifecycleState.ofValue_value (state : LifecycleState) :
    ofValue (.of state.value) = some state := by
  cases state <;> decide

/-- `InstanceState`, field for field. -/
structure RawInstance where
  serviceId : Text
  instanceId : Text
  state : LifecycleState := .stopped
  holds : Dict Text ℤ := ∅
  sessions : Dict Text Text := ∅
  adminIntent : Bool := false
  idleDeadline : Option Text := none
  lastStartAt : Option Text := none
  lastStopAt : Option Text := none
  lastFailure : Option Text := none
  restartTimes : List Text := []
  nextRestartAt : Option Text := none
  restartExhausted : Bool := false
  maintenanceResults : Dict Text Fields := ∅
  scheduleLastRun : Dict Text Text := ∅
  runtime : Fields := []

/-- `key in ("admin", "always_on")`. -/
def isPersistentKey (key : Text) : Bool := key ∈ [.of "admin", .of "always_on"]

namespace RawInstance

/-! ## Writing -/

/-- A text, or `None`. -/
def ofText : Option Text → Value
  | none => .null
  | some text => .text text

/-- A dictionary as a JSON object. -/
def ofDict {β : Type} (f : β → Value) (d : Dict Text β) : Value :=
  .object (d.entries.map fun entry => (entry.1, f entry.2))

/-- `to_dict`. -/
def toDict (inst : RawInstance) (persist : Bool) : Fields :=
  let holds := if persist then inst.holds.filterKeys isPersistentKey else inst.holds
  let sessions := if persist then ∅ else inst.sessions
  [(.of "service_id", .text inst.serviceId),
    (.of "instance_id", .text inst.instanceId),
    (.of "state", .str inst.state.value),
    (.of "holds", ofDict (.number <| .int ·) holds),
    (.of "sessions", ofDict .text sessions),
    (.of "active_session_count", .number (.int inst.sessions.size)),
    (.of "admin_intent", .bool inst.adminIntent),
    (.of "idle_deadline", ofText inst.idleDeadline),
    (.of "last_start_at", ofText inst.lastStartAt),
    (.of "last_stop_at", ofText inst.lastStopAt),
    (.of "last_failure", ofText inst.lastFailure),
    (.of "restart_times", .array (inst.restartTimes.map .text)),
    (.of "next_restart_at", ofText inst.nextRestartAt),
    (.of "restart_exhausted", .bool inst.restartExhausted),
    (.of "maintenance_results", ofDict .object inst.maintenanceResults),
    (.of "schedule_last_run", ofDict .text inst.scheduleLastRun),
    (.of "runtime", .object inst.runtime)]

/-! ## Reading -/

/-- Why a file does not give an instance.  The source checks no types: a
document it would take into a field of another type is `illTyped` here. -/
inductive Unreadable
  | notJson
  | notAnObject
  | missing (key : String)
  | notAState (value : Value)
  | illTyped (key : String)

/-- `value[key]`. -/
def required (value : Fields) (key : String) : Except Unreadable Value :=
  match value.get? key with
  | some field => .ok field
  | none => .error (.missing key)

/-- `value.get(key, default)`. -/
def field (value : Fields) (key : String) (default : Value) : Value :=
  (value.get? key).getD default

def readText (key : String) : Value → Except Unreadable Text
  | .text text => .ok text
  | _ => .error (.illTyped key)

def readOptionalText (key : String) : Value → Except Unreadable (Option Text)
  | .null => .ok none
  | .text text => .ok (some text)
  | _ => .error (.illTyped key)

/-- `LifecycleState(value)`. -/
def readState : Value → Except Unreadable LifecycleState
  | .text value =>
      match LifecycleState.ofValue value with
      | some state => .ok state
      | none => .error (.notAState (.text value))
  | value => .error (.notAState value)

/-- `int(count)` of a number. -/
def readCount : Value → Except Unreadable ℤ
  | .number (.int count) => .ok count
  | .bool value => .ok (if value then 1 else 0)
  | _ => .error (.illTyped "holds")

def readTexts (key : String) : Value → Except Unreadable (List Text)
  | .array items => items.mapM (readText key)
  | _ => .error (.illTyped key)

def readObject (key : String) : Value → Except Unreadable Fields
  | .object fields => .ok fields
  | _ => .error (.illTyped key)

/-- A dictionary with the values of an object. -/
def readDict {β : Type} (read : Value → Except Unreadable β) (fields : Fields) :
    Except Unreadable (Dict Text β) := do
  let entries ← fields.mapM fun field => do return (field.1, ← read field.2)
  return Dict.ofList entries

/-- `from_dict`. -/
def fromDict (value : Fields) : Except Unreadable RawInstance := do
  let serviceId ← readText "service_id" (← required value "service_id")
  let instanceId ← readText "instance_id" (← required value "instance_id")
  let state ← readState (field value "state" (.str "stopped"))
  let counts ← readObject "holds" (field value "holds" (.object []))
  let holds ← readDict readCount (counts.filter fun hold => isPersistentKey hold.1)
  let idleDeadline ← readOptionalText "idle_deadline" (field value "idle_deadline" .null)
  let lastStartAt ← readOptionalText "last_start_at" (field value "last_start_at" .null)
  let lastStopAt ← readOptionalText "last_stop_at" (field value "last_stop_at" .null)
  let lastFailure ← readOptionalText "last_failure" (field value "last_failure" .null)
  let restartTimes ← readTexts "restart_times" (field value "restart_times" (.array []))
  let nextRestartAt ← readOptionalText "next_restart_at" (field value "next_restart_at" .null)
  let results ← readObject "maintenance_results" (field value "maintenance_results" (.object []))
  let maintenanceResults ← readDict (readObject "maintenance_results") results
  let lastRuns ← readObject "schedule_last_run" (field value "schedule_last_run" (.object []))
  let scheduleLastRun ← readDict (readText "schedule_last_run") lastRuns
  let runtime ← readObject "runtime" (field value "runtime" (.object []))
  return {
    serviceId := serviceId
    instanceId := instanceId
    state := state
    holds := holds
    sessions := ∅
    adminIntent := (field value "admin_intent" (.bool false)).truthy
    idleDeadline := idleDeadline
    lastStartAt := lastStartAt
    lastStopAt := lastStopAt
    lastFailure := lastFailure
    restartTimes := restartTimes
    nextRestartAt := nextRestartAt
    restartExhausted := (field value "restart_exhausted" (.bool false)).truthy
    maintenanceResults := maintenanceResults
    scheduleLastRun := scheduleLastRun
    runtime := runtime }

end RawInstance

/-! ## The store -/

/-- The texts of the state files of a `StateStore`, by service. -/
abbrev StateFiles : Type := Dict Text Text

namespace StateFiles

/-- `save`: the text of the document replaces the file. -/
def save (F : FloatFormat) (files : StateFiles) (inst : RawInstance) :
    Except Archive.Exn StateFiles := do
  let text ← dump F (.object (inst.toDict true))
  return files.set inst.serviceId text

/-- `load`. -/
def load (F : FloatFormat) (files : StateFiles) (serviceId : Text) :
    Except RawInstance.Unreadable (Option RawInstance) :=
  match files.get? serviceId with
  | none => .ok none
  | some text =>
      match loads F.parse text with
      | .ok (.object fields) => (RawInstance.fromDict fields).map some
      | .ok _ => .error .notAnObject
      | .error _ => .error .notJson

end StateFiles

namespace RawInstance

/-! ## What is read back -/

/-- What a reader gets back: no sessions, the persistent holds, sorted mappings. -/
def restored (inst : RawInstance) : RawInstance :=
  { inst with
    holds := (inst.holds.filterKeys isPersistentKey).sortKeys
    sessions := ∅
    maintenanceResults := (inst.maintenanceResults.mapValues fun _ result => result.sorted).sortKeys
    scheduleLastRun := inst.scheduleLastRun.sortKeys
    runtime := inst.runtime.sorted }

/-- What was written for each member is read back. -/
theorem mapM_map {α β : Type} {f : α → Except Unreadable β} {g : β → α}
    (h : ∀ b, f (g b) = .ok b) (bs : List β) : (bs.map g).mapM f = .ok bs := by
  rw [List.mapM_map]
  exact (Except.mapM_eq_ok (f := id) fun b _ => h b).trans (congrArg Except.ok (List.map_id bs))

/-- A dictionary is read from the sorted fields that were written for it. -/
theorem readDict_sorted {β : Type} (read : Value → Except Unreadable β) (write : β → Value)
    (normal : β → β) (hread : ∀ b, read (write b) = .ok b)
    (hwrite : ∀ b, (write b).sortKeys = write (normal b)) (d : Dict Text β) :
    readDict read (Fields.sorted (d.entries.map fun entry => (entry.1, write entry.2))) =
      .ok (d.mapValues fun _ b => normal b).sortKeys := by
  have hentries := mapM_map (f := fun field : Text × Value => do
      return (field.1, ← read field.2)) (g := fun entry : Text × β => (entry.1, write entry.2))
    (fun entry => by simp only [hread]; rfl) (d.mapValues fun _ b => normal b).sortKeys.entries
  rw [Fields.sorted_map hwrite]
  unfold readDict
  rw [show ((d.entries.map fun entry => (entry.1, normal entry.2)).insertionSort
    fun e e' => e.1 ≤ e'.1) = (d.mapValues fun _ b => normal b).sortKeys.entries from rfl, hentries]
  exact congrArg Except.ok (Dict.ofList_entries _)

/-- The same where sorting does nothing to the values. -/
theorem readDict_sorted_scalar {β : Type} (read : Value → Except Unreadable β)
    (write : β → Value) (hread : ∀ b, read (write b) = .ok b)
    (hwrite : ∀ b, (write b).sortKeys = write b) (d : Dict Text β) :
    readDict read (Fields.sorted (d.entries.map fun entry => (entry.1, write entry.2))) =
      .ok d.sortKeys := by
  rw [readDict_sorted read write (fun b => b) hread hwrite, Dict.mapValues_id]

/-- A field of the written document, as it is read. -/
theorem field_sorted {fields : Fields} (key : String) {value default : Value}
    (h : fields.get? key = some value) : field fields.sorted key default = value.sortKeys := by
  rw [field, Fields.sorted, Value.get?_sorted, h]
  rfl

theorem required_sorted {fields : Fields} (key : String) {value : Value}
    (h : fields.get? key = some value) : required fields.sorted key = .ok value.sortKeys := by
  rw [required, Fields.sorted, Value.get?_sorted, h]
  rfl

theorem readOptionalText_ofText (key : String) (text : Option Text) :
    readOptionalText key (ofText text).sortKeys = .ok text := by
  cases text <;> rfl

/-- The persistent holds are all that is written, so the reader's filter keeps all it sees. -/
theorem filter_sorted_holds (holds : Dict Text ℤ) :
    ((Fields.sorted ((holds.filterKeys isPersistentKey).entries.map fun hold =>
      (hold.1, .number (.int hold.2)))).filter fun hold => isPersistentKey hold.1) =
      Fields.sorted ((holds.filterKeys isPersistentKey).entries.map fun hold =>
        (hold.1, .number (.int hold.2))) := by
  refine List.filter_eq_self.mpr fun hold hhold => ?_
  have hkey := (Fields.perm_keys_sorted _).mem_iff.mp (List.mem_map_of_mem (f := Prod.fst) hhold)
  rw [List.map_map] at hkey
  obtain ⟨entry, hentry, heq⟩ := List.mem_map.mp hkey
  have hkeep : isPersistentKey entry.1 = true := (List.mem_filter.mp hentry).2
  exact heq ▸ hkeep

theorem readTexts_map (key : String) (texts : List Text) :
    readTexts key (Value.array (texts.map .text)).sortKeys = .ok texts := by
  have hsorted : Value.sortItems (texts.map .text) = texts.map .text := by
    rw [Value.sortItems_eq_map, List.map_map]
    rfl
  rw [Value.sortKeys, hsorted]
  exact mapM_map (g := Value.text) (fun _ => rfl) texts

/-- **Reading what was written.** -/
theorem fromDict_toDict (inst : RawInstance) :
    fromDict (Fields.sorted (inst.toDict true)) = .ok inst.restored := by
  have hstate : readState (Value.str inst.state.value).sortKeys = .ok inst.state := by
    simp only [Value.str, Value.sortKeys, readState, LifecycleState.ofValue_value]
  have hresults := readDict_sorted (readObject "maintenance_results") Value.object
    Fields.sorted (fun _ => rfl) (fun _ => rfl)
    inst.maintenanceResults
  have hholds := readDict_sorted_scalar readCount (.number <| .int ·) (fun _ => rfl)
    (fun _ => rfl) (inst.holds.filterKeys isPersistentKey)
  have hlastRuns := readDict_sorted_scalar (readText "schedule_last_run")
    Value.text (fun _ => rfl) (fun _ => rfl) inst.scheduleLastRun
  rw [fromDict, required_sorted "service_id" rfl,
    required_sorted "instance_id" rfl, field_sorted "state" rfl,
    field_sorted "holds" rfl, field_sorted "idle_deadline" rfl,
    field_sorted "last_start_at" rfl, field_sorted "last_stop_at" rfl,
    field_sorted "last_failure" rfl, field_sorted "restart_times" rfl,
    field_sorted "next_restart_at" rfl,
    field_sorted "maintenance_results" rfl,
    field_sorted "schedule_last_run" rfl, field_sorted "runtime" rfl,
    field_sorted "admin_intent" rfl, field_sorted "restart_exhausted" rfl]
  have hobject : ∀ key fields,
      readObject key (Value.object fields).sortKeys = .ok (Fields.sorted fields) :=
    fun _ _ => rfl
  have htext : ∀ key text, readText key (Value.text text).sortKeys = .ok text := fun _ _ => rfl
  have hflag : ∀ flag, (Value.bool flag).sortKeys.truthy = flag := fun _ => rfl
  simp only [if_true, ofDict, hobject, htext, hflag, hstate, readOptionalText_ofText,
    readTexts_map, filter_sorted_holds, hholds, hresults, hlastRuns, bind, Except.bind]
  rfl

/-- What has been read back once is read back unchanged. -/
theorem restored_restored (inst : RawInstance) : inst.restored.restored = inst.restored := by
  simp only [restored, Dict.filterKeys_sortKeys, Dict.sortKeys_sortKeys, ← Dict.sortKeys_mapValues,
    Dict.mapValues_mapValues, Fields.sorted_sorted]

/-- Equality of instances as `==` has it: mappings do not have an order. -/
structure Same (inst inst' : RawInstance) : Prop where
  serviceId : inst.serviceId = inst'.serviceId
  instanceId : inst.instanceId = inst'.instanceId
  state : inst.state = inst'.state
  holds : ∀ k, inst.holds.get? k = inst'.holds.get? k
  sessions : ∀ k, inst.sessions.get? k = inst'.sessions.get? k
  adminIntent : inst.adminIntent = inst'.adminIntent
  idleDeadline : inst.idleDeadline = inst'.idleDeadline
  lastStartAt : inst.lastStartAt = inst'.lastStartAt
  lastStopAt : inst.lastStopAt = inst'.lastStopAt
  lastFailure : inst.lastFailure = inst'.lastFailure
  restartTimes : inst.restartTimes = inst'.restartTimes
  nextRestartAt : inst.nextRestartAt = inst'.nextRestartAt
  restartExhausted : inst.restartExhausted = inst'.restartExhausted
  maintenanceResults : ∀ k, Option.Rel Value.SameFields (inst.maintenanceResults.get? k)
    (inst'.maintenanceResults.get? k)
  scheduleLastRun : ∀ k, inst.scheduleLastRun.get? k = inst'.scheduleLastRun.get? k
  runtime : Value.SameFields inst.runtime inst'.runtime

/-- What of an instance outlives the process. -/
def persistent (inst : RawInstance) : RawInstance :=
  { inst with holds := inst.holds.filterKeys isPersistentKey, sessions := ∅ }

theorem same_restored (inst : RawInstance) : inst.persistent.Same inst.restored where
  serviceId := rfl
  instanceId := rfl
  state := rfl
  holds k := (Dict.get?_sortKeys _ k).symm
  sessions _ := rfl
  adminIntent := rfl
  idleDeadline := rfl
  lastStartAt := rfl
  lastStopAt := rfl
  lastFailure := rfl
  restartTimes := rfl
  nextRestartAt := rfl
  restartExhausted := rfl
  maintenanceResults k := by
    simp only [restored, persistent, Dict.get?_sortKeys, Dict.get?_mapValues]
    cases inst.maintenanceResults.get? k with
    | none => exact .none
    | some result => exact .some result.sameFields_sorted
  scheduleLastRun k := (Dict.get?_sortKeys _ k).symm
  runtime := inst.runtime.sameFields_sorted

/-! ## Texts that are read back as they were -/

/-- No persisted text has a high surrogate right in front of a low one. -/
structure Legible (inst : RawInstance) : Prop where
  serviceId : Unpaired inst.serviceId
  instanceId : Unpaired inst.instanceId
  idleDeadline : ∀ text ∈ inst.idleDeadline, Unpaired text
  lastStartAt : ∀ text ∈ inst.lastStartAt, Unpaired text
  lastStopAt : ∀ text ∈ inst.lastStopAt, Unpaired text
  lastFailure : ∀ text ∈ inst.lastFailure, Unpaired text
  restartTimes : ∀ text ∈ inst.restartTimes, Unpaired text
  nextRestartAt : ∀ text ∈ inst.nextRestartAt, Unpaired text
  maintenanceResults : ∀ k result, inst.maintenanceResults.get? k = some result →
    Unpaired k ∧ UnpairedValue (.object result)
  scheduleLastRun : ∀ k last, inst.scheduleLastRun.get? k = some last → Unpaired k ∧ Unpaired last
  runtime : UnpairedValue (.object inst.runtime)

/-- The id can stand in the name of a file. -/
def NamesFile (serviceId : Text) : Prop :=
  serviceId.Encodable ∧ CodePoint.ofChar '/' ∉ serviceId ∧ Archive.JsonText.codePoint 0 ∉ serviceId

/-- What an instance of a service can hold: an id that names a file, and mappings that have no
key twice and no number that JSON does not have. -/
structure Representable (F : FloatFormat) (inst : RawInstance) : Prop where
  serviceId : NamesFile inst.serviceId
  maintenanceResults : ∀ k result, inst.maintenanceResults.get? k = some result →
    Archive.JsonText.Representable F (.object result)
  runtime : Archive.JsonText.Representable F (.object inst.runtime)

section OfDict

variable {β : Type} {write : β → Value} {d : Dict Text β} {leaf : Value → Prop}
  {keys : List Text → Prop}

/-- What holds of the keys and of every value holds everywhere in the object. -/
theorem everywhere_ofDict (hkeys : keys (d.entries.map Prod.fst))
    (h : ∀ k b, d.get? k = some b → Value.Everywhere leaf keys (write b)) :
    Value.Everywhere leaf keys (ofDict write d) := by
  refine ⟨?_, Value.everywhereFields_iff.mpr fun field hfield => ?_⟩
  · rw [List.map_map]
    exact hkeys
  · obtain ⟨entry, hentry, rfl⟩ := List.mem_map.mp hfield
    exact h _ _ (Dict.get?_of_mem_entries hentry)

theorem everywhere_of_ofDict (h : Value.Everywhere leaf keys (ofDict write d)) {k : Text} {b : β}
    (hb : d.get? k = some b) : Value.Everywhere leaf keys (write b) :=
  Value.everywhereFields_iff.mp h.2 (k, write b)
    (List.mem_map_of_mem (f := fun entry => (entry.1, write entry.2)) (Dict.mem_entries_of_get? hb))

end OfDict

theorem unpairedValue_ofText {text : Option Text} (h : ∀ t ∈ text, Unpaired t) :
    UnpairedValue (ofText text) := by
  cases text with
  | none => trivial
  | some text => exact h text rfl

theorem unpairedValue_ofDict {β : Type} {write : β → Value} {d : Dict Text β}
    (h : ∀ k b, d.get? k = some b → Unpaired k ∧ UnpairedValue (write b)) :
    UnpairedValue (ofDict write d) := by
  refine everywhere_ofDict (fun key hkey => ?_) fun k b hb => (h k b hb).2
  obtain ⟨entry, hentry, rfl⟩ := List.mem_map.mp hkey
  exact (h _ _ (Dict.get?_of_mem_entries hentry)).1

/-- The document that is written has no pairs. -/
theorem Legible.unpairedValue {inst : RawInstance} (h : inst.Legible) :
    UnpairedValue (.object (inst.toDict true)) := by
  have hkeys : ∀ key ∈ (inst.toDict true).map Prod.fst, key.Encodable := by
    simp only [toDict, List.map_cons, List.map_nil]
    decide
  have hstate : Unpaired (.of inst.state.value) := by
    refine Archive.JsonText.unpaired_of_encodable ?_
    cases inst.state <;> decide
  have hholds : UnpairedValue (ofDict (.number <| .int ·) (inst.holds.filterKeys isPersistentKey)) := by
    refine unpairedValue_ofDict fun k count hcount => ⟨?_, trivial⟩
    rw [Dict.get?_filterKeys] at hcount
    split at hcount
    · rename_i hkey
      have hencodable : ∀ key ∈ [Text.of "admin", .of "always_on"], key.Encodable := by decide
      exact Archive.JsonText.unpaired_of_encodable (hencodable k (of_decide_eq_true hkey))
    · cases hcount
  have htimes : UnpairedValue (.array (inst.restartTimes.map .text)) := by
    refine Value.everywhereItems_iff.mpr fun item hitem => ?_
    obtain ⟨text, htext, rfl⟩ := List.mem_map.mp hitem
    exact h.restartTimes text htext
  refine ⟨fun key hkey => Archive.JsonText.unpaired_of_encodable (hkeys key hkey), ?_⟩
  exact ⟨h.serviceId, h.instanceId, hstate, hholds, unpairedValue_ofDict fun k b hb => (by cases hb),
    trivial, trivial, unpairedValue_ofText h.idleDeadline, unpairedValue_ofText h.lastStartAt,
    unpairedValue_ofText h.lastStopAt, unpairedValue_ofText h.lastFailure, htimes,
    unpairedValue_ofText h.nextRestartAt, trivial, unpairedValue_ofDict h.maintenanceResults,
    unpairedValue_ofDict h.scheduleLastRun, h.runtime, trivial⟩

theorem Representable.document {F : FloatFormat} {inst : RawInstance} (h : inst.Representable F) :
    Archive.JsonText.Representable F (.object (inst.toDict true)) := by
  have htext : ∀ text, Archive.JsonText.Representable F (ofText text) := by
    intro text
    cases text <;> trivial
  have hkeys : ((inst.toDict true).map Prod.fst).Nodup := by
    simp only [toDict, List.map_cons, List.map_nil]
    decide
  have htimes : Archive.JsonText.Representable F (.array (inst.restartTimes.map .text)) := by
    refine Value.everywhereItems_iff.mpr fun item hitem => ?_
    obtain ⟨text, -, rfl⟩ := List.mem_map.mp hitem
    trivial
  have hscalars : ∀ {β : Type} (write : β → Value) (d : Dict Text β),
      (∀ b, Archive.JsonText.Representable F (write b)) →
      Archive.JsonText.Representable F (ofDict write d) := fun _ d hwrite =>
    everywhere_ofDict d.nodup fun _ _ _ => hwrite _
  exact ⟨hkeys, trivial, trivial, trivial, hscalars _ _ fun _ => trivial,
    hscalars _ _ fun _ => trivial, trivial, trivial, htext _, htext _, htext _, htext _,
    htimes, htext _, trivial, everywhere_ofDict (Dict.nodup _) h.maintenanceResults,
    hscalars _ _ fun _ => trivial, h.runtime, trivial⟩

/-! ## What comes out of a document without pairs -/

section FromDict

variable {fields : Fields} {key : String} {value default : Value}

theorem unpairedValue_field (h : UnpairedValue (.object fields)) (hdefault : UnpairedValue default) :
    UnpairedValue (field fields key default) := by
  unfold field
  cases hget : fields.get? key with
  | none => exact hdefault
  | some value => exact Value.Everywhere.get? h hget

theorem unpairedValue_required (h : UnpairedValue (.object fields))
    (hvalue : required fields key = .ok value) : UnpairedValue value := by
  unfold required at hvalue
  split at hvalue
  · rename_i found hget
    obtain rfl := Except.ok.inj hvalue
    exact Value.Everywhere.get? h hget
  · cases hvalue

theorem unpaired_readText {text : Text} (h : UnpairedValue value)
    (hread : readText key value = .ok text) : Unpaired text := by
  cases value with
  | text found =>
      obtain rfl := Except.ok.inj hread
      exact h
  | _ => cases hread

theorem unpaired_readOptionalText {text : Option Text} (h : UnpairedValue value)
    (hread : readOptionalText key value = .ok text) : ∀ t ∈ text, Unpaired t := by
  cases value with
  | null =>
      obtain rfl := Except.ok.inj hread
      exact fun t ht => by cases ht
  | text found =>
      obtain rfl := Except.ok.inj hread
      intro t ht
      obtain rfl := Option.some.inj ht
      exact h
  | _ => cases hread

theorem unpaired_readTexts {texts : List Text} (h : UnpairedValue value)
    (hread : readTexts key value = .ok texts) : ∀ text ∈ texts, Unpaired text := by
  cases value with
  | array items =>
      intro text htext
      obtain ⟨item, hitem, hread⟩ := Except.exists_of_mem_mapM hread htext
      exact unpaired_readText (Value.everywhereItems_iff.mp h item hitem) hread
  | _ => cases hread

theorem unpairedValue_readObject {found : Fields} (h : UnpairedValue value)
    (hread : readObject key value = .ok found) : UnpairedValue (.object found) := by
  cases value with
  | object fields =>
      obtain rfl := Except.ok.inj hread
      exact h
  | _ => cases hread

theorem unpaired_readDict {β : Type} {read : Value → Except Unreadable β} {P : β → Prop}
    (hread : ∀ value b, UnpairedValue value → read value = .ok b → P b)
    (h : UnpairedValue (.object fields)) {d : Dict Text β} (hd : readDict read fields = .ok d) :
    ∀ k b, d.get? k = some b → Unpaired k ∧ P b := by
  intro k b hb
  obtain ⟨entries, hentries, hd⟩ := Except.bind_eq_ok.mp hd
  obtain rfl := Except.pure_eq_ok.mp hd
  obtain ⟨field, hfield, hentry⟩ := Except.exists_of_mem_mapM hentries (Dict.mem_of_get?_ofList hb)
  obtain ⟨value, hvalue, hpair⟩ := Except.bind_eq_ok.mp hentry
  obtain ⟨rfl, rfl⟩ := Prod.mk.inj (Except.pure_eq_ok.mp hpair)
  exact ⟨h.1 _ (List.mem_map_of_mem hfield),
    hread _ _ (Value.everywhereFields_iff.mp h.2 field hfield) hvalue⟩

/-- **What is read of a document without pairs** has none. -/
theorem legible_of_fromDict (h : UnpairedValue (.object fields)) {inst : RawInstance}
    (hread : fromDict fields = .ok inst) : inst.Legible := by
  have hobject : ∀ key, UnpairedValue (field fields key (.object [])) := fun key =>
    unpairedValue_field h ⟨fun _ h => (by cases h), trivial⟩
  have htimes : UnpairedValue (field fields "restart_times" (.array [])) :=
    unpairedValue_field h (show UnpairedValue (.array []) from trivial)
  have hnull : ∀ key, UnpairedValue (field fields key .null) := fun key =>
    unpairedValue_field h (show UnpairedValue .null from trivial)
  have hoptional : ∀ {key text}, readOptionalText key (field fields key .null) = .ok text →
      ∀ t ∈ text, Unpaired t := fun hread => unpaired_readOptionalText (hnull _) hread
  unfold fromDict at hread
  obtain ⟨value, hvalue, hread⟩ := Except.bind_eq_ok.mp hread
  obtain ⟨serviceId, hserviceId, hread⟩ := Except.bind_eq_ok.mp hread
  obtain ⟨value', hvalue', hread⟩ := Except.bind_eq_ok.mp hread
  obtain ⟨instanceId, hinstanceId, hread⟩ := Except.bind_eq_ok.mp hread
  obtain ⟨state, -, hread⟩ := Except.bind_eq_ok.mp hread
  obtain ⟨counts, -, hread⟩ := Except.bind_eq_ok.mp hread
  obtain ⟨holds, -, hread⟩ := Except.bind_eq_ok.mp hread
  obtain ⟨idleDeadline, hidleDeadline, hread⟩ := Except.bind_eq_ok.mp hread
  obtain ⟨lastStartAt, hlastStartAt, hread⟩ := Except.bind_eq_ok.mp hread
  obtain ⟨lastStopAt, hlastStopAt, hread⟩ := Except.bind_eq_ok.mp hread
  obtain ⟨lastFailure, hlastFailure, hread⟩ := Except.bind_eq_ok.mp hread
  obtain ⟨restartTimes, hrestartTimes, hread⟩ := Except.bind_eq_ok.mp hread
  obtain ⟨nextRestartAt, hnextRestartAt, hread⟩ := Except.bind_eq_ok.mp hread
  obtain ⟨results, hresults, hread⟩ := Except.bind_eq_ok.mp hread
  obtain ⟨maintenanceResults, hmaintenanceResults, hread⟩ := Except.bind_eq_ok.mp hread
  obtain ⟨lastRuns, hlastRuns, hread⟩ := Except.bind_eq_ok.mp hread
  obtain ⟨scheduleLastRun, hscheduleLastRun, hread⟩ := Except.bind_eq_ok.mp hread
  obtain ⟨runtime, hruntime, hread⟩ := Except.bind_eq_ok.mp hread
  obtain rfl := Except.pure_eq_ok.mp hread
  exact {
    serviceId := unpaired_readText (unpairedValue_required h hvalue) hserviceId
    instanceId := unpaired_readText (unpairedValue_required h hvalue') hinstanceId
    idleDeadline := hoptional hidleDeadline
    lastStartAt := hoptional hlastStartAt
    lastStopAt := hoptional hlastStopAt
    lastFailure := hoptional hlastFailure
    restartTimes := unpaired_readTexts htimes hrestartTimes
    nextRestartAt := hoptional hnextRestartAt
    maintenanceResults := unpaired_readDict (fun _ _ => unpairedValue_readObject)
      (unpairedValue_readObject (hobject _) hresults) hmaintenanceResults
    scheduleLastRun := unpaired_readDict (fun _ _ => unpaired_readText)
      (unpairedValue_readObject (hobject _) hlastRuns) hscheduleLastRun
    runtime := unpairedValue_readObject (hobject _) hruntime }

end FromDict

/-- Instances that are the same have the same texts. -/
theorem Same.legible {inst inst' : RawInstance} (h : inst.Same inst') (h' : inst'.Legible) :
    inst.Legible where
  serviceId := h.serviceId ▸ h'.serviceId
  instanceId := h.instanceId ▸ h'.instanceId
  idleDeadline := h.idleDeadline ▸ h'.idleDeadline
  lastStartAt := h.lastStartAt ▸ h'.lastStartAt
  lastStopAt := h.lastStopAt ▸ h'.lastStopAt
  lastFailure := h.lastFailure ▸ h'.lastFailure
  restartTimes := h.restartTimes ▸ h'.restartTimes
  nextRestartAt := h.nextRestartAt ▸ h'.nextRestartAt
  maintenanceResults k result hresult := by
    have hrel := h.maintenanceResults k
    rw [hresult] at hrel
    cases hrel' : inst'.maintenanceResults.get? k with
    | none =>
        rw [hrel'] at hrel
        cases hrel
    | some result' =>
        rw [hrel'] at hrel
        cases hrel with
        | some hsame =>
            obtain ⟨hkey, hunpaired⟩ := h'.maintenanceResults k result' hrel'
            exact ⟨hkey, unpairedValue_of_same hsame hunpaired⟩
  scheduleLastRun k last hlast := h'.scheduleLastRun k last ((h.scheduleLastRun k) ▸ hlast)
  runtime := unpairedValue_of_same h.runtime h'.runtime

/-! ## What is read back can be written again -/

theorem Representable.restored {F : FloatFormat} {inst : RawInstance} (h : inst.Representable F) :
    inst.restored.Representable F where
  serviceId := h.serviceId
  maintenanceResults k result hresult := by
    simp only [RawInstance.restored, Dict.get?_sortKeys, Dict.get?_mapValues] at hresult
    obtain ⟨result', hresult', rfl⟩ := Option.map_eq_some_iff.mp hresult
    exact (h.maintenanceResults k result' hresult').sortKeys
  runtime := h.runtime.sortKeys

theorem Legible.restored {inst : RawInstance} (h : inst.Legible) : inst.restored.Legible :=
  legible_of_fromDict h.unpairedValue.sortKeys inst.fromDict_toDict

/-- The texts of an instance are those of its document. -/
theorem legible_of_unpairedValue {inst : RawInstance}
    (h : UnpairedValue (.object (inst.toDict true))) : inst.Legible :=
  { inst.same_restored.legible (legible_of_fromDict h.sortKeys inst.fromDict_toDict) with }

/-- What is written has no integers but these. -/
theorem dumpable_toDict_iff {inst : RawInstance} :
    Dumpable (.object (inst.toDict true)) ↔
      Dumpable (.number (.int inst.sessions.size)) ∧
      (∀ k count, (inst.holds.filterKeys isPersistentKey).get? k = some count →
        Dumpable (.number (.int count))) ∧
      (∀ k result, inst.maintenanceResults.get? k = some result → Dumpable (.object result)) ∧
      Dumpable (.object inst.runtime) := by
  constructor
  · intro h
    have hitem : ∀ {key : String} {value : Value},
        Fields.get? (inst.toDict true) key = some value → Dumpable value :=
      fun hget => Value.Everywhere.get? h hget
    have hsize : Dumpable (.number (.int inst.sessions.size)) :=
      @hitem "active_session_count" _ rfl
    have hholds : Dumpable (ofDict (fun count : ℤ => .number (.int count))
        (inst.holds.filterKeys isPersistentKey)) := @hitem "holds" _ rfl
    have hresults : Dumpable (ofDict Value.object inst.maintenanceResults) :=
      @hitem "maintenance_results" _ rfl
    have hruntime : Dumpable (.object inst.runtime) := @hitem "runtime" _ rfl
    exact ⟨hsize, fun _ _ hcount => everywhere_of_ofDict hholds hcount,
      fun _ _ hresult => everywhere_of_ofDict hresults hresult, hruntime⟩
  · rintro ⟨hsize, hholds, hresults, hruntime⟩
    have htext : ∀ text, Dumpable (ofText text) := by
      intro text
      cases text <;> rfl
    have htimes : Dumpable (.array (inst.restartTimes.map .text)) := by
      refine Value.everywhereItems_iff.mpr fun item hitem => ?_
      obtain ⟨text, -, rfl⟩ := List.mem_map.mp hitem
      rfl
    exact ⟨trivial, rfl, rfl, rfl, everywhere_ofDict trivial hholds,
      everywhere_ofDict trivial fun _ _ _ => rfl, hsize, rfl, htext _, htext _, htext _, htext _,
      htimes, htext _, rfl, everywhere_ofDict trivial hresults,
      everywhere_ofDict trivial fun _ _ _ => rfl, hruntime, trivial⟩

/-- What is read back can be written again. -/
theorem dumpable_restored {inst : RawInstance} (h : Dumpable (.object (inst.toDict true))) :
    Dumpable (.object (inst.restored.toDict true)) := by
  have hsort : ∀ {value : Value}, Dumpable value → Dumpable value.sortKeys := fun hvalue =>
    Value.Everywhere.sortKeys (fun _ _ _ _ => trivial) _ hvalue
  obtain ⟨-, hholds, hresults, hruntime⟩ := dumpable_toDict_iff.mp h
  have hnone : Dumpable (.number (.int 0)) := by decide
  refine dumpable_toDict_iff.mpr ⟨hnone, fun k count hcount => ?_, fun k result hresult => ?_,
    hsort hruntime⟩
  · simp only [restored, Dict.filterKeys_sortKeys, Dict.get?_sortKeys] at hcount
    exact hholds k count hcount
  · simp only [restored, Dict.get?_sortKeys, Dict.get?_mapValues] at hresult
    obtain ⟨result', hresult', rfl⟩ := Option.map_eq_some_iff.mp hresult
    exact hsort (hresults k result' hresult')

end RawInstance

namespace StateFiles

variable {F : FloatFormat} {files written : StateFiles} {inst loaded : RawInstance}

/-! ## Saving and loading -/

/-- **What is loaded after a save.** -/
theorem load_save (files : StateFiles) (hinst : inst.Representable F) (hdumpable : Dumpable (.object (inst.toDict true)))
    (hlegible : inst.Legible) : ∃ written, files.save F inst = .ok written ∧
      written.load F inst.serviceId = .ok (some inst.restored) := by
  obtain ⟨text, htext⟩ : ∃ text, dump F (.object (inst.toDict true)) = .ok text :=
    ⟨_, if_pos hdumpable⟩
  have hread := Archive.JsonText.loads_dump hinst.document htext
  rw [Archive.JsonText.joinedValue_eq_self _ hinst.document.sortKeys hlegible.unpairedValue.sortKeys,
    Fields.sortKeys_object] at hread
  refine ⟨files.set inst.serviceId text, by rw [save, htext]; rfl, ?_⟩
  unfold load
  rw [Dict.get?_set_self]
  simp only [hread, RawInstance.fromDict_toDict]
  rfl

theorem save_ok (h : files.save F inst = .ok written) : ∃ text,
    dump F (.object (inst.toDict true)) = .ok text ∧ written = files.set inst.serviceId text := by
  obtain ⟨text, htext, h⟩ := Except.bind_eq_ok.mp h
  exact ⟨text, htext, (Except.pure_eq_ok.mp h).symm⟩

/-- What is too long is not written. -/
theorem dumpable_of_save (h : files.save F inst = .ok written) :
    Dumpable (.object (inst.toDict true)) := by
  obtain ⟨text, htext, -⟩ := save_ok h
  by_contra hnot
  rw [dump, if_neg hnot] at htext
  cases htext

/-- Whatever was saved, no pair of surrogates comes back. -/
theorem legible_of_load (hinst : inst.Representable F) (hsave : files.save F inst = .ok written)
    (hload : written.load F inst.serviceId = .ok (some loaded)) : loaded.Legible := by
  obtain ⟨text, htext, rfl⟩ := save_ok hsave
  have hread := Archive.JsonText.loads_dump hinst.document htext
  unfold load at hload
  rw [Dict.get?_set_self] at hload
  simp only [hread] at hload
  have hunpaired := Archive.JsonText.unpaired_joinedValue (Value.object (inst.toDict true)).sortKeys
  split at hload
  · rename_i fields hfields
    rw [Except.ok.inj hfields] at hunpaired
    cases hfound : RawInstance.fromDict fields with
    | error => rw [hfound] at hload; cases hload
    | ok found =>
        rw [hfound] at hload
        obtain rfl := Option.some.inj (Except.ok.inj hload)
        exact RawInstance.legible_of_fromDict hunpaired hfound
  · cases hload
  · cases hload

/-- Saving and loading gives back what of the instance is persistent, and doing it again changes
nothing. -/
def RoundTrips (F : FloatFormat) (files : StateFiles) (inst : RawInstance) : Prop :=
  ∃ written loaded, files.save F inst = .ok written ∧
    written.load F inst.serviceId = .ok (some loaded) ∧ inst.persistent.Same loaded ∧
    ∃ again, written.save F loaded = .ok again ∧ again.load F inst.serviceId = .ok (some loaded)

theorem legible_of_roundTrips (hinst : inst.Representable F) (h : RoundTrips F files inst) :
    inst.Legible := by
  obtain ⟨written, loaded, hsave, hload, hsame, -⟩ := h
  exact { hsame.legible (legible_of_load hinst hsave hload) with }

/-- **The round trip of a state file**: it fails for the texts in which a high surrogate stands
in front of a low one, and for the integers that cannot be written. -/
theorem load_save_round_trip (F : FloatFormat) (files : StateFiles) (inst : RawInstance)
    (hinst : inst.Representable F) :
    RoundTrips F files inst ↔ inst.Legible ∧ Dumpable (.object (inst.toDict true)) := by
  constructor
  · intro h
    obtain ⟨written, loaded, hsave, -⟩ := id h
    exact ⟨legible_of_roundTrips hinst h, dumpable_of_save hsave⟩
  · rintro ⟨hlegible, hdumpable⟩
    obtain ⟨written, hsave, hload⟩ := load_save files hinst hdumpable hlegible
    obtain ⟨again, hsave', hload'⟩ := load_save written hinst.restored
      (RawInstance.dumpable_restored hdumpable) hlegible.restored
    rw [RawInstance.restored_restored] at hload'
    exact ⟨written, inst.restored, hsave, hload, inst.same_restored, again, hsave', hload'⟩

/-- A format of floats with one of them. -/
def oneFloat : FloatFormat where
  IsFloat q := q = 3 / 2
  repr _ := .of "1.5"
  parse _ := .float (3 / 2)
  literal _ _ := ⟨[], .of "1", .of ".5", [], rfl, .inl rfl, ⟨by decide, by decide, by decide⟩,
    .inr ⟨Text.of "5", rfl, by decide, by decide⟩, .inl rfl, by decide⟩
  parse_repr q hq := by rw [hq]

/-- An instance with something in almost every field. -/
def busy : RawInstance where
  serviceId := .of "demo"
  instanceId := .of "demo:shared"
  state := .running
  holds := Dict.ofList [(.of "caller-1", 2), (.of "always_on", 1), (.of "admin", 1)]
  sessions := Dict.ofList [(.of "caller-1", .of "2026-02-03T04:05:06+00:00")]
  adminIntent := true
  idleDeadline := some (.of "2026-02-03T04:20:06+00:00")
  lastStartAt := some (.of "2026-02-03T04:05:00+00:00")
  lastFailure := some (.of "readiness timed out 📞 \"again\"")
  restartTimes := [.of "2026-02-03T04:04:00+00:00", .of "2026-02-03T04:05:00+00:00"]
  maintenanceResults := Dict.ofList [(.of "reindex",
    [(.of "timestamp", .str "2026-02-03T03:00:00+00:00"), (.of "ok", .bool true)])]
  scheduleLastRun := Dict.ofList [(.of "reindex", .of "2026-02-03T03:00:00+00:00"),
    (.of "backup", .of "2026-02-02T03:00:00+00:00")]
  runtime := [(.of "pid", .number (.int 4242)), (.of "load", .number (.float (3 / 2))),
    (.of "argv", .array [.str "door", .str "-n", .null])]

/-- An instance whose failure has a character in two halves. -/
def halved : RawInstance where
  serviceId := .of "demo"
  instanceId := .of "demo:shared"
  lastFailure := some [codePoint 0xD83D, codePoint 0xDCDE]

theorem representable_busy : busy.Representable oneFloat where
  serviceId := by unfold RawInstance.NamesFile; decide
  maintenanceResults k result hresult := by
    have hall : ∀ entry ∈ busy.maintenanceResults.entries,
        entry.2 = [(.of "timestamp", .str "2026-02-03T03:00:00+00:00"), (.of "ok", .bool true)] := by
      decide
    rw [show result = _ from hall _ (Dict.mem_entries_of_get? hresult)]
    exact ⟨by decide, trivial, trivial, trivial⟩
  runtime := ⟨by decide, trivial, rfl, ⟨trivial, trivial, trivial, trivial⟩, trivial⟩

theorem legible_busy : busy.Legible := RawInstance.legible_of_unpairedValue (by decide +kernel)

theorem roundTrips_busy : RoundTrips oneFloat ∅ busy :=
  (load_save_round_trip oneFloat ∅ busy representable_busy).mpr ⟨legible_busy, by decide +kernel⟩

/-- What comes back of a text in two halves is another text. -/
theorem not_roundTrips_halved : halved.Representable oneFloat ∧ ¬ RoundTrips oneFloat ∅ halved := by
  have hinst : halved.Representable oneFloat := {
    serviceId := by unfold RawInstance.NamesFile; decide
    maintenanceResults := fun k result hresult => by cases hresult
    runtime := ⟨by decide, trivial⟩ }
  refine ⟨hinst, fun h => ?_⟩
  have hunpaired : Unpaired [codePoint 0xD83D, codePoint 0xDCDE] := (legible_of_roundTrips hinst h).lastFailure _ rfl
  exact absurd hunpaired (by decide)

end StateFiles

/-! ## The instances of the development -/

/-- The texts of strings. -/
def textKey : String ↪ Text := ⟨Text.of, fun _ _ => Text.of_inj.mp⟩

/-- `{"timestamp": timestamp, **result}`. -/
def MaintenanceResult.render (result : MaintenanceResult) : Fields :=
  (Dict.ofList ((.of "timestamp", .str result.timestamp.isoformat) :: result.result)).entries

/-- The instance as the source keeps it. -/
def InstanceState.render (inst : InstanceState) : RawInstance where
  serviceId := .of inst.serviceId
  instanceId := .of inst.instanceId
  state := inst.state
  holds := inst.holds.mapKeys textKey
  sessions := (inst.sessions.mapKeys textKey).mapValues fun _ started => .of started.isoformat
  adminIntent := inst.adminIntent
  idleDeadline := inst.idleDeadline.map fun t => .of t.isoformat
  lastStartAt := inst.lastStartAt.map fun t => .of t.isoformat
  lastStopAt := inst.lastStopAt.map fun t => .of t.isoformat
  lastFailure := inst.lastFailure.map Text.of
  restartTimes := inst.restartTimes.map fun t => .of t.isoformat
  nextRestartAt := inst.nextRestartAt.map fun t => .of t.isoformat
  restartExhausted := inst.restartExhausted
  maintenanceResults := (inst.maintenanceResults.mapKeys textKey).mapValues fun _ result => result.render
  scheduleLastRun := (inst.scheduleLastRun.mapKeys textKey).mapValues fun _ last => .of last.isoformat
  runtime := inst.runtime

theorem isPersistentKey_of (key : String) : isPersistentKey (.of key) = isPersistentHold key := by
  simp [isPersistentKey, isPersistentHold]

/-- What a new supervisor starts from. -/
theorem InstanceState.render_fromDict (inst : InstanceState) :
    (fromDict (inst.toDict true)).render = inst.render.persistent := by
  have hholds : (inst.holds.mapKeys textKey).filterKeys isPersistentKey =
      (inst.holds.filterKeys isPersistentHold).mapKeys textKey := by
    rw [Dict.filterKeys_mapKeys]
    exact congrArg (fun keep => (inst.holds.filterKeys keep).mapKeys textKey)
      (funext isPersistentKey_of)
  rw [InstanceState.fromDict_toDict]
  simp only [render, RawInstance.persistent, hholds]
  rfl

theorem MaintenanceResult.unpairedValue_render {result : MaintenanceResult}
    (h : UnpairedValue (.object result.result)) : UnpairedValue (.object result.render) := by
  have hof : ∀ s, Unpaired (.of s) := fun s => Archive.JsonText.unpaired_of_encodable (Text.encodable_of s)
  have hfields : ∀ field ∈ result.render, Unpaired field.1 ∧ UnpairedValue field.2 := by
    intro field hfield
    rcases List.mem_cons.mp (Archive.JsonText.mem_of_mem_ofList hfield) with rfl | hmem
    · exact ⟨hof _, hof _⟩
    · exact ⟨h.1 _ (List.mem_map_of_mem hmem), Value.everywhereFields_iff.mp h.2 field hmem⟩
  refine ⟨fun key hkey => ?_, Value.everywhereFields_iff.mpr fun field hfield => (hfields field hfield).2⟩
  obtain ⟨field, hfield, rfl⟩ := List.mem_map.mp hkey
  exact (hfields field hfield).1

/-- The texts of an instance are strings, those of mappings made elsewhere apart. -/
theorem InstanceState.legible_render {inst : InstanceState}
    (hresults : ∀ k result, inst.maintenanceResults.get? k = some result →
      UnpairedValue (.object result.result))
    (hruntime : UnpairedValue (.object inst.runtime)) : inst.render.Legible := by
  have hof : ∀ s, Unpaired (.of s) := fun s => Archive.JsonText.unpaired_of_encodable (Text.encodable_of s)
  have hoption : ∀ {β : Type} (f : β → String) (value : Option β),
      ∀ text ∈ value.map fun b => Text.of (f b), Unpaired text := by
    intro β f value text htext
    obtain ⟨b, -, rfl⟩ := Option.map_eq_some_iff.mp htext
    exact hof _
  exact {
    serviceId := hof _
    instanceId := hof _
    idleDeadline := hoption _ _
    lastStartAt := hoption _ _
    lastStopAt := hoption _ _
    lastFailure := hoption id _
    restartTimes := fun text htext => by
      obtain ⟨t, -, rfl⟩ := List.mem_map.mp htext
      exact hof _
    nextRestartAt := hoption _ _
    maintenanceResults := fun k result hresult => by
      rw [render, Dict.get?_mapValues] at hresult
      obtain ⟨result', hresult', rfl⟩ := Option.map_eq_some_iff.mp hresult
      obtain ⟨k, rfl, hget⟩ := Dict.exists_of_get?_mapKeys hresult'
      exact ⟨hof k, MaintenanceResult.unpairedValue_render (hresults k result' hget)⟩
    scheduleLastRun := fun k last hlast => by
      rw [render, Dict.get?_mapValues] at hlast
      obtain ⟨last', hlast', rfl⟩ := Option.map_eq_some_iff.mp hlast
      obtain ⟨k, rfl, -⟩ := Dict.exists_of_get?_mapKeys hlast'
      exact ⟨hof k, hof _⟩
    runtime := hruntime }

/-- The state file gives back the instance that a new supervisor starts from. -/
theorem load_save_render {F : FloatFormat} (files : StateFiles) {inst : InstanceState}
    (hinst : inst.render.Representable F)
    (hresults : ∀ k result, inst.maintenanceResults.get? k = some result →
      UnpairedValue (.object result.result))
    (hruntime : UnpairedValue (.object inst.runtime))
    (hdumpable : Dumpable (.object (inst.render.toDict true))) :
    ∃ written loaded, files.save F inst.render = .ok written ∧
      written.load F (.of inst.serviceId) = .ok (some loaded) ∧
      (InstanceState.fromDict (inst.toDict true)).render.Same loaded := by
  obtain ⟨written, hsave, hload⟩ := StateFiles.load_save files hinst hdumpable
    (InstanceState.legible_render hresults hruntime)
  refine ⟨written, inst.render.restored, hsave, hload, ?_⟩
  rw [inst.render_fromDict]
  exact inst.render.same_restored

end UltimateBBSBox.Supervisor

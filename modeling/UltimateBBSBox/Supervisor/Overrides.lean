import UltimateBBSBox.Archive.SortedKeys
import UltimateBBSBox.Catalog.Agreement
import UltimateBBSBox.Library.Act

/-!
# The table of lifecycle overrides and its file

`set_lifecycle_mode` assigns in the table in memory, writes the whole table over
its file, and then asks the registry for what to return; the constructor reads the
file and takes whatever it cannot read for an empty table.  `write_text` truncates
the file before it writes, so what the file holds in between reads as an empty
table as well.

A call is all or nothing (`AllOrNothing`) in two cases.  Either it changes nothing,
or it writes over a file that read as an empty table, in full, and the service has
an integration to take the answer from.
-/

namespace UltimateBBSBox.Supervisor.Overrides

open Act
open Archive (Value)

/-! ## The table and the file -/

/-- `lifecycle_overrides`: a dictionary, or what else a JSON file may hold. -/
inductive Table
  | object (entries : Dict String Value)
  | other (value : Value) (h : ∀ fields, value ≠ .object fields)

/-- `lifecycle_overrides.get(service_id)`, where that is a dictionary. -/
def Table.get? : Table → String → Option Value
  | .object entries, serviceId => entries.get? serviceId
  | .other .., _ => none

/-- The table after `json.dumps` with sorted keys and `json.loads`. -/
def Table.written : Table → Table
  | .object entries => .object (entries.mapValues fun _ value => value.sortKeys).sortKeys
  | table => table

/-- What the override file holds: the constructor tells no more of it apart. -/
inductive Content
  | missing
  /-- Reading raises an `OSError`. -/
  | unreadable
  /-- No JSON text, or none in UTF-8: an empty file and a part of a text are such. -/
  | unparsable
  | document (table : Table)

/-- The table a constructed supervisor starts from. -/
def Content.table : Content → Table
  | .document table => table
  | .missing | .unreadable | .unparsable => .object ∅

/-! ## The call -/

/-- What `set_lifecycle_mode` raises. -/
inductive Exn
  | serviceNotFoundError (message : String)
  | valueError (message : String)
  | typeError (message : String)
  | attributeError (message : String)
  | recursionError (message : String)
  | osError (message : String)
  | registryError (e : RegistryError)

/-- What `set_lifecycle_mode` returns. -/
structure Answer where
  serviceId : String
  mode : String
  recommended : Option Mode

/-- A supervisor's table and the override file, with what the file held before,
the newest first. -/
structure State where
  memory : Table
  file : Content
  past : List Content

/-- The file holds something else from now on. -/
def State.store (content : Content) (s : State) : State :=
  { s with file := content, past := s.file :: s.past }

/-- What the system answers during a call.  A failed write leaves a part of the text,
or all of it: closing the file may fail, or the newline after the closing brace. -/
structure Faults where
  mkdir : Option String
  dumps : Option String
  openFile : Option String
  write : Option (String × Bool)

/-- A call that raises what the system answers. -/
def failing (raised : String → Exn) : Option String → Act State Exn Unit
  | some message => throw (raised message)
  | none => pure ()

/-- What assigning to a key raises on a value that is no dictionary. -/
def assignmentError : Value → String
  | .null => "'NoneType' object does not support item assignment"
  | .bool _ => "'bool' object does not support item assignment"
  | .number (.int _) => "'int' object does not support item assignment"
  | .number _ => "'float' object does not support item assignment"
  | .text _ => "'str' object does not support item assignment"
  | .array _ => "list indices must be integers or slices, not str"
  | .object _ => ""

/-- `self.lifecycle_overrides[service_id] = mode`. -/
def assign (serviceId mode : String) : Act State Exn (Dict String Value) := do
  match (← get).memory with
  | .object entries =>
      modify fun s => { s with memory := .object (entries.set serviceId (.str mode)) }
      return entries.set serviceId (.str mode)
  | .other value _ => throw (.typeError (assignmentError value))

/-- `write_text`: the file is truncated when it is opened, and written after that. -/
def writeText (faults : Faults) (entries : Dict String Value) : Act State Exn Unit := do
  failing .osError faults.openFile
  modify (State.store .unparsable)
  match faults.write with
  | none => modify (State.store (.document (Table.object entries).written))
  | some (message, whole) =>
      whenever (whole = true) <| modify (State.store (.document (Table.object entries).written))
      throw (.osError message)

/-- `registry.resolve(service_id).get("integration", {}).get("recommended_lifecycle")`.
The key `integration` is always there, so the default is never taken. -/
def recommended (registry : Registry) (serviceId : String) : Except Exn (Option Mode) :=
  match registry.resolve serviceId with
  | .error e => .error (.registryError e)
  | .ok declaration =>
      match declaration.integration with
      | none => .error (.attributeError "'NoneType' object has no attribute 'get'")
      | some integration => .ok integration.recommendedLifecycle

/-- `set_lifecycle_mode`. -/
def setLifecycleMode (registry : Registry) (faults : Faults) (serviceId mode : String) :
    Act State Exn Answer :=
  match registry.find? serviceId with
  | none => throw (.serviceNotFoundError s!"unknown service: {serviceId}")
  | some _ =>
      if mode ∉ ["always_on", "on_demand"] then throw (.valueError "invalid lifecycle mode")
      else do
        let entries ← assign serviceId mode
        failing .osError faults.mkdir
        failing .recursionError faults.dumps
        writeText faults entries
        let value ← Act.ofExcept (recommended registry serviceId)
        return ⟨serviceId, mode, value⟩

/-! ## All or nothing -/

/-- Equal as tables: the order of the fields of a value does not count. -/
def Table.Same : Table → Table → Prop
  | .object entries, .object entries' =>
      ∀ key, (entries.get? key).map Value.sortKeys = (entries'.get? key).map Value.sortKeys
  | .other value _, .other value' _ => value = value'
  | _, _ => False

/-- What the file holds at some point between two states. -/
def Between (s s' : State) (content : Content) : Prop :=
  content ∈ s'.file :: s'.past.take (s'.past.length - s.past.length)

/-- A call that raises changes neither table; at any point the file reads as the old
table or as the complete new one; and the override of no other service is lost. -/
structure AllOrNothing (serviceId mode : String) (s : State) (r : Except Exn Answer)
    (s' : State) : Prop where
  unchanged : ∀ e, r = .error e → s'.memory = s.memory ∧ s'.file.table = s.file.table
  complete : ∀ content, Between s s' content → content.table.Same s.file.table ∨
    ∃ entries, s.memory = .object entries ∧
      content.table.Same (.object (entries.set serviceId (.str mode)))
  kept : ∀ content, Between s s' content → ∀ other, other ≠ serviceId → ∀ value,
    s.file.table.get? other = some value →
    (content.table.get? other).map Value.sortKeys = some value.sortKeys
  keptInMemory : ∀ other, other ≠ serviceId → s'.memory.get? other = s.memory.get? other

/-! ## When a call is all or nothing -/

/-- The call is turned down before it assigns. -/
def Refused (registry : Registry) (serviceId mode : String) (s : State) : Prop :=
  registry.find? serviceId = none ∨ mode ∉ ["always_on", "on_demand"] ∨
    ∃ value h, s.memory = .other value h

/-- Something fails before the file is truncated. -/
def Faults.Early (faults : Faults) : Prop :=
  faults.mkdir ≠ none ∨ faults.dumps ≠ none ∨ faults.openFile ≠ none

/-- The service has this override already. -/
def State.Has (s : State) (serviceId mode : String) : Prop :=
  s.memory.get? serviceId = some (.str mode)

/-- The service is declared with an integration. -/
def Integrated (registry : Registry) (serviceId : String) : Prop :=
  ∃ service id, registry.find? serviceId = some service ∧ service.integrationId = some id ∧ id ≠ ""

/-- The call is refused; or it fails before the file is touched and had nothing to assign;
or the file read as an empty table, and the write is complete with an integration to
answer from, or is cut short with nothing to assign. -/
def Harmless (registry : Registry) (faults : Faults) (serviceId mode : String) (s : State) : Prop :=
  Refused registry serviceId mode s ∨
  (faults.Early ∧ s.Has serviceId mode) ∨
  (¬ faults.Early ∧ s.file.table = .object ∅ ∧
    (faults.write = none ∧ Integrated registry serviceId ∨
      (∃ message, faults.write = some (message, false)) ∧ s.Has serviceId mode))

theorem Table.Same.refl (table : Table) : table.Same table := by
  cases table with
  | object entries => exact fun _ => rfl
  | other value h => exact rfl

/-- What is written reads back as the same table. -/
theorem Table.same_written (entries : Dict String Value) :
    (Table.object entries).written.Same (.object entries) := by
  intro key
  rw [Dict.get?_sortKeys, Dict.get?_mapValues, Option.map_map]
  congr 1
  exact funext fun value => value.sortKeys_sortKeys

/-- Only the empty table reads like the empty one. -/
theorem Table.eq_empty_of_same {table : Table} (h : (Table.object ∅).Same table) :
    table = .object ∅ := by
  cases table with
  | other value hvalue => exact h.elim
  | object entries =>
      have hnone : ∀ key, entries.get? key = none := by
        intro key
        have hkey := h key
        rw [Dict.get?_empty, Option.map_none] at hkey
        exact Option.map_eq_none_iff.mp hkey.symm
      have hsize : entries.size = 0 := Dict.size_eq_zero_iff.mpr hnone
      obtain ⟨list, hnodup⟩ := entries
      obtain rfl : list = [] := List.eq_nil_of_length_eq_zero hsize
      rfl

section Call

variable {registry : Registry} {faults : Faults} {serviceId mode : String} {s : State}
  {entries : Dict String Value}

/-- A refused call leaves everything as it was. -/
theorem run_of_refused (h : Refused registry serviceId mode s) :
    ∃ e, (setLifecycleMode registry faults serviceId mode).run s = some (.error e, s) := by
  unfold setLifecycleMode
  cases hfind : registry.find? serviceId with
  | none => exact ⟨_, rfl⟩
  | some service =>
      dsimp only
      split
      · exact ⟨_, rfl⟩
      · rename_i hmode
        obtain hnone | hinvalid | ⟨value, hvalue, hmemory⟩ := h
        · rw [hfind] at hnone
          cases hnone
        · exact absurd hinvalid hmode
        · refine ⟨.typeError (assignmentError value), ?_⟩
          simp only [assign, run_bind, run_get, hmemory, run_throw]

/-- A call that is not refused has the service, the mode and a dictionary to assign in. -/
theorem of_not_refused (h : ¬ Refused registry serviceId mode s) :
    (∃ service, registry.find? serviceId = some service) ∧ mode ∈ ["always_on", "on_demand"] ∧
      ∃ entries, s.memory = .object entries := by
  unfold Refused at h
  push Not at h
  obtain ⟨hfind, hmode, hmemory⟩ := h
  refine ⟨Option.ne_none_iff_exists'.mp hfind, hmode, ?_⟩
  cases hs : s.memory with
  | object entries => exact ⟨entries, rfl⟩
  | other value hvalue => exact absurd hs (hmemory value hvalue)

/-- What a call that is not refused has assigned before it does anything else. -/
def assigned (serviceId mode : String) (entries : Dict String Value) (s : State) : State :=
  { s with memory := .object (entries.set serviceId (.str mode)) }

theorem run_of_not_refused (h : ¬ Refused registry serviceId mode s)
    (hmemory : s.memory = .object entries) :
    (setLifecycleMode registry faults serviceId mode).run s =
      (do failing .osError faults.mkdir
          failing .recursionError faults.dumps
          writeText faults (entries.set serviceId (.str mode))
          let value ← Act.ofExcept (recommended registry serviceId)
          return ⟨serviceId, mode, value⟩ : Act State Exn Answer).run
        (assigned serviceId mode entries s) := by
  obtain ⟨⟨service, hservice⟩, hmode, -⟩ := of_not_refused h
  unfold setLifecycleMode
  rw [hservice]
  dsimp only
  rw [if_neg (not_not_intro hmode), run_bind]
  simp only [assign, run_bind, run_get, hmemory, run_modify, run_pure, assigned]

/-- What is left when the file has been truncated. -/
def truncated (serviceId mode : String) (entries : Dict String Value) (s : State) : State :=
  (assigned serviceId mode entries s).store .unparsable

/-- What is left when the whole table is in the file. -/
def filled (serviceId mode : String) (entries : Dict String Value) (s : State) : State :=
  (truncated serviceId mode entries s).store
    (.document (Table.object (entries.set serviceId (.str mode))).written)

theorem run_of_early (h : ¬ Refused registry serviceId mode s)
    (hmemory : s.memory = .object entries) (hearly : faults.Early) :
    ∃ e, (setLifecycleMode registry faults serviceId mode).run s =
      some (.error e, assigned serviceId mode entries s) := by
  rw [run_of_not_refused h hmemory]
  obtain ⟨mkdir, dumps, openFile, write⟩ := faults
  cases mkdir with
  | some message => exact ⟨.osError message, rfl⟩
  | none =>
      cases dumps with
      | some message => exact ⟨.recursionError message, rfl⟩
      | none =>
          cases openFile with
          | some message => exact ⟨.osError message, rfl⟩
          | none => simp [Faults.Early] at hearly

theorem run_of_written (h : ¬ Refused registry serviceId mode s)
    (hmemory : s.memory = .object entries) (hearly : ¬ faults.Early)
    (hwrite : faults.write = none) :
    (setLifecycleMode registry faults serviceId mode).run s =
      some ((recommended registry serviceId).map fun value => ⟨serviceId, mode, value⟩,
        filled serviceId mode entries s) := by
  rw [run_of_not_refused h hmemory]
  obtain ⟨mkdir, dumps, openFile, write⟩ := faults
  simp only [Faults.Early, ne_eq, not_or, not_not] at hearly hwrite
  obtain ⟨rfl, rfl, rfl⟩ := hearly
  subst hwrite
  cases hvalue : recommended registry serviceId with
  | ok value =>
      simp only [failing, writeText, run_bind, run_pure, run_modify, Act.ofExcept, Except.map]
      rfl
  | error e =>
      simp only [failing, writeText, run_bind, run_pure, run_modify, Act.ofExcept, run_throw,
        Except.map]
      rfl

theorem run_of_cut (h : ¬ Refused registry serviceId mode s)
    (hmemory : s.memory = .object entries) (hearly : ¬ faults.Early) {message : String}
    {whole : Bool} (hwrite : faults.write = some (message, whole)) :
    (setLifecycleMode registry faults serviceId mode).run s =
      some (.error (.osError message), if whole = true then filled serviceId mode entries s
        else truncated serviceId mode entries s) := by
  rw [run_of_not_refused h hmemory]
  obtain ⟨mkdir, dumps, openFile, write⟩ := faults
  simp only [Faults.Early, ne_eq, not_or, not_not] at hearly hwrite
  obtain ⟨rfl, rfl, rfl⟩ := hearly
  subst hwrite
  cases whole <;>
    simp only [failing, writeText, whenever, run_bind, run_pure, run_modify, run_throw] <;> rfl

/-! ### The states a call ends in -/

theorem between_self {content : Content} (memory : Table) :
    Between s { s with memory := memory } content ↔ content = s.file := by
  simp [Between]

theorem between_truncated {content : Content} :
    Between s (truncated serviceId mode entries s) content ↔
      content = .unparsable ∨ content = s.file := by
  simp [Between, truncated, State.store, assigned]

theorem between_filled {content : Content} :
    Between s (filled serviceId mode entries s) content ↔
      content = .document (Table.object (entries.set serviceId (.str mode))).written ∨
        content = .unparsable ∨ content = s.file := by
  have hlength : s.past.length + 1 + 1 - s.past.length = 2 := by omega
  simp [Between, filled, truncated, State.store, assigned, hlength]

/-- The assignment changes the table in memory unless it is there already. -/
theorem set_eq_memory_iff (hmemory : s.memory = .object entries) :
    .object (entries.set serviceId (.str mode)) = s.memory ↔ s.Has serviceId mode := by
  unfold State.Has
  rw [hmemory]
  constructor
  · intro hset
    rw [← hset]
    exact Dict.get?_set_self ..
  · intro hhas
    rw [Dict.set_eq_self_of_get? hhas]

theorem get?_set_memory (hmemory : s.memory = .object entries) {other : String}
    (hother : other ≠ serviceId) :
    (Table.object (entries.set serviceId (.str mode))).get? other = s.memory.get? other := by
  rw [hmemory]
  exact Dict.get?_set_ne _ _ hother

/-- A call that leaves the file alone is all or nothing when it has nothing to assign. -/
theorem allOrNothing_assigned_iff (hmemory : s.memory = .object entries) {e : Exn} :
    AllOrNothing serviceId mode s (.error e) (assigned serviceId mode entries s) ↔
      s.Has serviceId mode := by
  constructor
  · intro h
    exact (set_eq_memory_iff hmemory).mp (h.unchanged e rfl).1
  · intro hhas
    refine ⟨fun _ _ => ⟨(set_eq_memory_iff hmemory).mpr hhas, rfl⟩, ?_, ?_,
      fun other hother => get?_set_memory hmemory hother⟩
    · intro content hcontent
      rw [(between_self _).mp hcontent]
      exact .inl (.refl _)
    · intro content hcontent other _ value hvalue
      rw [(between_self _).mp hcontent, hvalue, Option.map_some]

/-- Once the file is truncated, all or nothing needs that it read as an empty table. -/
theorem AllOrNothing.empty {r : Except Exn Answer} {s' : State}
    (h : AllOrNothing serviceId mode s r s') (hbetween : Between s s' .unparsable) :
    s.file.table = .object ∅ := by
  obtain hold | ⟨entries, -, hnew⟩ := h.complete _ hbetween
  · exact Table.eq_empty_of_same hold
  · -- the new table has an entry at least, and the truncated file none
    have hkey := hnew serviceId
    rw [Dict.get?_set_self] at hkey
    cases hkey

theorem get?_empty_table {content : Content} (h : content.table = .object ∅) (key : String) :
    content.table.get? key = none := by
  rw [h]
  rfl

/-- A call cut short while it writes is all or nothing when there was nothing to lose
and nothing to assign. -/
theorem allOrNothing_truncated_iff (hmemory : s.memory = .object entries) {e : Exn} :
    AllOrNothing serviceId mode s (.error e) (truncated serviceId mode entries s) ↔
      s.file.table = .object ∅ ∧ s.Has serviceId mode := by
  constructor
  · intro h
    exact ⟨h.empty (between_truncated.mpr (.inl rfl)),
      (set_eq_memory_iff hmemory).mp (h.unchanged e rfl).1⟩
  · intro ⟨hempty, hhas⟩
    refine ⟨fun _ _ => ⟨(set_eq_memory_iff hmemory).mpr hhas, hempty.symm⟩, ?_, ?_,
      fun other hother => get?_set_memory hmemory hother⟩
    · intro content hcontent
      left
      obtain rfl | rfl := between_truncated.mp hcontent
      · rw [hempty]
        exact .refl _
      · exact .refl _
    · intro content _ other _ value hvalue
      rw [get?_empty_table hempty] at hvalue
      cases hvalue

/-- A call that has written the whole table is all or nothing when there was nothing to
lose and it returns. -/
theorem allOrNothing_filled_iff (hmemory : s.memory = .object entries) {r : Except Exn Answer} :
    AllOrNothing serviceId mode s r (filled serviceId mode entries s) ↔
      s.file.table = .object ∅ ∧ ∃ answer, r = .ok answer := by
  constructor
  · intro h
    have hempty := h.empty (between_filled.mpr (.inr (.inl rfl)))
    refine ⟨hempty, ?_⟩
    cases r with
    | ok answer => exact ⟨answer, rfl⟩
    | error e =>
        -- the file has the entry that the call assigned, and had none
        have hstored := (h.unchanged e rfl).2.trans hempty
        have hsame := Table.same_written (entries.set serviceId (.str mode))
        have hwritten : (Table.object (entries.set serviceId (.str mode))).written = .object ∅ :=
          hstored
        rw [hwritten] at hsame
        have hkey := hsame serviceId
        rw [Dict.get?_set_self] at hkey
        cases hkey
  · intro ⟨hempty, answer, hanswer⟩
    refine ⟨fun e he => ?_, ?_, ?_, fun other hother => get?_set_memory hmemory hother⟩
    · rw [hanswer] at he
      cases he
    · intro content hcontent
      obtain rfl | rfl | rfl := between_filled.mp hcontent
      · exact .inr ⟨entries, hmemory, Table.same_written _⟩
      · rw [hempty]
        exact .inl (.refl _)
      · exact .inl (.refl _)
    · intro content _ other _ value hvalue
      rw [get?_empty_table hempty] at hvalue
      cases hvalue

end Call

/-- Nothing has happened. -/
theorem allOrNothing_refl {serviceId mode : String} {s : State} {r : Except Exn Answer} :
    AllOrNothing serviceId mode s r s := by
  have hfile : ∀ content, Between s s content → content = s.file :=
    fun content hcontent => (between_self s.memory).mp hcontent
  refine ⟨fun _ _ => ⟨rfl, rfl⟩, ?_, ?_, fun _ _ => rfl⟩
  · intro content hcontent
    rw [hfile content hcontent]
    exact .inl (.refl _)
  · intro content hcontent other _ value hvalue
    rw [hfile content hcontent, hvalue, Option.map_some]

/-! ## The answer of a loaded registry -/

theorem recommended_of_not_integrated {registry : Registry} {service : Service}
    (hreaches : registry.Reaches service) (hservice : registry.service service.id = .ok service)
    (h : ∀ id, service.integrationId = some id → id = "") :
    recommended registry service.id =
      .error (.attributeError "'NoneType' object has no attribute 'get'") := by
  obtain ⟨endpoint, hendpoint⟩ := hreaches.endpoint
  unfold recommended Registry.resolve
  simp only [hservice, hendpoint, bind, Except.bind]
  cases hid : service.integrationId with
  | none => rfl
  | some id =>
      obtain rfl := h id hid
      rfl

theorem recommended_of_integrated {registry : Registry} {service : Service} {id : String}
    (hreaches : registry.Reaches service) (hservice : registry.service service.id = .ok service)
    (hid : service.integrationId = some id) (hne : id ≠ "") :
    ∃ value, recommended registry service.id = .ok value := by
  obtain ⟨endpoint, hendpoint⟩ := hreaches.endpoint
  obtain ⟨integration, hintegration⟩ := hreaches.integration id hid hne
  have hresolve : registry.resolve service.id =
      .ok ⟨service, endpoint.normalized, some integration⟩ := by
    unfold Registry.resolve
    simp only [hservice, hendpoint, hid, hintegration, bind, Except.bind]
    rfl
  refine ⟨integration.recommendedLifecycle, ?_⟩
  rw [recommended, hresolve]

/-- A loaded registry answers for the services that have an integration. -/
theorem recommended_ok_iff {repr : String → String} {str : Catalog.Path → String} {root : String}
    {tree : List Catalog.File} {registry : Registry}
    (hload : Catalog.loadRegistry repr str root tree = .ok registry) {serviceId : String}
    {service : Service} (hfind : registry.find? serviceId = some service) :
    (∃ value, recommended registry serviceId = .ok value) ↔ Integrated registry serviceId := by
  obtain ⟨hmem, rfl⟩ := Registry.mem_services_of_find? hfind
  have hreaches := Catalog.reaches_of_loadRegistry hload hmem
  have hservice : registry.service service.id = .ok service := by rw [Registry.service, hfind]
  constructor
  · intro ⟨value, hvalue⟩
    by_contra hnone
    have hids : ∀ id, service.integrationId = some id → id = "" := by
      intro id hid
      by_contra hne
      exact hnone ⟨service, id, hfind, hid, hne⟩
    rw [recommended_of_not_integrated hreaches hservice hids] at hvalue
    cases hvalue
  · intro ⟨other, id, hother, hid, hne⟩
    obtain rfl : service = other := Option.some.inj (hfind.symm.trans hother)
    exact recommended_of_integrated hreaches hservice hid hne

/-! ## The condition is exact -/

/-- What holds of some outcome of a run holds of its outcome. -/
theorem exists_run_iff {α : Type} {act : Act State Exn α} {s s' : State} {r : Except Exn α}
    (hrun : act.run s = some (r, s')) {P : Except Exn α → State → Prop} :
    (∃ r' s'', act.run s = some (r', s'') ∧ P r' s'') ↔ P r s' := by
  rw [hrun]
  constructor
  · intro ⟨r', s'', heq, h⟩
    cases heq
    exact h
  · exact fun h => ⟨r, s', rfl, h⟩

/-- **When a change of an override is all or nothing.**  A call always comes back; and
with what it comes back is all or nothing exactly when the call was harmless. -/
theorem setLifecycleMode_allOrNothing_iff (repr : String → String) (str : Catalog.Path → String)
    (root : String) (tree : List Catalog.File) (registry : Registry)
    (hload : Catalog.loadRegistry repr str root tree = .ok registry) (faults : Faults)
    (serviceId mode : String) (s : State) :
    (∃ r s', (setLifecycleMode registry faults serviceId mode).run s = some (r, s') ∧
        AllOrNothing serviceId mode s r s') ↔
      Harmless registry faults serviceId mode s := by
  by_cases hrefused : Refused registry serviceId mode s
  · obtain ⟨e, hrun⟩ := @run_of_refused registry faults serviceId mode s hrefused
    exact iff_of_true ⟨_, s, hrun, allOrNothing_refl⟩ (.inl hrefused)
  obtain ⟨⟨service, hservice⟩, -, entries, hmemory⟩ := of_not_refused hrefused
  unfold Harmless
  rw [or_iff_right hrefused]
  by_cases hearly : faults.Early
  · obtain ⟨e, hrun⟩ := run_of_early hrefused hmemory hearly
    rw [exists_run_iff hrun, allOrNothing_assigned_iff hmemory]
    simp only [hearly, true_and, not_true_eq_false, false_and, or_false]
  simp only [hearly, false_and, false_or, not_false_eq_true, true_and]
  cases hwrite : faults.write with
  | none =>
      rw [exists_run_iff (run_of_written hrefused hmemory hearly hwrite),
        allOrNothing_filled_iff hmemory, ← recommended_ok_iff hload hservice]
      refine and_congr_right fun _ => ?_
      cases recommended registry serviceId <;> simp [Except.map]
  | some cut =>
      obtain ⟨message, whole⟩ := cut
      rw [exists_run_iff (run_of_cut hrefused hmemory hearly hwrite)]
      cases whole with
      | true =>
          rw [if_pos rfl, allOrNothing_filled_iff hmemory]
          simp
      | false =>
          rw [if_neg Bool.false_ne_true, allOrNothing_truncated_iff hmemory]
          simp

/-- No call fails. -/
def Faults.none : Faults := ⟨.none, .none, .none, .none⟩

/-- A supervisor whose table and file have one override. -/
def State.holding (serviceId mode : String) : State :=
  let entries := (∅ : Dict String Value).set serviceId (.str mode)
  ⟨.object entries, .document (.object entries), []⟩

/-- A supervisor over a state directory without an override file. -/
def State.fresh : State := ⟨.object ∅, .missing, []⟩

/-- The boards of `twoBoards` and their integrations. -/
theorem exists_twoBoards :
    ∃ registry, Catalog.loadRegistry id "/".intercalate "" Catalog.twoBoards = .ok registry ∧
      (registry.find? "door").map Service.integrationId = some (some "fs-uae") ∧
      (registry.find? "menu").map Service.integrationId = some none := by
  have hboards : (Catalog.loadRegistry id "/".intercalate "" Catalog.twoBoards).toOption.map
      (fun registry => ((registry.find? "door").map Service.integrationId,
        (registry.find? "menu").map Service.integrationId)) =
      some (some (some "fs-uae"), some none) := by decide +kernel
  obtain ⟨registry, hsome, hboards⟩ := Option.map_eq_some_iff.mp hboards
  exact ⟨registry, Except.toOption_eq_some.mp hsome, Prod.mk.inj hboards⟩

/-- The first override of a board that has an integration. -/
theorem setLifecycleMode_fresh :
    ∃ registry, Catalog.loadRegistry id "/".intercalate "" Catalog.twoBoards = .ok registry ∧
      ∃ r s', (setLifecycleMode registry .none "door" "always_on").run .fresh = some (r, s') ∧
        AllOrNothing "door" "always_on" .fresh r s' := by
  obtain ⟨registry, hload, hdoor, -⟩ := exists_twoBoards
  obtain ⟨service, hservice, hid⟩ := Option.map_eq_some_iff.mp hdoor
  have hharmless : Harmless registry .none "door" "always_on" .fresh :=
    .inr (.inr ⟨by simp [Faults.Early, Faults.none], rfl, .inl ⟨rfl, service, "fs-uae", hservice, hid,
      by decide⟩⟩)
  exact ⟨registry, hload, (setLifecycleMode_allOrNothing_iff id "/".intercalate "" Catalog.twoBoards
    registry hload .none "door" "always_on" .fresh).mpr hharmless⟩

/-- The board of `twoBoards` without an integration: the call raises with both tables
changed, and while it wrote the file had lost the override of the door. -/
theorem setLifecycleMode_raises_changed :
    ∃ registry, Catalog.loadRegistry id "/".intercalate "" Catalog.twoBoards = .ok registry ∧
      ∃ e s', (setLifecycleMode registry .none "menu" "always_on").run
          (.holding "door" "on_demand") = some (.error e, s') ∧
        s'.memory ≠ (State.holding "door" "on_demand").memory ∧
        s'.file.table ≠ (State.holding "door" "on_demand").file.table ∧
        ∃ content, Between (.holding "door" "on_demand") s' content ∧
          content.table.get? "door" = none := by
  obtain ⟨registry, hload, -, hmenu⟩ := exists_twoBoards
  obtain ⟨service, hservice, hid⟩ := Option.map_eq_some_iff.mp hmenu
  have hanswer : ∃ e, recommended registry "menu" = .error e := by
    cases hvalue : recommended registry "menu" with
    | error e => exact ⟨e, rfl⟩
    | ok value =>
        obtain ⟨other, id, hother, hsome, -⟩ := (recommended_ok_iff hload hservice).mp ⟨value, hvalue⟩
        obtain rfl := Option.some.inj (hservice.symm.trans hother)
        rw [hid] at hsome
        cases hsome
  obtain ⟨e, he⟩ := hanswer
  have hrefused : ¬ Refused registry "menu" "always_on" (.holding "door" "on_demand") := by
    simp [Refused, hservice, State.holding]
  have hrun := @run_of_written registry .none "menu" "always_on" _ _ hrefused rfl
    (by simp [Faults.Early, Faults.none]) rfl
  rw [he] at hrun
  refine ⟨registry, hload, e, _, hrun, ?_, ?_, .unparsable, ?_, rfl⟩
  · intro hmemory
    have hhas := (set_eq_memory_iff rfl).mp hmemory
    cases hhas
  · intro htable
    have hmenu := congrArg (fun table => table.get? "menu") htable
    cases hmenu
  · exact between_filled.mpr (.inr (.inl rfl))

end UltimateBBSBox.Supervisor.Overrides

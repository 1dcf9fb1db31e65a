import UltimateBBSBox.Library.WriteAhead
import UltimateBBSBox.Supervisor.Crashes

/-!
# Journal and state file

`_transition` appends to the journal and then replaces the state file, so the
supervisor writes ahead: the events of a process form a chain through the
lifecycle graph, and wherever the process dies, the state file has the state
that it announced last or the one before.

The state before its first event is the one it was constructed with.  A process
that dies between the two writes of its first event leaves a journal whose last
two events are no longer about the stored state.
-/

namespace UltimateBBSBox.Supervisor

open Act

variable {σ : Type} {C : Context σ}

/-! ## What the log says about journal and state file -/

/-- The events of a log, newest first. -/
def journal (log : List Effect) : List Event := log.filterMap fun
  | .journal event => some event
  | _ => none

/-- The edges of the events. -/
def edges (log : List Effect) : List (LifecycleState × LifecycleState) :=
  (journal log).map fun event => (event.oldState, event.newState)

/-- The durable writes of a log, as far as they are about the state. -/
def stateWrites (log : List Effect) : List (Write LifecycleState) := log.filterMap fun
  | .journal event => some (.move event.oldState event.newState)
  | .save document => some (.store document.state)
  | _ => none

theorem moves_stateWrites (log : List Effect) :
    WriteAhead.moves (stateWrites log) = edges log := by
  induction log with
  | nil => rfl
  | cons effect rest ih =>
      cases effect with
      | journal event => exact congrArg ((event.oldState, event.newState) :: ·) ih
      | _ => exact ih

/-- Over an older log, the stored state is the newest one, or the one before. -/
theorem stored_stateWrites (newer older : List Effect) :
    WriteAhead.stored (persistedState older) (stateWrites newer) =
      persistedState (newer ++ older) := by
  induction newer with
  | nil => rfl
  | cons effect rest ih =>
      cases effect with
      | save document => rfl
      | _ => exact ih

/-- A supervisor starts from the stored state. -/
@[simp] theorem World.constructed_state (override : Option Mode) (env : σ) (log : List Effect) :
    (World.constructed C override env log).cell.inst.state = persistedState log := by
  rw [World.constructed, Cell.reloaded, Cell.stateFile_eq, persistedState]
  cases newestSave log <;> rfl

/-- What only asks the outside is no durable write. -/
theorem stateWrites_of_shows {effect : Effect} {inst : InstanceState} (h : effect.Shows inst) :
    stateWrites [effect] = [] := by
  cases effect with
  | journal | save | attempt => exact False.elim h
  | _ => rfl

/-! ## Writing ahead -/

/-- The writes of a process since its construction are those of one that writes
ahead, and its instance is in the state it announced last. -/
def WritesAhead (log : List Effect) (c : Cell σ) : Prop :=
  ∃ newer, c.log = newer ++ log ∧
    WriteAhead.Writes (fun old new => new ∈ transitions old) (persistedState log)
      (stateWrites newer) c.inst.state

namespace WritesAhead

variable {log : List Effect} {c c' : Cell σ}

/-- An effect that is no durable write. -/
theorem cons_effect (h : WritesAhead log c) (effect : Effect) (hlog : c'.log = effect :: c.log)
    (hquiet : stateWrites [effect] = []) (hstate : c'.inst.state = c.inst.state) :
    WritesAhead log c' := by
  obtain ⟨newer, hnewer, hwrites⟩ := h
  refine ⟨effect :: newer, by rw [hlog, hnewer, List.cons_append], ?_⟩
  have hsame : stateWrites (effect :: newer) = stateWrites newer := by
    rw [← List.singleton_append, stateWrites, List.filterMap_append]
    exact congrArg (· ++ stateWrites newer) hquiet
  rwa [hsame, hstate]

/-- A change of the instance in memory that leaves the state. -/
theorem of_eq (h : WritesAhead log c) (hlog : c'.log = c.log)
    (hstate : c'.inst.state = c.inst.state) : WritesAhead log c' := by
  obtain ⟨newer, hnewer, hwrites⟩ := h
  exact ⟨newer, hlog.trans hnewer, hstate ▸ hwrites⟩

theorem afterClock (h : WritesAhead log c) (C : Context σ) : WritesAhead log (c.afterClock C) :=
  h.cons_effect (.clock (C.environment.now c.env).1) rfl rfl rfl

theorem saved (h : WritesAhead log c) : WritesAhead log c.saved := by
  obtain ⟨newer, hnewer, hwrites⟩ := h
  exact ⟨.save (c.inst.toDict true) :: newer, congrArg (_ :: ·) hnewer, hwrites.store⟩

theorem moved (h : WritesAhead log c) {newState : LifecycleState} {reason : String}
    {error : Option String} (hvalid : newState ∈ transitions c.inst.state) :
    WritesAhead log (c.moved C newState reason error) := by
  obtain ⟨newer, hnewer, hwrites⟩ := h
  exact ⟨_ :: _ :: _ :: newer, congrArg (fun older => _ :: _ :: _ :: older) hnewer,
    hwrites.move hvalid⟩

/-- Every deed writes ahead. -/
theorem deed {d : Deed} (hdeed : Deeds C d c c') (h : WritesAhead log c) : WritesAhead log c' := by
  cases hdeed with
  | ask effect env hshows => exact h.cons_effect effect rfl (stateWrites_of_shows hshows) rfl
  | call effect reply hshows => exact h.cons_effect _ rfl (stateWrites_of_shows hshows) rfl
  | save => exact h.saved
  | update inst hsame => exact h.of_eq rfl hsame.state
  | addHold | stopped => exact saved (h.of_eq rfl rfl)
  | schedule => exact saved ((h.afterClock C).of_eq rfl rfl)
  | move newState reason error hvalid => exact h.moved hvalid
  | attempt now => exact h.cons_effect (.attempt now) rfl rfl rfl
  | _ => exact h.of_eq rfl rfl

theorem step {w w' : World σ} {l : Label σ} {r : Except Exn Unit}
    (hstep : w.step C l = some (r, w')) (hreload : l.op ≠ .reload)
    (h : WritesAhead log w.cell) : WritesAhead log w'.cell :=
  (World.step_doings hstep hreload).closed (fun _ _ _ _ hdeed h => h.deed hdeed)
    (h.of_eq rfl rfl)

/-- A process writes ahead as long as it lives. -/
theorem run {override : Option Mode} {env : σ} {w : World σ}
    (hrun : Machine.Run (World.step C) (fun _ l => l.op ≠ .reload)
      (World.constructed C override env log) w) : WritesAhead log w.cell := by
  refine hrun.invariant (P := fun w => WritesAhead log w.cell) ⟨[], rfl, ?_⟩
    fun _ _ _ _ h hreload hstep => h.step hstep hreload
  rw [World.constructed_state]
  exact .nil

/-- What a process leaves behind when it is cut off. -/
theorem agrees_of_suffix (h : WritesAhead log c) {newer : List Effect}
    (hcut : newer ++ log <:+ c.log) :
    WriteAhead.Agrees (fun old new => new ∈ transitions old) (persistedState log)
      (stateWrites newer) := by
  obtain ⟨all, hall, hwrites⟩ := h
  obtain ⟨lost, hlost⟩ := hcut
  rw [hall, ← List.append_assoc, List.append_cancel_right_eq] at hlost
  refine hwrites.agrees_of_suffix ⟨stateWrites lost, ?_⟩
  rw [← hlost, stateWrites, stateWrites, stateWrites, List.filterMap_append]

end WritesAhead

/-! ## Every crash point -/

/-- A process is cut off at any point of its last section: the events it wrote
form a chain from the state it was constructed with, along edges of the
lifecycle graph, and the state file has the last of these states or the last
but one. -/
theorem journal_agrees_with_state_file {override : Option Mode} {env : σ} {log newer : List Effect}
    {w w' : World σ} {l : Label σ} {r : Except Exn Unit}
    (hrun : Machine.Run (World.step C) (fun _ l => l.op ≠ .reload)
      (World.constructed C override env log) w)
    (hstep : w.step C l = some (r, w')) (hcut : newer ++ log <:+ w'.cell.log) :
    let loaded := (World.constructed C override env log).cell.inst.state
    WriteAhead.Chained loaded (edges newer) ∧
      (∀ event ∈ journal newer, event.newState ∈ transitions event.oldState) ∧
      persistedState (newer ++ log) ∈ (WriteAhead.announced loaded (edges newer)).take 2 := by
  have hagrees : WriteAhead.Agrees (fun old new => new ∈ transitions old) (persistedState log)
      (stateWrites newer) := by
    by_cases hreload : l.op = .reload
    · -- a new construction writes nothing
      rw [(World.step_reload hstep hreload).1] at hcut
      exact (WritesAhead.run hrun).agrees_of_suffix hcut
    · exact ((WritesAhead.run hrun).step hstep hreload).agrees_of_suffix hcut
  rw [World.constructed_state, ← moves_stateWrites, ← stored_stateWrites]
  refine ⟨hagrees.chained, fun event hevent => ?_, hagrees.stored⟩
  have hmove := hagrees.edges (event.oldState, event.newState)
  rw [moves_stateWrites] at hmove
  exact hmove (List.mem_map_of_mem hevent)

/-- The first session of a service, cut off between the announcement and the
store of its last move. -/
theorem journal_agrees_with_state_file_first_session :
    ∃ (w' : World Script) (newer : List Effect),
      newer <:+ w'.cell.log ∧ (edges newer).head? = some (.ready, .running) ∧
        persistedState newer = .ready ∧ WriteAhead.Chained .stopped (edges newer) ∧
          (∀ event ∈ journal newer, event.newState ∈ transitions event.oldState) ∧
            persistedState newer ∈ (WriteAhead.announced .stopped (edges newer)).take 2 := by
  let C := scripted (onDemand .multiuser) []
  have hexec : (((World.initial C none {}).step C
      (scriptedLabel (.acquireSession "a") {})).map fun result =>
        ((edges (result.2.cell.log.drop 3)).head?, persistedState (result.2.cell.log.drop 3))) =
      some (some (.ready, .running), .ready) := by decide
  obtain ⟨⟨r, w'⟩, hstep, hobserved⟩ := Option.map_eq_some_iff.mp hexec
  rw [Prod.mk.injEq] at hobserved
  rw [World.initial_eq_constructed] at hstep
  have hcut : w'.cell.log.drop 3 ++ [] <:+ w'.cell.log := by
    rw [List.append_nil]
    exact List.drop_suffix _ _
  have hagree := journal_agrees_with_state_file (C := C) (.refl _) hstep hcut
  rw [List.append_nil] at hcut hagree
  exact ⟨w', w'.cell.log.drop 3, hcut, hobserved.1, hobserved.2, hagree⟩

/-- Two processes, each cut off between the two writes of its first event: the
last two events of the journal are about a state that was never stored. -/
theorem journal_ahead_of_state_file_after_two_crashes :
    ∃ w : World Script,
      Machine.Run (World.happen (scripted (onDemand .multiuser) [])) (fun _ _ => True)
        (World.initial (scripted (onDemand .multiuser) []) none {}) w ∧
      (journal w.cell.log).length = 2 ∧
        ∀ event ∈ (journal w.cell.log).take 2, event.newState ≠ persistedState w.cell.log := by
  have hexec : ((Machine.exec (World.happen (scripted (onDemand .multiuser) []))
      (fun _ _ => True) (World.initial (scripted (onDemand .multiuser) []) none {})
      [.cut (scriptedLabel (.start "admin") {}) 4, .cut (scriptedLabel (.start "admin") {}) 3]).map
      fun w => (decide ((journal w.cell.log).length = 2),
        ((journal w.cell.log).take 2).all fun event =>
          decide (event.newState ≠ persistedState w.cell.log))) =
      some (true, true) := by decide +kernel
  obtain ⟨w, hw, hobserved⟩ := Option.map_eq_some_iff.mp hexec
  rw [Prod.mk.injEq, decide_eq_true_eq, List.all_eq_true] at hobserved
  refine ⟨w, Machine.run_of_exec hw, hobserved.1, fun event hevent => ?_⟩
  exact of_decide_eq_true (hobserved.2 event hevent)

end UltimateBBSBox.Supervisor

import UltimateBBSBox.Library.Machine
import UltimateBBSBox.Runtime.Stopping

/-!
# PTY masters over whole runs

One adapter and the calls that are made of it, for any instances, with any configurations
and any answers of the system.  Between calls the PTY masters that are open should be
those that are recorded, each for one instance and its process (`Sound`).

`stop` and `cleanup` keep to this.  A `start` does if it meets the condition of
`Orderly`: where it gets to start a process, no master may be recorded for the instance,
and once a terminal was opened nothing but an `OSError` or a `ValueError` may be raised.
After a run of such steps a further step leaves a sound state if and only if it is one of
them (`terminals_of_run`).
-/

namespace UltimateBBSBox.Runtime

open Act

/-! ## Calls -/

/-- A call of a method of the adapter, or of `start` of the bridge, with what it meets. -/
inductive Call
  | start (world : StartWorld)
  | bridgeStart (validated : Except Exn Unit) (world : StartWorld)
  | status (look : Look)
  | stop (world : StopWorld)
  | openStream (dup : Option Foreign) (connect : Except Exn Unit)
  | cleanup

/-- A call for an instance, with its `runtime` and a configuration. -/
structure Label where
  instanceId : Text
  runtime : Metadata
  config : Config
  call : Call

/-- The program of a call. -/
def Label.program (runtimeName : String) (label : Label) : Act State Exn Unit :=
  match label.call with
  | .start world => do
      let _ ← start runtimeName label.instanceId label.config world
  | .bridgeStart validated world => do
      let _ ← bridgeStart runtimeName label.instanceId label.config validated world
  | .status look => do
      let _ ← status label.instanceId look
  | .stop world => do
      let _ ← stop label.instanceId label.config world
  | .openStream dup connect => do
      let _ ← openStream label.instanceId label.config dup connect
  | .cleanup => cleanup label.instanceId

/-- The state in which a call is made. -/
def Label.enter (label : Label) (s : State) : State := { s with runtime := label.runtime }

/-- A call that comes back. -/
def step (runtimeName : String) (s : State) (label : Label) : Option (Except Exn Unit × State) :=
  (label.program runtimeName).run (label.enter s)

/-- An adapter that was just created. -/
def State.created : State where
  processes := ∅
  ptyMasters := .empty
  terminals := []
  started := 0
  runtime := ⟨none, none, none, none⟩
  now := ⟨false, 0, .error .osError⟩

/-! ## The invariant -/

/-- The masters that are open are those that are recorded, each for one instance, and none
is closed twice; the master of an instance is that of its process. -/
structure Sound (s : State) : Prop where
  tight : s.ptyMasters.Tight
  belongs : ∀ instanceId master, s.ptyMasters.recorded.get? instanceId = some master →
    ∃ process, s.processes.get? instanceId = some process ∧ (master, process.number) ∈ s.terminals

/-- Terminals have been given to processes that were started. -/
def Numbered (s : State) : Prop := ∀ master number, (master, number) ∈ s.terminals → number < s.started

/-- What goes wrong after a terminal was opened. -/
def StartWorld.failure (world : StartWorld) : Option Foreign :=
  world.setraw.or (match world.popen with
    | .error cls => some cls
    | .ok _ => none)

/-- The start of a process: with a terminal, whatever goes wrong is caught, and where nothing
goes wrong there was no master for the instance; the latter also without a terminal. -/
def OrderlyLaunch (s : State) (instanceId : Text) (config : Config) (world : StartWorld) : Prop :=
  if config.usePty then
    world.openpty = none →
      match world.failure with
      | some cls => cls.isCaught = true
      | none => s.ptyMasters.recorded.get? instanceId = none
  else (∃ pid, world.popen = .ok pid) → s.ptyMasters.recorded.get? instanceId = none

/-- A `start` that gets as far as to start a process does so in order. -/
def OrderlyStart (s : State) (instanceId : Text) (config : Config) (world : StartWorld) : Prop :=
  aliveAt s instanceId world.look = some false → (∃ command, world.command = .ok command) →
    world.prepared = .ok () → OrderlyLaunch s instanceId config world

/-- The condition on a call. -/
def Orderly (s : State) (label : Label) : Prop :=
  match label.call with
  | .start world => OrderlyStart (label.enter s) label.instanceId label.config world
  | .bridgeStart validated world =>
      validated = .ok () → OrderlyStart (label.enter s) label.instanceId label.config world
  | _ => True

theorem sound_created : Sound .created where
  tight := Ledger.tight_empty
  belongs _ _ h := by cases h

variable {s : State} {instanceId : Text} {config : Config}

theorem Sound.cleaned (h : Sound s) : Sound (cleaned instanceId s) where
  tight := h.tight.closeFor instanceId
  belongs id master hmaster := by
    rw [Runtime.cleaned, Ledger.get?_closeFor] at hmaster
    split at hmaster
    · cases hmaster
    · rename_i hne
      obtain ⟨process, hprocess, hterminal⟩ := h.belongs id master hmaster
      refine ⟨process, ?_, hterminal⟩
      rw [Runtime.cleaned, Dict.get?_pop_ne _ hne]
      exact hprocess

/-- Where a process has been started, the state is sound if and only if there was no master
for the instance. -/
theorem sound_recorded_iff (h : Sound s) (hnumbered : Numbered s) {process : Process}
    (hnumber : process.number = s.started) :
    Sound (recorded instanceId process none { s with started := s.started + 1 }) ↔
      s.ptyMasters.recorded.get? instanceId = none := by
  constructor
  · intro hsound
    by_contra hne
    obtain ⟨master, hmaster⟩ := Option.ne_none_iff_exists'.mp hne
    -- the master is that of a process that was started before
    obtain ⟨process', hprocess', hterminal⟩ := hsound.belongs instanceId master hmaster
    rw [recorded, Dict.get?_set_self, Option.some.injEq] at hprocess'
    subst hprocess'
    have hlt := hnumbered _ _ hterminal
    omega
  · intro hnone
    refine ⟨h.tight, fun id master hmaster => ?_⟩
    have hne : id ≠ instanceId := by
      rintro rfl
      exact absurd (hnone.symm.trans hmaster) (Option.some_ne_none _).symm
    obtain ⟨process', hprocess', hterminal⟩ := h.belongs id master hmaster
    refine ⟨process', ?_, hterminal⟩
    rw [recorded, Dict.get?_set_ne _ _ hne]
    exact hprocess'

/-- The same, where it has been given a terminal. -/
theorem sound_recorded_terminal_iff (h : Sound s) {process : Process}
    (hnumber : process.number = s.started) :
    Sound (recorded instanceId process (some s.ptyMasters.opened)
        { s with
          ptyMasters := s.ptyMasters.lose
          started := s.started + 1
          terminals := (s.ptyMasters.opened, s.started) :: s.terminals }) ↔
      s.ptyMasters.recorded.get? instanceId = none := by
  constructor
  · intro hsound
    exact (h.tight.record_iff instanceId).mp hsound.tight
  · intro hnone
    refine ⟨(h.tight.record_iff instanceId).mpr hnone, fun id master hmaster => ?_⟩
    unfold recorded Ledger.record at hmaster
    rw [Dict.get?_set] at hmaster
    -- the new entry is the only one that the launch touches
    split at hmaster
    · rename_i heq
      obtain rfl := Option.some.inj hmaster
      refine ⟨process, ?_, ?_⟩
      · rw [recorded, heq, Dict.get?_set_self]
      · rw [hnumber]
        exact List.mem_cons_self
    · rename_i hne
      obtain ⟨process', hprocess', hterminal⟩ := h.belongs id master hmaster
      refine ⟨process', ?_, List.mem_cons_of_mem _ hterminal⟩
      rw [recorded, Dict.get?_set_ne _ _ hne]
      exact hprocess'

/-! ## Starting -/

section Starting

variable {world : StartWorld} {runtimeName : String}

/-- What is caught closes the master that was opened. -/
theorem wlp_startFailed {α : Type} {master : Option ℕ} {cls : Foreign} {Q : α → State → Prop}
    {P : State → Prop} :
    wlp (startFailed master cls) Q (fun _ => P) s ↔
      P (if cls.isCaught then closeMaster master s else s) := by
  unfold startFailed
  split <;> exact Iff.rfl

/-- What a launch leaves: a sound state if and only if it is in order. -/
def Launched (s : State) (instanceId : Text) (config : Config) (world : StartWorld) (s' : State) :
    Prop :=
  Numbered s' ∧ (Sound s' ↔ OrderlyLaunch s instanceId config world)

/-- Once a process was started, a launch changes nothing more but the `runtime`. -/
theorem wlp_launched {process : Process} {master : Option ℕ} {command : List Text} {s' : State}
    (h : Launched s instanceId config world (recorded instanceId process master s')) :
    wlp (do
        modify (recorded instanceId process master)
        let identity ← Act.ofExcept (procIdentity world.proc)
        modify fun s : State =>
          { s with
            runtime :=
              { adapter := some runtimeName
                pid := some process.pid
                processExecutable := identity.map Prod.fst
                processStartTicks := identity.map Prod.snd } }
        return (⟨true, some process.pid, command, false⟩ : StartResult))
      (fun _ => Launched s instanceId config world) (fun _ => Launched s instanceId config world)
      s' := by
  rw [wlp_bind, wlp_modify, wlp_bind, wlp_ofExcept]
  refine ⟨fun _ _ => ⟨h.1, Iff.trans ?_ h.2⟩, fun _ _ => h⟩
  exact ⟨fun h => ⟨h.tight, h.belongs⟩, fun h => ⟨h.tight, h.belongs⟩⟩

theorem launched_self (h : Sound s) (hnumbered : Numbered s)
    (horderly : OrderlyLaunch s instanceId config world) : Launched s instanceId config world s :=
  ⟨hnumbered, iff_of_true h horderly⟩

/-- A launch without a terminal. -/
theorem wlp_launch_plain (h : Sound s) (hnumbered : Numbered s) (hpty : config.usePty = false)
    {command : List Text} :
    wlp (launch runtimeName instanceId config world command)
      (fun _ => Launched s instanceId config world) (fun _ => Launched s instanceId config world)
      s := by
  unfold launch openTerminal spawn
  rw [hpty, if_neg (by decide), wlp_bind, wlp_pure]
  cases hpopen : world.popen with
  | error cls =>
      -- there is no master to close
      rw [wlp_bind]
      apply wlp_startFailed.mpr
      rw [show closeMaster none s = s from rfl, ite_self]
      exact launched_self h hnumbered (by simp [OrderlyLaunch, hpty, hpopen])
  | ok pid =>
      dsimp only
      rw [wlp_bind, wlp_bind, wlp_get, wlp_bind, wlp_modify, wlp_pure]
      apply wlp_launched
      have horderly : OrderlyLaunch s instanceId config world ↔
          s.ptyMasters.recorded.get? instanceId = none := by
        simp [OrderlyLaunch, hpty, hpopen]
      unfold Launched
      rw [horderly]
      exact ⟨fun master number hterminal => Nat.lt_succ_of_lt (hnumbered master number hterminal),
        sound_recorded_iff h hnumbered rfl⟩

/-- What goes wrong after a terminal was opened loses the master unless it is caught. -/
theorem launched_failed (h : Sound s) (hnumbered : Numbered s) (hpty : config.usePty = true)
    (hopenpty : world.openpty = none) {cls : Foreign} (hfailure : world.failure = some cls) :
    Launched s instanceId config world
      (if cls.isCaught then
        closeMaster (some s.ptyMasters.opened) { s with ptyMasters := s.ptyMasters.lose }
      else { s with ptyMasters := s.ptyMasters.lose }) := by
  have horderly : OrderlyLaunch s instanceId config world ↔ cls.isCaught = true := by
    simp [OrderlyLaunch, hpty, hopenpty, hfailure]
  unfold Launched
  rw [horderly]
  split
  · rename_i hcaught
    exact ⟨hnumbered, iff_of_true ⟨h.tight.discard, h.belongs⟩ hcaught⟩
  · rename_i hcaught
    exact ⟨hnumbered, iff_of_false (fun hsound => h.tight.not_lose hsound.tight) hcaught⟩

/-- A launch with a terminal. -/
theorem wlp_launch_terminal (h : Sound s) (hnumbered : Numbered s) (hpty : config.usePty = true)
    {command : List Text} :
    wlp (launch runtimeName instanceId config world command)
      (fun _ => Launched s instanceId config world) (fun _ => Launched s instanceId config world)
      s := by
  unfold launch openTerminal spawn
  rw [hpty, if_pos rfl, wlp_bind]
  cases hopenpty : world.openpty with
  | some cls =>
      apply wlp_startFailed.mpr
      rw [show closeMaster none s = s from rfl, ite_self]
      exact launched_self h hnumbered (by simp [OrderlyLaunch, hpty, hopenpty])
  | none =>
      dsimp only
      rw [wlp_bind, wlp_get, wlp_bind, wlp_modify]
      -- from here on there is a master that nothing is recorded for
      cases hsetraw : world.setraw with
      | some cls =>
          apply wlp_startFailed.mpr
          exact launched_failed h hnumbered hpty hopenpty (by simp [StartWorld.failure, hsetraw])
      | none =>
          dsimp only
          rw [wlp_pure]
          cases hpopen : world.popen with
          | error cls =>
              rw [wlp_bind]
              apply wlp_startFailed.mpr
              exact launched_failed h hnumbered hpty hopenpty
                (by simp [StartWorld.failure, hsetraw, hpopen])
          | ok pid =>
              dsimp only
              rw [wlp_bind, wlp_bind, wlp_get, wlp_bind, wlp_modify, wlp_pure]
              apply wlp_launched
              have horderly : OrderlyLaunch s instanceId config world ↔
                  s.ptyMasters.recorded.get? instanceId = none := by
                simp [OrderlyLaunch, hpty, hopenpty, StartWorld.failure, hsetraw, hpopen]
              unfold Launched
              rw [horderly]
              refine ⟨?_, sound_recorded_terminal_iff h rfl⟩
              intro master number hterminal
              rcases List.mem_cons.mp hterminal with heq | hterminal
              · obtain ⟨-, rfl⟩ := Prod.mk.inj heq
                exact Nat.lt_succ_self _
              · exact Nat.lt_succ_of_lt (hnumbered master number hterminal)

/-- A start leaves a sound state if and only if it is in order. -/
theorem wlp_start (h : Sound s) (hnumbered : Numbered s) :
    wlp (start runtimeName instanceId config world)
      (fun _ s' => Numbered s' ∧ (Sound s' ↔ OrderlyStart s instanceId config world))
      (fun _ s' => Numbered s' ∧ (Sound s' ↔ OrderlyStart s instanceId config world)) s := by
  have hseen : Sound (s.seen world.look) := ⟨h.tight, h.belongs⟩
  -- where no launch is made, the start is in order and the tables are as they were
  have hends : OrderlyStart s instanceId config world → Numbered (s.seen world.look) ∧
      (Sound (s.seen world.look) ↔ OrderlyStart s instanceId config world) :=
    fun horderly => ⟨hnumbered, iff_of_true hseen horderly⟩
  unfold start
  rw [wlp_bind, wlp_status]
  rcases aliveAt_cases s instanceId world.look with ⟨current, hcurrent, halive⟩ | ⟨e, he, halive⟩
  · refine ⟨fun current' hcurrent' => ?_, fun e he => ?_⟩
    · obtain rfl := Except.ok.inj (hcurrent.symm.trans hcurrent')
      rw [wlp_bind, wlp_ofExcept]
      refine ⟨fun command hcommand => ?_, fun e he => hends ?_⟩
      · rw [wlp_ite]
        refine ⟨fun hcase => hends ?_, fun hcase => ?_⟩
        · intro hfalse
          rw [halive, hcase] at hfalse
          cases hfalse
        · rw [wlp_bind, wlp_ofExcept]
          refine ⟨fun _ hprepared => ?_, fun e he => hends ?_⟩
          · have horderly : OrderlyStart s instanceId config world ↔
                OrderlyLaunch (s.seen world.look) instanceId config world := by
              unfold OrderlyStart
              rw [halive, Bool.eq_false_of_not_eq_true hcase]
              exact ⟨fun h => h rfl ⟨command, hcommand⟩ hprepared, fun h _ _ _ => h⟩
            rw [horderly]
            cases hpty : config.usePty with
            | false => exact wlp_launch_plain hseen hnumbered hpty
            | true => exact wlp_launch_terminal hseen hnumbered hpty
          · intro _ _ hok
            exact absurd (he.symm.trans hok) (by simp)
      · rintro _ ⟨command, hok⟩
        exact absurd (he.symm.trans hok) (by simp)
    · exact absurd (hcurrent.symm.trans he) (by simp)
  · refine ⟨fun current hok => absurd (he.symm.trans hok) (by simp), fun _ _ => hends ?_⟩
    intro hfalse
    rw [halive] at hfalse
    cases hfalse

end Starting

/-! ## The other calls -/

/-- What was in order is in order. -/
structure Keeps (s s' : State) : Prop where
  sound : Sound s → Sound s'
  numbered : Numbered s → Numbered s'

instance : IsPreorder State Keeps where
  refl _ := ⟨id, id⟩
  trans _ _ _ h h' := ⟨h'.sound ∘ h.sound, h'.numbered ∘ h.numbered⟩

theorem keeps_seen (look : Look) (s : State) : Keeps s (s.seen look) :=
  ⟨fun h => ⟨h.tight, h.belongs⟩, id⟩

theorem within_cleanup : Within Keeps (cleanup instanceId) :=
  within_modify fun _ => ⟨Sound.cleaned, id⟩

theorem within_status (look : Look) : Within Keeps (status instanceId look) :=
  within_bind (within_modify (keeps_seen look)) fun _ =>
    within_bind within_get fun _ => within_ofExcept _

theorem within_cleaned {α : Type} (a : α) :
    Within Keeps (cleanup instanceId >>= fun _ => (pure a : Act State Exn α)) :=
  within_bind within_cleanup fun _ => within_pure a

theorem within_grace {deadline : WithTop ℚ} (rounds : List Round) :
    Within Keeps (grace instanceId deadline rounds) := by
  induction rounds with
  | nil => exact within_diverge
  | cons round rest ih =>
      rw [grace]
      refine within_ite (fun _ => within_bind within_get fun s => ?_) fun _ => within_pure _
      split
      · refine within_bind (within_modify (keeps_seen _)) fun _ => ?_
        exact within_ite (fun _ => ih) fun _ => within_cleaned _
      · refine within_bind (within_status _) fun _ => ?_
        exact within_ite (fun _ => ih) fun _ => within_cleaned _

theorem within_forceStop {world : StopWorld} : Within Keeps (forceStop instanceId world) := by
  refine within_bind (within_ofExcept _) fun _ => ?_
  refine within_bind (within_modify (keeps_seen _)) fun _ => within_bind within_get fun s => ?_
  split
  · exact within_ite (fun _ => within_throw _) fun _ => within_cleaned _
  · exact within_cleaned _

/-- A stop keeps to the invariant, however it ends. -/
theorem within_stop {world : StopWorld} : Within Keeps (stop instanceId config world) := by
  refine within_bind (within_status _) fun current => within_ite (fun _ => ?_) fun _ => within_cleaned _
  refine within_bind (within_ofExcept _) fun _ => within_bind (within_ofExcept _) fun _ => ?_
  refine within_bind (within_grace _) fun ended => ?_
  cases ended with
  | some result => exact within_pure _
  | none => exact within_forceStop

theorem within_openStream {dup : Option Foreign} {connect : Except Exn Unit} :
    Within Keeps (openStream instanceId config dup connect) := by
  refine within_bind within_get fun s => ?_
  split
  · split
    · exact within_throw _
    · exact within_throw _
    · exact within_pure _
  · split
    · exact within_pure _
    · exact within_throw _
    · exact within_throw _
  · exact within_bind (within_ofExcept _) fun _ => within_pure _
  · exact within_throw _

/-! ## Runs -/

variable {runtimeName : String} {label : Label}

/-- A call leaves a sound state if and only if it is in order. -/
theorem wlp_program (h : Sound s) (hnumbered : Numbered s) :
    wlp (label.program runtimeName)
      (fun _ s' => Numbered s' ∧ (Sound s' ↔ Orderly s label))
      (fun _ s' => Numbered s' ∧ (Sound s' ↔ Orderly s label)) (label.enter s) := by
  have henter : Sound (label.enter s) := ⟨h.tight, h.belongs⟩
  have hkeeps : ∀ s', Keeps (label.enter s) s' → Numbered s' ∧ (Sound s' ↔ True) :=
    fun s' hs' => ⟨hs'.numbered hnumbered, iff_true_intro (hs'.sound henter)⟩
  unfold Label.program Orderly
  cases label.call with
  | start world =>
      rw [wlp_bind]
      exact wlp_start henter hnumbered
  | bridgeStart validated world =>
      unfold bridgeStart
      rw [wlp_bind, wlp_bind, wlp_ofExcept]
      refine ⟨fun _ hvalidated => ?_, fun e he => ⟨hnumbered, iff_of_true henter ?_⟩⟩
      · rw [wlp_bind, wlp_modify]
        have hnamed : Sound (named runtimeName (label.enter s)) := ⟨h.tight, h.belongs⟩
        -- the name of the adapter is not looked at
        have horderly : OrderlyStart (named runtimeName (label.enter s)) label.instanceId label.config
            world ↔ (validated = .ok () →
              OrderlyStart (label.enter s) label.instanceId label.config world) :=
          ⟨fun h _ => h, fun h => h hvalidated⟩
        exact wlp_mono (wlp_start hnamed hnumbered) (fun _ _ hs' => ⟨hs'.1, hs'.2.trans horderly⟩)
          fun _ _ hs' => ⟨hs'.1, hs'.2.trans horderly⟩
      · intro hok
        exact absurd (he.symm.trans hok) (by simp)
  | status look =>
      rw [wlp_bind]
      exact wlp_mono (within_status look _) (fun _ s' hs' => hkeeps s' hs') fun _ s' hs' => hkeeps s' hs'
  | stop world =>
      rw [wlp_bind]
      exact wlp_mono (within_stop _) (fun _ s' hs' => hkeeps s' hs') fun _ s' hs' => hkeeps s' hs'
  | openStream dup connect =>
      rw [wlp_bind]
      exact wlp_mono (within_openStream _) (fun _ s' hs' => hkeeps s' hs')
        fun _ s' hs' => hkeeps s' hs'
  | cleanup => exact wlp_mono (within_cleanup _) (fun _ s' hs' => hkeeps s' hs') fun _ s' hs' => hkeeps s' hs'

/-- After a step. -/
theorem sound_step_iff (h : Sound s) (hnumbered : Numbered s) {result : Except Exn Unit} {s' : State}
    (hstep : step runtimeName s label = some (result, s')) :
    Numbered s' ∧ (Sound s' ↔ Orderly s label) := by
  cases result with
  | ok _ => exact wlp_ok (wlp_program h hnumbered) hstep
  | error e => exact wlp_error (wlp_program h hnumbered) hstep

/-- In every run of calls that are in order, the masters that are open are those that are
recorded, each for one instance and its process, and every other one was closed once; and
the first call that is not in order leaves a state where this is not so. -/
theorem terminals_of_run (h : Machine.Run (step runtimeName) Orderly .created s) :
    Sound s ∧
      (∀ master < s.ptyMasters.opened, (∀ id, s.ptyMasters.recorded.get? id ≠ some master) →
        s.ptyMasters.closed.count master = 1) ∧
      ∀ label result s', step runtimeName s label = some (result, s') →
        (Sound s' ↔ Orderly s label) := by
  have hsound : Sound s ∧ Numbered s := by
    have hcreated : Numbered .created := by
      intro _ _ hterminal
      cases hterminal
    apply h.invariant (P := fun s => Sound s ∧ Numbered s) ⟨sound_created, hcreated⟩
    intro s label result s' ⟨hsound, hnumbered⟩ horderly hstep
    obtain ⟨hnumbered', hiff⟩ := sound_step_iff hsound hnumbered hstep
    exact ⟨hiff.mpr horderly, hnumbered'⟩
  obtain ⟨hsound, hnumbered⟩ := hsound
  refine ⟨hsound, fun master hopened hnone => hsound.tight.count_closed hopened hnone, ?_⟩
  intro label result s' hstep
  exact (sound_step_iff hsound hnumbered hstep).2

/-- A process that does not run. -/
def exitedLook : Look := ⟨false, 0, .error .osError⟩

/-- A start with a terminal where no process runs, which succeeds. -/
def terminalStart : Label where
  instanceId := .of "amiga"
  runtime := ⟨none, none, none, none⟩
  config := ⟨true, none, false, none⟩
  call := .start
    { look := exitedLook
      command := .ok []
      prepared := .ok ()
      openpty := none
      setraw := none
      popen := .ok 4711
      proc := .ok (.of "/usr/bin/fs-uae", .of "4096") }

/-- What it leaves in the instance. -/
def startedRuntime : Metadata :=
  ⟨some "fs_uae", some 4711, some (.of "/usr/bin/fs-uae"), some (.of "4096")⟩

/-- A stop of the same instance, whose process has ended. -/
def laterStop : Label where
  instanceId := .of "amiga"
  runtime := startedRuntime
  config := ⟨true, none, false, none⟩
  call := .stop ⟨exitedLook, none, none, 0, [], none, exitedLook⟩

/-- A start and a stop: the master was closed once. -/
theorem sound_start_stop :
    ∃ s, Machine.Run (step "fs_uae") Orderly .created s ∧ Sound s ∧
      s.ptyMasters.opened = 1 ∧ s.ptyMasters.closed.count 0 = 1 := by
  have hfirst : Orderly .created terminalStart := fun _ _ _ _ => rfl
  have hrun : ∃ s, Machine.Run (step "fs_uae") Orderly .created s ∧ s.ptyMasters.opened = 1 ∧
      ∀ id, s.ptyMasters.recorded.get? id = none := by
    refine ⟨_, .snoc (.snoc (.refl _) hfirst rfl) (l := laterStop) trivial rfl, rfl, fun _ => rfl⟩
  obtain ⟨s, hrun, hopened, hrecorded⟩ := hrun
  obtain ⟨hsound, hclosed, _⟩ := terminals_of_run hrun
  refine ⟨s, hrun, hsound, hopened, hclosed 0 (by omega) fun id h => ?_⟩
  exact absurd ((hrecorded id).symm.trans h) (Option.some_ne_none _).symm

/-- A second start after the process has ended, without a stop: the first master is open,
and no longer recorded. -/
theorem unsound_restart :
    ¬ ∀ s, Machine.Run (step "fs_uae") (fun _ _ => True) .created s → Sound s := by
  have hrun : ∃ s, Machine.Run (step "fs_uae") (fun _ _ => True) .created s ∧
      s.ptyMasters.IsOpen 0 ∧
      s.ptyMasters.recorded = ((∅ : Dict Text ℕ).set (.of "amiga") 0).set (.of "amiga") 1 :=
    ⟨_, .snoc (.snoc (.refl _) (l := terminalStart) trivial rfl)
      (l := { terminalStart with runtime := startedRuntime }) trivial rfl,
      ⟨by decide, by decide⟩, rfl⟩
  intro hall
  obtain ⟨s, hrun, hopen, hrecorded⟩ := hrun
  obtain ⟨id, hid⟩ := ((hall s hrun).tight.isOpen_iff 0).mp hopen
  rw [hrecorded, Dict.set_set, Dict.get?_set] at hid
  split at hid <;> cases hid

end UltimateBBSBox.Runtime

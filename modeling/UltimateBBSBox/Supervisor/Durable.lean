import UltimateBBSBox.Supervisor.Crashes
import UltimateBBSBox.Supervisor.Saved
import UltimateBBSBox.Supervisor.Stack

/-!
# The state file follows memory

In a run none of whose sections raises or returns between a change and the save
behind it, the state file holds what `to_dict(persist=True)` makes of the
instance, whenever no maintenance run is between its driver call and its
completion.  A supervisor constructed over it therefore finds everything but
sessions and transient holds.

`stop` as the administrator forgets intent and `admin` hold before it refuses,
and the file keeps both.
-/

namespace UltimateBBSBox.Supervisor

open Act

variable {σ : Type} {C : Context σ}

namespace World

/-- No section leaves a change unsaved: see `StartSaves`, `StopSaves` and
`ReconcileSaves`; a maintenance run completes in a state it can settle, and a
supervisor is constructed over a file that counts no sessions. -/
def SavesWhatItChanges (C : Context σ) (w : World σ) (l : Label σ) : Prop :=
  match l.op with
  | .start reason => StartSaves C reason (w.cell.withEnv l.env)
  | .stop force reason => StopSaves force reason (w.cell.withEnv l.env)
  | .reconcile => ReconcileSaves C (w.cell.withEnv l.env)
  | .finishMaintenance index =>
      ∀ run ∈ w.running[index]?, ∀ outcome ∈ run.outcome, Settleable w.cell.inst.state outcome
  | .reload => ∀ document ∈ w.cell.stateFile, document.activeSessionCount = 0
  | _ => True

/-- No maintenance run is between its driver call and its completion. -/
def Rests (w : World σ) : Prop := ∀ run ∈ w.running, run.outcome = none

end World

/-! ## What is stored -/

/-- Whatever is stored was made by `to_dict(persist=True)`. -/
def StoredByToDict (log : List Effect) : Prop :=
  ∀ document, .save document ∈ log → ∃ inst : InstanceState, document = inst.toDict true

namespace StoredByToDict

variable {log : List Effect} {c c' : Cell σ}

theorem cons (h : StoredByToDict log) {effect : Effect}
    (heffect : ∀ document, effect = .save document → ∃ inst : InstanceState,
      document = inst.toDict true) : StoredByToDict (effect :: log) := by
  intro document hmem
  rcases List.mem_cons.mp hmem with heq | hmem
  · exact heffect document heq.symm
  · exact h document hmem

theorem save (h : StoredByToDict log) (inst : InstanceState) :
    StoredByToDict (.save (inst.toDict true) :: log) :=
  h.cons fun _ heq => ⟨inst, (Effect.save.inj heq).symm⟩

theorem of_shows (h : StoredByToDict log) {effect : Effect} {inst : InstanceState}
    (hshows : effect.Shows inst) : StoredByToDict (effect :: log) := by
  refine h.cons fun document heq => ?_
  rw [heq] at hshows
  exact hshows.elim

theorem deed {d : Deed} (hdeed : Deeds C d c c') (h : StoredByToDict c.log) :
    StoredByToDict c'.log := by
  cases hdeed with
  | ask effect env hshows => exact h.of_shows hshows
  | call effect reply hshows => exact h.of_shows hshows
  | save | addHold | stopped => exact h.save _
  | schedule => exact StoredByToDict.save (h.cons fun _ heq => by cases heq) _
  | move =>
      exact StoredByToDict.save ((h.cons fun _ heq => by cases heq).cons fun _ heq => by cases heq) _
  | attempt => exact h.cons fun _ heq => by cases heq
  | _ => exact h

end StoredByToDict

/-- What the file holds is read back and made again, but for the session count. -/
theorem toDict_fromDict {document : Document} {inst : InstanceState}
    (hdocument : document = inst.toDict true) (hcount : document.activeSessionCount = 0) :
    (InstanceState.fromDict document).toDict true = document := by
  rw [hdocument] at hcount ⊢
  rw [InstanceState.fromDict_toDict]
  have hholds : (inst.holds.filterKeys isPersistentHold).filterKeys isPersistentHold =
      inst.holds.filterKeys isPersistentHold := by
    simp [Dict.filterKeys]
  have hsize : inst.sessions.size = 0 := hcount
  simp [InstanceState.toDict, hholds, hsize]

/-! ## Steps -/

section Steps

variable {w w' : World σ} {l : Label σ} {r : Except Exn Unit}

/-- Sections that neither belong to a maintenance run nor construct a supervisor. -/
theorem syncs_lockedSection (hsaves : w.SavesWhatItChanges C l)
    (hcall : ∀ index, l.op ≠ .callMaintenance index)
    (hfinish : ∀ index, l.op ≠ .finishMaintenance index) (hreload : l.op ≠ .reload) :
    wlp (l.op.lockedSection C l.fuel w.running) (fun _ => Syncs C (w.cell.withEnv l.env))
      (fun _ => Syncs C (w.cell.withEnv l.env)) (w.cell.withEnv l.env) := by
  have hreturn : ∀ {α : Type} {act : Prog σ α} {next : α → List MaintenanceRun} {c : Cell σ},
      wlp act (fun _ => Syncs C c) (fun _ => Syncs C c) c →
      wlp (do let a ← act; return next a) (fun _ => Syncs C c) (fun _ => Syncs C c) c :=
    fun h => wlp_bind.mpr h
  unfold World.SavesWhatItChanges at hsaves
  cases hop : l.op with
  | start reason =>
      rw [hop] at hsaves
      exact hreturn (syncs_start l.fuel hsaves)
  | stop force reason =>
      rw [hop] at hsaves
      exact hreturn (syncs_stop force hsaves)
  | acquireSession sessionId => exact hreturn (syncs_acquireSession l.fuel sessionId _)
  | releaseSession sessionId => exact hreturn (syncs_releaseSession sessionId _)
  | notifyFailure error => exact hreturn (syncs_notifyFailure l.fuel error _)
  | transition newState reason => exact hreturn (syncs_transition _)
  | reconcile =>
      rw [hop] at hsaves
      exact hreturn (syncs_reconcileLocked l.fuel hsaves)
  | tick now => exact hreturn (syncs_tickLocked l.fuel now _)
  | beginMaintenance jobId =>
      refine wlp_bind.mpr ?_
      unfold findJob
      cases (jobsByName C.service).get? jobId with
      | none => exact wlp_throw.mpr (refl_of (Syncs C) _)
      | some job => exact wlp_pure.mpr <| hreturn (syncs_beginMaintenance l.fuel job _)
  | setLifecycleMode mode =>
      exact hreturn <| wlp_modify.mpr (.of_same (List.suffix_refl _) rfl rfl)
  | callMaintenance index => exact absurd hop (hcall index)
  | finishMaintenance index => exact absurd hop (hfinish index)
  | reload => exact absurd hop hreload

/-- Beginning a maintenance run is no driver call. -/
theorem World.rests_of_step (hstep : w.step C l = some (r, w'))
    (hcall : ∀ index, l.op ≠ .callMaintenance index)
    (hfinish : ∀ index, l.op ≠ .finishMaintenance index) (hreload : l.op ≠ .reload)
    (hrests : w'.Rests) : w.Rests := by
  by_cases hbegin : ∃ jobId, l.op = .beginMaintenance jobId
  · obtain ⟨jobId, hop⟩ := hbegin
    have hsection : wlp (l.op.lockedSection C l.fuel w.running)
        (fun running _ => ∀ run ∈ w.running, run ∈ running) (fun _ _ => True)
        (w.cell.withEnv l.env) := by
      rw [hop]
      refine wlp_bind.mpr <| wlp_mono wlp_true (fun job _ _ => ?_) fun _ _ _ => trivial
      exact wlp_bind.mpr <| wlp_mono wlp_true
        (fun _ _ _ => wlp_pure.mpr fun _ => List.mem_append_left _) fun _ _ _ => trivial
    rcases World.step_spec hstep hsection with ⟨_, h⟩ | ⟨_, _, _, h⟩
    · exact fun run hrun => hrests run (h run hrun)
    · rw [hop] at h
      exact fun run hrun => hrests run (h ▸ hrun)
  · have hsame := World.running_of_step hstep (fun jobId hop => hbegin ⟨jobId, hop⟩) hcall hfinish
      hreload
    exact fun run hrun => hrests run (hsame ▸ hrun)

/-- After its driver call a maintenance run waits for its completion. -/
theorem World.not_rests_of_call {index : ℕ} (hstep : w.step C l = some (r, w'))
    (hop : l.op = .callMaintenance index) : ¬ w'.Rests := by
  have hsection : wlp (l.op.lockedSection C l.fuel w.running)
      (fun running _ => ∃ run ∈ running, run.outcome ≠ none) (fun _ _ => False)
      (w.cell.withEnv l.env) := by
    rw [hop]
    simp only [Operation.lockedSection]
    split
    · rename_i job wasActive hrun
      have hcalled : wlp (callMaintenance C job) (fun _ _ => True) (fun _ _ => False)
          (w.cell.withEnv l.env) :=
        wlp_tryCatch.mpr <| wlp_mono wlp_true (fun _ _ _ => trivial) fun _ _ _ =>
          wlp_pure.mpr trivial
      refine wlp_bind.mpr <| wlp_mono hcalled (fun outcome _ _ => wlp_pure.mpr
        ⟨⟨job, wasActive, some outcome⟩, ?_, by simp⟩) fun _ _ h => h
      obtain ⟨hlt, _⟩ := List.getElem?_eq_some_iff.mp hrun
      exact List.mem_set hlt _
    · exact wlp_diverge.mpr trivial
  intro hrests
  rcases World.step_spec hstep hsection with ⟨_, run, hrun, hcalled⟩ | ⟨_, _, h, _⟩
  · exact hcalled (hrests run hrun)
  · exact h

theorem saved_of_finish {index : ℕ} (hstep : w.step C l = some (r, w'))
    (hop : l.op = .finishMaintenance index) (hsaves : w.SavesWhatItChanges C l)
    (hfit : AttemptsFit C w'.cell.log) : C.writeBack.Saved w'.cell := by
  have hsection : wlp (l.op.lockedSection C l.fuel w.running)
      (fun _ => Cleans C (w.cell.withEnv l.env)) (fun _ => Cleans C (w.cell.withEnv l.env))
      (w.cell.withEnv l.env) := by
    unfold World.SavesWhatItChanges at hsaves
    rw [hop] at hsaves ⊢
    simp only [Operation.lockedSection]
    split
    · rename_i job wasActive outcome hrun
      exact wlp_bind.mpr (cleans_finishMaintenance l.fuel (hsaves _ hrun outcome rfl))
    · exact wlp_diverge.mpr trivial
  rcases World.step_spec hstep hsection with ⟨_, h⟩ | ⟨_, _, h, _⟩
  · exact (h.2 hfit).saved
  · exact (h.2 hfit).saved

theorem saved_of_reload (hstep : w.step C l = some (r, w')) (hop : l.op = .reload)
    (hsaves : w.SavesWhatItChanges C l) (hstored : StoredByToDict w.cell.log) :
    C.writeBack.Saved w'.cell := by
  unfold World.SavesWhatItChanges at hsaves
  rw [hop] at hsaves
  rw [(World.step_reload hstep hop).1]
  intro document hdocument
  have hfile : w.cell.stateFile = some document := hdocument
  obtain ⟨inst, hinst⟩ := hstored document (Cell.mem_log_of_stateFile hfile)
  have hread : ((w.cell.withEnv l.env).reloaded C).inst = InstanceState.fromDict document := by
    simp only [Cell.reloaded, show (w.cell.withEnv l.env).stateFile = some document from hfile]
  change document = ((w.cell.withEnv l.env).reloaded C).inst.toDict true
  rw [hread, toDict_fromDict hinst (hsaves document hfile)]

end Steps

/-! ## Runs -/

namespace World

variable {w w' : World σ} {l : Label σ} {r : Except Exn Unit}

instance (l : Label σ) : Decidable (w.SavesWhatItChanges C l) :=
  match l with
  | ⟨.start reason, env, _⟩ => inferInstanceAs (Decidable (StartSaves C reason (w.cell.withEnv env)))
  | ⟨.stop force reason, env, _⟩ =>
      inferInstanceAs (Decidable (StopSaves force reason (w.cell.withEnv env)))
  | ⟨.reconcile, env, _⟩ => inferInstanceAs (Decidable (ReconcileSaves C (w.cell.withEnv env)))
  | ⟨.finishMaintenance index, _, _⟩ =>
      inferInstanceAs (Decidable (∀ run ∈ w.running[index]?, ∀ outcome ∈ run.outcome,
        Settleable w.cell.inst.state outcome))
  | ⟨.reload, _, _⟩ =>
      inferInstanceAs (Decidable (∀ document ∈ w.cell.stateFile, document.activeSessionCount = 0))
  | ⟨.acquireSession _, _, _⟩ | ⟨.releaseSession _, _, _⟩ | ⟨.notifyFailure _, _, _⟩ |
    ⟨.transition _ _, _, _⟩ | ⟨.tick _, _, _⟩ | ⟨.beginMaintenance _, _, _⟩ |
    ⟨.callMaintenance _, _, _⟩ | ⟨.setLifecycleMode _, _, _⟩ =>
      instDecidableTrue

instance : Decidable w.Rests := inferInstanceAs (Decidable (∀ _ ∈ _, _))

/-- Between operations the state file holds the instance. -/
structure FileFollows (C : Context σ) (w : World σ) : Prop where
  saved : AttemptsFit C w.cell.log → w.Rests → C.writeBack.Saved w.cell
  stored : StoredByToDict w.cell.log

theorem FileFollows.step (h : w.FileFollows C) (hsaves : w.SavesWhatItChanges C l)
    (hstep : w.step C l = some (r, w')) : w'.FileFollows C := by
  by_cases hreload : l.op = .reload
  · refine ⟨fun _ _ => saved_of_reload hstep hreload hsaves h.stored, ?_⟩
    rw [(step_reload hstep hreload).1]
    exact h.stored
  refine ⟨fun hfit hrests => ?_, ?_⟩
  · by_cases hcall : ∃ index, l.op = .callMaintenance index
    · obtain ⟨index, hop⟩ := hcall
      exact absurd hrests (not_rests_of_call hstep hop)
    by_cases hfinish : ∃ index, l.op = .finishMaintenance index
    · obtain ⟨index, hop⟩ := hfinish
      exact saved_of_finish hstep hop hsaves hfit
    rw [not_exists] at hcall hfinish
    have hsyncs : Syncs C (w.cell.withEnv l.env) w'.cell := by
      rcases step_spec hstep (syncs_lockedSection hsaves hcall hfinish hreload) with
        ⟨_, h⟩ | ⟨_, _, h, _⟩ <;> exact h
    refine hsyncs.saved hfit ?_
    exact h.saved (hfit.of_suffix hsyncs.1) (rests_of_step hstep hcall hfinish hreload hrests)
  · exact (step_doings hstep hreload).closed (P := fun c => StoredByToDict c.log)
      (fun _ _ _ _ hdeed h => h.deed hdeed) h.stored

end World

/-- In a run none of whose sections leaves a change unsaved or uses up the interpreter's
stack, and none of whose restart times overflows, the state file holds `to_dict(persist=True)` of the
instance whenever no maintenance run is between driver call and completion; a
supervisor constructed over it misses sessions and transient holds alone. -/
theorem state_file_follows_memory {override : Option Mode} {env : σ} {w : World σ}
    (hrun : Machine.Run (World.step C) (fun w l => w.SavesWhatItChanges C l ∧ w.Roomy C l)
      (World.initial C override env) w)
    (hfit : AttemptsFit C w.cell.log) (hrests : w.Rests) {document : Document}
    (hfile : w.cell.stateFile = some document) :
    document = w.cell.inst.toDict true ∧
      (w.cell.reloaded C).inst =
        { w.cell.inst with holds := w.cell.inst.holds.filterKeys isPersistentHold, sessions := ∅ } := by
  have hfollows : w.FileFollows C := by
    refine hrun.invariant (P := fun w => w.FileFollows C) ⟨fun _ _ _ hd => ?_, fun _ hd => ?_⟩
      fun w l r w' h hok hstep => h.step hok.1 hstep
    · cases hd
    · cases hd
  have hdocument := hfollows.saved hfit hrests document hfile
  refine ⟨hdocument, ?_⟩
  have hread : (w.cell.reloaded C).inst = InstanceState.fromDict document := by
    simp only [Cell.reloaded, hfile]
  rw [hread, hdocument]
  exact InstanceState.fromDict_toDict _

/-- The administrator starts a service, a caller comes and goes, a pass
reconciles it and the administrator stops it. -/
theorem state_file_follows_memory_of_session :
    ∃ (w : World Script) (document : Document),
      Machine.Run (World.step (scripted (onDemand .multiuser) []))
        (fun w l => w.SavesWhatItChanges (scripted (onDemand .multiuser) []) l ∧
          w.Roomy (scripted (onDemand .multiuser) []) l)
        (World.initial (scripted (onDemand .multiuser) []) none {}) w ∧
      w.cell.stateFile = some document ∧ document = w.cell.inst.toDict true := by
  have hexec : ((Machine.exec (World.step (scripted (onDemand .multiuser) []))
      (fun w l => w.SavesWhatItChanges (scripted (onDemand .multiuser) []) l ∧
        ¬ World.Overflows (w.step (scripted (onDemand .multiuser) []) l))
      (World.initial (scripted (onDemand .multiuser) []) none {})
      [scriptedLabel (.start "admin") {}, scriptedLabel (.acquireSession "a") {},
        scriptedLabel (.releaseSession "a") {}, scriptedLabel .reconcile { alive := true },
        scriptedLabel (.stop false "admin") {}]).map fun w =>
      decide (AttemptsFit (scripted (onDemand .multiuser) []) w.cell.log ∧ w.Rests ∧
        w.cell.stateFile.isSome = true)) = some true := by
    decide +kernel
  obtain ⟨w, hw, hobserved⟩ := Option.map_eq_some_iff.mp hexec
  obtain ⟨hfit, hrests, hsome⟩ := of_decide_eq_true hobserved
  obtain ⟨document, hfile⟩ := Option.isSome_iff_exists.mp hsome
  have hrun : Machine.Run (World.step (scripted (onDemand .multiuser) []))
      (fun w l => w.SavesWhatItChanges (scripted (onDemand .multiuser) []) l ∧
        w.Roomy (scripted (onDemand .multiuser) []) l)
      (World.initial (scripted (onDemand .multiuser) []) none {}) w :=
    (Machine.run_of_exec hw).mono fun _ _ h => ⟨h.1, World.roomy_of_not_overflows h.2⟩
  exact ⟨w, document, hrun, hfile, (state_file_follows_memory hrun hfit hrests hfile).1⟩

/-- A stop that is refused because of a caller has already forgotten the
administrator's intent, and the file still has it. -/
theorem refused_stop_forgets_intent :
    ∃ (w : World Script) (document : Document),
      Machine.Run (World.step (scripted (onDemand .multiuser) [])) (fun _ _ => True)
        (World.initial (scripted (onDemand .multiuser) []) none {}) w ∧
      AttemptsFit (scripted (onDemand .multiuser) []) w.cell.log ∧ w.Rests ∧
      w.cell.stateFile = some document ∧ document ≠ w.cell.inst.toDict true := by
  have hexec : ((Machine.exec (World.step (scripted (onDemand .multiuser) [])) (fun _ _ => True)
      (World.initial (scripted (onDemand .multiuser) []) none {})
      [scriptedLabel (.start "admin") {}, scriptedLabel (.acquireSession "a") {},
        scriptedLabel (.stop false "admin") {}]).map fun w =>
      decide (AttemptsFit (scripted (onDemand .multiuser) []) w.cell.log ∧ w.Rests ∧
        w.cell.stateFile.map Document.adminIntent = some true ∧
        w.cell.inst.adminIntent = false)) = some true := by
    decide +kernel
  obtain ⟨w, hw, hobserved⟩ := Option.map_eq_some_iff.mp hexec
  obtain ⟨hfit, hrests, hstored, hforgot⟩ := of_decide_eq_true hobserved
  obtain ⟨document, hfile, hintent⟩ := Option.map_eq_some_iff.mp hstored
  refine ⟨w, document, Machine.run_of_exec hw, hfit, hrests, hfile, fun heq => ?_⟩
  have hsame : document.adminIntent = w.cell.inst.adminIntent := by rw [heq]; rfl
  exact absurd (hintent.symm.trans (hsame.trans hforgot)) (by decide)

end UltimateBBSBox.Supervisor

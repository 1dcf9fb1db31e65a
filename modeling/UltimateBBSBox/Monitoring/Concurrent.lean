import UltimateBBSBox.Library.SharedTemp
import UltimateBBSBox.Monitoring.Lifecycle

/-!
# Evaluations at the same time

The threads of the dashboard and the timer evaluate on one state root.  Each call
loads `alerts.json`, writes `alerts.tmp` and renames it; nothing keeps two calls
apart.  Here the calls are those of `SharedTemp`, with the records of the engine.

Two calls can disturb one another (`second_rename_raises`), and they do not where
each opens `alerts.tmp` and renames it on its own (`evaluations_apart`).
-/

namespace UltimateBBSBox.Monitoring

open Observatory SharedTemp

/-- One of the calls of `evaluate`. -/
structure Evaluation where
  engine : Engine
  now : DateTime
  snapshot : Snapshot

/-- The file a call leaves where it is alone. -/
def Evaluation.execute (call : Evaluation) (file : AlertsFile) : AlertsFile :=
  (call.engine.evaluate call.now call.snapshot file).2

/-- What `_save` writes, where `_load` has read a document or nothing. -/
def Evaluation.saved (call : Evaluation) (read : Option (Dict String Record)) :
    Dict String Record :=
  (call.engine.records call.now call.snapshot (read.getD ∅)).sortKeys

/-- `alerts.json` with this text. -/
def AlertsFile.ofText : Option (Text (Dict String Record)) → AlertsFile
  | none => .missing
  | some (.document alerts) => .stored alerts
  | some .empty | some .garbled => .unreadable

/-- `alerts.json`, missing or with a document. -/
def AlertsFile.ofDocument (alerts : Option (Dict String Record)) : AlertsFile :=
  .ofText (alerts.map .document)

/-- The two files and the calls. -/
abbrev Files (ι : Type) : Type := SharedTemp.World ι (Dict String Record)

/-- The files before the first call. -/
def Files.initial {ι : Type} (alerts : Option (Dict String Record))
    (temp : Option (Text (Dict String Record))) : Files ι :=
  SharedTemp.World.initial (alerts.map .document) temp

variable {ι : Type} [DecidableEq ι]

/-- What the calls do to the files, step by step. -/
def concurrently (calls : ι → Evaluation) : Files ι → Label ι → Option (Unit × Files ι) :=
  SharedTemp.World.step fun call => (calls call).saved

/-- The calls do not disturb one another. -/
structure Undisturbed (calls : ι → Evaluation) (start : AlertsFile)
    (w : Files ι) : Prop where
  raised : ∀ call, w.phases call ≠ .raised
  whole : AlertsFile.ofText w.content ≠ .unreadable
  serial : ∃ order : List ι, order.Nodup ∧ (∀ call, call ∈ order ↔ (w.phases call).isReturned) ∧
    AlertsFile.ofText w.content =
      order.foldl (fun file call => (calls call).execute file) start

omit [DecidableEq ι] in
/-- The documents of calls in order are the files of calls in order. -/
theorem foldl_execute (calls : ι → Evaluation) (order : List ι)
    (start : Option (Dict String Record)) :
    order.foldl (fun file call => (calls call).execute file) (.ofDocument start) =
      .ofDocument (order.foldl (fun read call => some ((calls call).saved read)) start) := by
  induction order generalizing start with
  | nil => rfl
  | cons call rest ih =>
      have hexecute : (calls call).execute (.ofDocument start) =
          .ofDocument (some ((calls call).saved start)) := by
        cases start <;> rfl
      rw [List.foldl_cons, List.foldl_cons, hexecute, ih]

/-- Two calls share the temporary name: the second one has nothing left to rename. -/
theorem second_rename_raises :
    ¬ ∀ (calls : Bool → Evaluation) (start : Option (Dict String Record))
      (temp : Option (Text (Dict String Record))) (w : Files Bool),
      Machine.Run (concurrently calls) (fun _ _ => True)
        (Files.initial start temp) w →
      Undisturbed calls (.ofDocument start) w := by
  intro hall
  let calls : Bool → Evaluation := fun _ => ⟨⟨200⟩, .ofSeconds 0, ⟨[], [], []⟩⟩
  have hexec : (Machine.exec (concurrently calls) (fun _ _ => True)
      (Files.initial none none) [.load true, .load false, .openTemp true, .write true true,
        .openTemp false, .write false true, .replace true, .replace false]).map
      (fun w => w.phases false) = some .raised := by decide
  obtain ⟨w, hw, hraised⟩ := Option.map_eq_some_iff.mp hexec
  exact (hall calls none none w (Machine.run_of_exec hw)).raised false hraised

/-- **Evaluations that keep apart.**  In a run in which no call opens `alerts.tmp`
between another's opening and rename, and `alerts.json` holds what a call has loaded
when that call renames, the calls do not disturb one another. -/
theorem evaluations_apart (calls : ι → Evaluation) (start : Option (Dict String Record))
    (temp : Option (Text (Dict String Record))) {w : Files ι}
    (hrun : Machine.Run (concurrently calls) Apart
      (Files.initial start temp) w) :
    Undisturbed calls (.ofDocument start) w := by
  obtain ⟨htidy, order, hnodup, hmem, hdocument⟩ := serial_of_run hrun
  have hfile : AlertsFile.ofText w.content = .ofDocument w.document := by
    unfold SharedTemp.World.document AlertsFile.ofDocument
    cases hcontent : w.content with
    | none => rfl
    | some text =>
        obtain ⟨alerts, rfl⟩ := htidy.whole text hcontent
        rfl
  refine ⟨fun call hraised => ?_, ?_, order, hnodup, hmem, ?_⟩
  · have hfits := htidy.fits call
    rw [hraised] at hfits
    exact hfits
  · rw [hfile]
    cases w.document <;> simp [AlertsFile.ofDocument, AlertsFile.ofText]
  · rw [hfile, hdocument, foldl_execute]

/-- A call that loads after another's rename counts its occurrences on. -/
theorem evaluations_apart_of_two :
    ∃ (w : Files Bool) (alerts : Dict String Record),
      AlertsFile.ofText w.content = .stored alerts ∧
        alerts.values.map (·.occurrenceCount) = [2, 2] ∧
        Undisturbed (fun _ => ⟨⟨200⟩, .ofSeconds 0, backedUp none⟩) .missing w := by
  let calls : Bool → Evaluation := fun _ => ⟨⟨200⟩, .ofSeconds 0, backedUp none⟩
  have hexec : (Machine.exec (concurrently calls) Apart (Files.initial none none)
      [.load true, .openTemp true, .write true true, .replace true, .load false, .openTemp false,
        .write false true, .replace false]).bind (fun w => w.document.map fun alerts =>
          (AlertsFile.ofText w.content == .stored alerts,
            alerts.values.map (·.occurrenceCount))) = some (true, [2, 2]) := by decide
  obtain ⟨w, hw, hobserved⟩ := Option.bind_eq_some_iff.mp hexec
  obtain ⟨alerts, _, hobserved⟩ := Option.map_eq_some_iff.mp hobserved
  simp only [Prod.mk.injEq, beq_iff_eq] at hobserved
  exact ⟨w, alerts, hobserved.1, hobserved.2,
    evaluations_apart calls none none (Machine.run_of_exec hw)⟩

end UltimateBBSBox.Monitoring

import UltimateBBSBox.Monitoring.Engine

/-!
# Evaluations that change nothing

An evaluation writes the file that it has read exactly if it has nothing to say:
no condition holds, every record of the file is cleared, and there are no more of
them than are kept (`evaluate_keeps_iff`).

Apart from its times, an evaluation of an empty file depends on the snapshot
only (`undated_records_of_empty`).
-/

namespace UltimateBBSBox.Monitoring

open Observatory

/-- There is nothing to report, to clear or to prune. -/
structure Settled (engine : Engine) (snapshot : Snapshot) (alerts : Dict String Record) : Prop where
  quiet : conditions snapshot = []
  cleared : ∀ key r, alerts.get? key = some r → r.state = .cleared
  within : alerts.size ≤ engine.retention
  sorted : alerts.sortKeys = alerts

section Keeping

variable {engine : Engine} {snapshot : Snapshot} {alerts : Dict String Record}

/-- Cleared records lapse no more. -/
theorem merge_of_cleared (now : String)
    (hcleared : ∀ key r, alerts.get? key = some r → r.state = .cleared) :
    merge now ∅ alerts = alerts := by
  have hlapsed : (alerts.filterKeys fun key => ((∅ : Dict String Condition).get? key).isNone).mapValues
      (fun _ => Record.lapsed now) = alerts := by
    rw [Dict.mk.injEq]
    calc (alerts.entries.filter _).map (fun entry => (entry.1, entry.2.lapsed now))
        = alerts.entries.map fun entry => (entry.1, entry.2.lapsed now) := by
          exact congrArg _ (List.filter_eq_self.mpr fun _ _ => rfl)
      _ = alerts.entries.map id := by
          apply List.map_congr_left
          intro entry hentry
          have hstate := hcleared entry.1 entry.2 (Dict.get?_of_mem_entries hentry)
          simp [Record.lapsed, hstate]
      _ = alerts.entries := List.map_id _
  rw [merge, hlapsed]
  exact alerts.ofList_entries

/-- An evaluation in which there is nothing to say returns the records of the file. -/
theorem Settled.records (h : Settled engine snapshot alerts) (now : DateTime) :
    engine.records now snapshot alerts = alerts := by
  have hactive : activeConditions snapshot = ∅ := by rw [activeConditions, h.quiet]; rfl
  rw [Engine.records, hactive, merge_of_cleared now.isoformat h.cleared, prune]
  refine if_neg (not_lt.mpr (le_trans ?_ h.within))
  exact List.length_filter_le _ _

/-- Where the file is kept, there was nothing to say. -/
theorem settled_of_kept {now : DateTime}
    (h : (engine.records now snapshot alerts).sortKeys = alerts) :
    Settled engine snapshot alerts := by
  have hget : ∀ key, alerts.get? key = (engine.records now snapshot alerts).get? key := by
    intro key
    conv_lhs => rw [← h, Dict.get?_sortKeys]
  have hquiet : ∀ key, (activeConditions snapshot).get? key = none := by
    intro key
    by_contra hsome
    obtain ⟨condition, hcondition⟩ := Option.ne_none_iff_exists'.mp hsome
    have hmerged := get?_merge_of_some now.isoformat alerts hcondition
    -- a record that is renewed is active, and so is not pruned
    have hrecord : alerts.get? key = some (renewed now.isoformat alerts key condition) := by
      rw [hget]
      refine get?_prune.mpr ⟨hmerged, fun hpruned => ?_⟩
      have hstate := state_of_mem_prunedKeys hmerged hpruned
      cases hstate
    have hcount : (renewed now.isoformat alerts key condition).occurrenceCount =
        ((alerts.get? key).map (·.occurrenceCount)).getD 0 + 1 := rfl
    rw [hrecord, Option.map_some, Option.getD_some] at hcount
    omega
  have hcleared : ∀ key r, alerts.get? key = some r → r.state = .cleared := by
    intro key r hr
    have hmerged : (merge now.isoformat (activeConditions snapshot) alerts).get? key =
        some (r.lapsed now.isoformat) := by
      rw [get?_merge_of_none (hquiet key), hr, Option.map_some]
    have hkept := (hget key).symm.trans hr
    have hlapsed := (get?_prune.mp hkept).1
    rw [hmerged, Option.some.injEq] at hlapsed
    rw [← hlapsed]
    exact lapsed_state r
  refine ⟨?_, hcleared, ?_, by rw [← h, Dict.sortKeys_sortKeys]⟩
  · by_contra hne
    obtain ⟨⟨key, condition⟩, hmem⟩ := List.exists_mem_of_ne_nil _ hne
    obtain ⟨condition', hcondition⟩ := Dict.get?_ofList_ne_none hmem
    rw [show (Dict.ofList (conditions snapshot)).get? key = none from hquiet key] at hcondition
    cases hcondition
  · have hall : (engine.records now snapshot alerts).values.filter
        (fun r => r.state = .cleared) = (engine.records now snapshot alerts).values := by
      refine List.filter_eq_self.mpr fun r hr => decide_eq_true ?_
      obtain ⟨key, hkey⟩ := Dict.mem_values_iff.mp hr
      exact hcleared key r ((hget key).trans hkey)
    have hle : ((engine.records now snapshot alerts).values.filter
        fun r => r.state = .cleared).length ≤ engine.retention := length_cleared_prune_le
    rw [hall, Dict.values, List.length_map] at hle
    calc alerts.size = (engine.records now snapshot alerts).sortKeys.size := by rw [h]
      _ = (engine.records now snapshot alerts).size := (List.perm_insertionSort _ _).length_eq
      _ ≤ engine.retention := hle

/-- **When the file is kept.** -/
theorem evaluate_keeps_iff (now : DateTime) {file : AlertsFile} :
    (engine.evaluate now snapshot file).2 = file ↔
      ∃ alerts, file = .stored alerts ∧ Settled engine snapshot alerts := by
  constructor
  · intro h
    cases file with
    | missing => cases h
    | unreadable => cases h
    | stored alerts =>
        exact ⟨alerts, rfl, settled_of_kept (AlertsFile.stored.inj h)⟩
  · intro ⟨alerts, hfile, hsettled⟩
    subst hfile
    change AlertsFile.stored (engine.records now snapshot alerts).sortKeys = _
    rw [hsettled.records, hsettled.sorted]

end Keeping

/-! ## Records without their times -/

/-- A record without its times. -/
def Record.undated (r : Record) : Record :=
  { r with firstSeen := "", lastSeen := "", clearedAt := none }

/-- Of a new record only the times depend on the time. -/
theorem undated_renewed (now now' : String) (key : String) (condition : Condition) :
    (renewed now ∅ key condition).undated = (renewed now' ∅ key condition).undated := rfl

theorem merge_empty (now : String) (active : Dict String Condition) :
    merge now active ∅ = active.mapValues (renewed now ∅) := rfl

theorem undated_records_of_empty (engine : Engine) (now now' : DateTime) (snapshot : Snapshot) :
    (engine.records now snapshot ∅).values.map Record.undated =
      (engine.records now' snapshot ∅).values.map Record.undated := by
  have hrecords : ∀ time : DateTime, engine.records time snapshot ∅ =
      (activeConditions snapshot).mapValues (renewed time.isoformat ∅) := by
    intro time
    rw [Engine.records, merge_empty, prune]
    refine if_neg ?_
    rw [List.filter_eq_nil_iff.mpr, List.length_nil]
    · exact Nat.not_lt_zero _
    · intro entry hentry
      obtain ⟨_, _, rfl⟩ := List.mem_map.mp hentry
      simp [renewed]
  rw [hrecords, hrecords, Dict.values, Dict.values, Dict.mapValues, Dict.mapValues, List.map_map,
    List.map_map, List.map_map, List.map_map]
  apply List.map_congr_left
  intro entry _
  exact undated_renewed _ _ entry.1 entry.2

end UltimateBBSBox.Monitoring

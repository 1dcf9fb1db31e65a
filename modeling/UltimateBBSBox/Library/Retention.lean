import Mathlib.Data.List.Nodup
import Mathlib.Data.List.Sort
import Mathlib.Order.Basic

/-!
# Keeping the newest

A history is cut to a bound by dropping its oldest entries: sort by age, and
drop what is in front of the last `bound`.  Whatever the order of entries of the
same age, at most `bound` entries stay (`length_survivors_le`) and none that is
dropped is newer than one that stays (`age_le_of_victim`).
-/

namespace Retention

variable {α β : Type*} [LinearOrder β]

/-- The entries by age, oldest first; entries of one age stay in their order. -/
def byAge (age : α → β) (entries : List α) : List α :=
  entries.insertionSort fun first second => age first ≤ age second

/-- The entries to drop, so that no more than `bound` are left. -/
def victims (age : α → β) (bound : ℕ) (entries : List α) : List α :=
  (byAge age entries).take (entries.length - bound)

variable {age : α → β} {bound : ℕ} {entries : List α}

theorem perm_byAge (age : α → β) (entries : List α) : (byAge age entries).Perm entries :=
  List.perm_insertionSort _ entries

theorem pairwise_byAge (age : α → β) (entries : List α) :
    (byAge age entries).Pairwise fun first second => age first ≤ age second := by
  have htotal : Std.Total fun first second : α => age first ≤ age second :=
    ⟨fun first second => le_total (age first) (age second)⟩
  have htrans : IsTrans α fun first second => age first ≤ age second := ⟨fun _ _ _ => le_trans⟩
  exact List.pairwise_insertionSort _ entries

theorem mem_of_mem_victims {entry : α} (h : entry ∈ victims age bound entries) :
    entry ∈ entries :=
  (perm_byAge age entries).mem_iff.mp (List.mem_of_mem_take h)

/-- Nothing is dropped from a history within the bound. -/
theorem victims_eq_nil (h : entries.length ≤ bound) : victims age bound entries = [] := by
  rw [victims, Nat.sub_eq_zero_of_le h, List.take_zero]

/-- No entry that is dropped is newer than one that stays. -/
theorem age_le_of_victim (age : α → β) {victim entry : α} (hvictim : victim ∈ victims age bound entries)
    (hentry : entry ∈ entries) (hstays : entry ∉ victims age bound entries) :
    age victim ≤ age entry := by
  have hsplit : entry ∈ (byAge age entries).drop (entries.length - bound) := by
    have hmem : entry ∈ byAge age entries := (perm_byAge age entries).mem_iff.mpr hentry
    rw [← List.take_append_drop (entries.length - bound) (byAge age entries)] at hmem
    exact (List.mem_append.mp hmem).resolve_left hstays
  have hsorted := pairwise_byAge age entries
  rw [← List.take_append_drop (entries.length - bound) (byAge age entries)] at hsorted
  exact (List.pairwise_append.mp hsorted).2.2 victim hvictim entry hsplit

/-- At most `bound` entries stay. -/
theorem length_survivors_le (age : α → β) (bound : ℕ) (entries : List α)
    [DecidablePred fun entry => entry ∈ victims age bound entries] :
    (entries.filter fun entry => entry ∉ victims age bound entries).length ≤ bound := by
  have hperm := (perm_byAge age entries).filter fun entry => entry ∉ victims age bound entries
  rw [← hperm.length_eq,
    ← List.take_append_drop (entries.length - bound) (byAge age entries), List.filter_append]
  have htaken : ((byAge age entries).take (entries.length - bound)).filter
      (fun entry => entry ∉ victims age bound entries) = [] :=
    List.filter_eq_nil_iff.mpr fun entry hmem => by
      rw [decide_eq_true_eq, not_not]
      exact hmem
  have hlength := (perm_byAge age entries).length_eq
  calc _ ≤ ((byAge age entries).drop (entries.length - bound)).length := by
        rw [htaken, List.nil_append]
        exact List.length_filter_le _ _
    _ ≤ bound := by
        rw [List.length_drop, hlength]
        omega

/-! ## The newest entry -/

/-- The first entry when the newest come first. -/
def newest (time : α → β) (entries : List α) : Option α :=
  (entries.insertionSort fun first second => time second ≤ time first).head?

theorem newest_eq_none_iff (time : α → β) {entries : List α} :
    newest time entries = none ↔ entries = [] := by
  rw [newest, List.head?_eq_none_iff]
  constructor
  · intro hnil
    have hperm := List.perm_insertionSort (fun first second => time second ≤ time first) entries
    rw [hnil] at hperm
    exact List.nil_perm.mp hperm
  · rintro rfl
    rfl

/-- The newest entry is an entry, and none is newer. -/
theorem le_of_newest {time : α → β} {entry : α} (h : newest time entries = some entry) :
    entry ∈ entries ∧ ∀ other ∈ entries, time other ≤ time entry := by
  have hperm := List.perm_insertionSort (fun first second => time second ≤ time first) entries
  have htotal : Std.Total fun first second : α => time second ≤ time first :=
    ⟨fun first second => le_total (time second) (time first)⟩
  have htrans : IsTrans α fun first second => time second ≤ time first :=
    ⟨fun _ _ _ hfirst hsecond => hsecond.trans hfirst⟩
  have hsorted := List.pairwise_insertionSort
    (fun first second : α => time second ≤ time first) entries
  obtain ⟨rest, hrest⟩ := List.head?_eq_some_iff.mp h
  rw [hrest] at hperm hsorted
  refine ⟨hperm.mem_iff.mp (List.mem_cons_self ..), fun other hother => ?_⟩
  rcases List.mem_cons.mp (hperm.mem_iff.mpr hother) with rfl | hmem
  · exact le_rfl
  · exact List.rel_of_pairwise_cons hsorted hmem

/-- An entry that is newer than all others is the newest one. -/
theorem newest_eq_of_lt (time : α → β) {entry : α} (hmem : entry ∈ entries)
    (hlt : ∀ other ∈ entries, other ≠ entry → time other < time entry) :
    newest time entries = some entry := by
  cases h : newest time entries with
  | none =>
      rw [(newest_eq_none_iff time).mp h] at hmem
      cases hmem
  | some other =>
      obtain ⟨hother, hle⟩ := le_of_newest h
      by_cases heq : other = entry
      · rw [heq]
      · exact absurd (hle entry hmem) (not_le.mpr (hlt other hother heq))

/-- Where another entry than the first one is the newest, it is newer than the first. -/
theorem lt_of_newest_cons {time : α → β} {first entry : α}
    (h : newest time (first :: entries) = some entry) (hne : entry ≠ first) :
    time first < time entry := by
  rw [newest, List.insertionSort_cons] at h
  cases hsorted : entries.insertionSort fun first second => time second ≤ time first with
  | nil =>
      rw [hsorted] at h
      exact absurd (Option.some.inj h).symm hne
  | cons second rest =>
      rw [hsorted, List.orderedInsert_cons] at h
      split at h
      · exact absurd (Option.some.inj h).symm hne
      · rename_i hlt
        rw [← Option.some.inj h]
        exact not_le.mp hlt

end Retention

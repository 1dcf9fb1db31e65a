import Mathlib.Data.Finset.Card
import UltimateBBSBox.Library.Dict

/-!
# Entries that outlast others

A dictionary that forgets its oldest entries keeps a key for as long as fewer other keys
than it has room for were touched after it.  `Recent` names a set that has all the keys
which come after a given one.
-/

namespace Dict

variable {α β : Type*} [DecidableEq α] {d : Dict α β} {k k' : α} {v v' : β}
  {touched touched' : Finset α}

/-- The key has the value, and the keys after it are among `touched`. -/
def Recent (d : Dict α β) (k : α) (v : β) (touched : Finset α) : Prop :=
  ∃ front rest, d.entries = front ++ (k, v) :: rest ∧ ∀ entry ∈ rest, entry.1 ∈ touched

theorem Recent.get? (h : d.Recent k v touched) : d.get? k = some v := by
  obtain ⟨front, rest, hentries, -⟩ := h
  apply get?_of_mem_entries
  rw [hentries]
  exact List.mem_append_right _ List.mem_cons_self

omit [DecidableEq α] in
theorem Recent.filterKeys (h : d.Recent k v touched) {keep : α → Bool} (hkeep : keep k = true) :
    (d.filterKeys keep).Recent k v touched := by
  obtain ⟨front, rest, hentries, hrest⟩ := h
  refine ⟨front.filter fun entry => keep entry.1, rest.filter fun entry => keep entry.1, ?_, ?_⟩
  · show d.entries.filter _ = _
    rw [hentries, List.filter_append, List.filter_cons_of_pos (by simpa using hkeep)]
  · exact fun entry hmem => hrest entry (List.mem_filter.mp hmem).1

theorem Recent.pop (h : d.Recent k v touched) (hne : k ≠ k') : (d.pop k').Recent k v touched :=
  h.filterKeys (decide_eq_true hne)

theorem Recent.popAll (h : d.Recent k v touched) {keys : List α} (hkeys : k ∉ keys) :
    (d.popAll keys).Recent k v touched := by
  rw [popAll_eq_filterKeys]
  exact h.filterKeys (decide_eq_true hkeys)

/-- The entries after an assignment to a key that has been taken out. -/
theorem entries_touch : ((d.pop k).set k v).entries = (d.pop k).entries ++ [(k, v)] := by
  apply setEntries_of_fresh
  intro entry hmem heq
  have hkept := (List.mem_filter.mp hmem).2
  simp [heq] at hkept

/-- A key that is touched comes after the others. -/
theorem Recent.touch (h : d.Recent k v touched) (hne : k ≠ k') :
    ((d.pop k').set k' v').Recent k v (insert k' touched) := by
  obtain ⟨front, rest, hentries, hrest⟩ := h.pop hne
  refine ⟨front, rest ++ [(k', v')], ?_, ?_⟩
  · rw [entries_touch, hentries, List.append_assoc, List.cons_append]
  · intro entry hmem
    rcases List.mem_append.mp hmem with hmem | hmem
    · exact Finset.mem_insert_of_mem (hrest entry hmem)
    · rw [List.mem_singleton.mp hmem]
      exact Finset.mem_insert_self _ _

/-- After a key that has just been touched there is none. -/
theorem recent_touch : ((d.pop k).set k v).Recent k v ∅ :=
  ⟨(d.pop k).entries, [], entries_touch, by simp⟩

/-- With room for one key more than was touched, the key stays. -/
theorem Recent.popOldest (h : d.Recent k v touched) {room : ℕ} (hroom : touched.card < room) :
    (d.popOldest (d.size - room)).Recent k v touched := by
  obtain ⟨front, rest, hentries, hrest⟩ := h
  have hafter : rest.length ≤ touched.card := by
    have hnodup : (rest.map Prod.fst).Nodup := by
      have hall := d.nodup
      rw [hentries, List.map_append, List.map_cons] at hall
      exact (List.nodup_cons.mp (List.nodup_append.mp hall).2.1).2
    have hsub : (rest.map Prod.fst).toFinset ⊆ touched := by
      intro key hkey
      obtain ⟨entry, hmem, rfl⟩ := List.mem_map.mp (List.mem_toFinset.mp hkey)
      exact hrest entry hmem
    have hcard := Finset.card_le_card hsub
    rwa [List.toFinset_card_of_nodup hnodup, List.length_map] at hcard
  have hsize : d.size = front.length + (rest.length + 1) := by
    unfold size
    rw [hentries, List.length_append, List.length_cons]
  have hfront : d.size - room ≤ front.length := by omega
  refine ⟨front.drop (d.size - room), rest, ?_, hrest⟩
  show d.entries.drop _ = _
  rw [hentries, List.drop_append_of_le_length hfront]

omit [DecidableEq α] in
theorem mem_of_mem_popOldest {n : ℕ} {entry : α × β} (h : entry ∈ (d.popOldest n).entries) :
    entry ∈ d.entries := List.mem_of_mem_drop h

end Dict

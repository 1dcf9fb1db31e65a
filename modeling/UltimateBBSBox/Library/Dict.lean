import Mathlib.Data.List.Basic
import Mathlib.Data.List.Nodup
import Mathlib.Algebra.BigOperators.Group.List.Basic
import Mathlib.Algebra.Order.BigOperators.Group.List
import Mathlib.Algebra.Order.Ring.Int
import Mathlib.Data.List.Sort

/-!
# Dictionaries that remember insertion order

A finite map kept as the list of its entries, in the order in which the keys
were first inserted.  Assigning to a key that is present keeps its place,
assigning to a new key appends it, and removing a key forgets its place.  No
key occurs twice, and the dictionary carries the proof.

Everything the developments need is stated on `get?` (what a key maps to) and
`size` (how many keys there are); the entry list itself stays inside this file
except for folds over the values.
-/

/-- A dictionary: entries in insertion order, no key twice. -/
structure Dict (α β : Type*) where
  entries : List (α × β)
  nodup : (entries.map Prod.fst).Nodup
deriving DecidableEq

namespace Dict

variable {α β : Type*} [DecidableEq α]

/-! ## Operations -/

/-- The empty dictionary. -/
def empty : Dict α β := ⟨[], List.nodup_nil⟩

instance : EmptyCollection (Dict α β) := ⟨empty⟩

instance : Inhabited (Dict α β) := ⟨empty⟩

/-- What a key maps to. -/
def get? (d : Dict α β) (k : α) : Option β :=
  (d.entries.find? fun entry => entry.1 = k).map Prod.snd

/-- What a key maps to, or a default. -/
def getD (d : Dict α β) (k : α) (default : β) : β := (d.get? k).getD default

/-- The number of keys. -/
def size (d : Dict α β) : ℕ := d.entries.length

/-- The values, in insertion order. -/
def values (d : Dict α β) : List β := d.entries.map Prod.snd

/-- Assignment on the entry list. -/
def setEntries (k : α) (v : β) : List (α × β) → List (α × β)
  | [] => [(k, v)]
  | (k', v') :: rest => if k' = k then (k, v) :: rest else (k', v') :: setEntries k v rest

theorem setEntries_of_fresh {k : α} {v : β} {entries : List (α × β)}
    (h : ∀ entry ∈ entries, entry.1 ≠ k) : setEntries k v entries = entries ++ [(k, v)] := by
  induction entries with
  | nil => rfl
  | cons entry rest ih =>
      rw [setEntries, if_neg (h entry List.mem_cons_self),
        ih fun e he => h e (List.mem_cons_of_mem _ he), List.cons_append]

theorem mem_keys_setEntries {k k' : α} {v : β} {entries : List (α × β)}
    (h : k' ∈ (setEntries k v entries).map Prod.fst) :
    k' = k ∨ k' ∈ entries.map Prod.fst := by
  induction entries with
  | nil => simpa [setEntries] using h
  | cons entry rest ih =>
      rw [setEntries] at h
      split at h
      · rcases List.mem_cons.mp h with rfl | h
        · exact .inl rfl
        · exact .inr (List.mem_cons_of_mem _ h)
      · rcases List.mem_cons.mp h with rfl | h
        · exact .inr (List.mem_cons_self ..)
        · exact (ih h).imp_right (List.mem_cons_of_mem _)

theorem nodup_setEntries (k : α) (v : β) {entries : List (α × β)}
    (h : (entries.map Prod.fst).Nodup) : ((setEntries k v entries).map Prod.fst).Nodup := by
  induction entries with
  | nil => simp [setEntries]
  | cons entry rest ih =>
      rw [List.map_cons, List.nodup_cons] at h
      rw [setEntries]
      split
      · rename_i hkey
        simpa [← hkey] using h
      · rename_i hkey
        rw [List.map_cons, List.nodup_cons]
        refine ⟨fun hmem => ?_, ih h.2⟩
        exact (mem_keys_setEntries hmem).elim hkey h.1

/-- `d[k] = v`. -/
def set (d : Dict α β) (k : α) (v : β) : Dict α β :=
  ⟨setEntries k v d.entries, nodup_setEntries k v d.nodup⟩

/-- Keep the entries whose key satisfies a test. -/
def filterKeys (d : Dict α β) (keep : α → Bool) : Dict α β :=
  ⟨d.entries.filter fun entry => keep entry.1, by
    rw [show (fun entry : α × β => keep entry.1) = keep ∘ Prod.fst from rfl, ← List.filter_map]
    exact d.nodup.filter _⟩

/-- `d.pop(k, None)`. -/
def pop (d : Dict α β) (k : α) : Dict α β := d.filterKeys fun k' => k' ≠ k

/-! ## Reading back -/

@[simp] theorem get?_empty (k : α) : (∅ : Dict α β).get? k = none := rfl

omit [DecidableEq α] in
@[simp] theorem size_empty : (∅ : Dict α β).size = 0 := rfl

omit [DecidableEq α] in
@[simp] theorem values_empty : (∅ : Dict α β).values = [] := rfl

theorem find?_setEntries (k k' : α) (v : β) (entries : List (α × β)) :
    ((setEntries k v entries).find? fun entry => entry.1 = k').map Prod.snd =
      if k' = k then some v else (entries.find? fun entry => entry.1 = k').map Prod.snd := by
  induction entries with
  | nil => by_cases h : k = k' <;> simp [setEntries, h, eq_comm]
  | cons entry rest ih =>
      rw [setEntries]
      split
      · rename_i hkey
        by_cases h : k = k' <;> simp [h, hkey, eq_comm]
      · rename_i hkey
        by_cases h : entry.1 = k'
        · simp [h, show k' ≠ k from fun heq => hkey (h.trans heq)]
        · simpa [h] using ih

theorem get?_set (d : Dict α β) (k k' : α) (v : β) :
    (d.set k v).get? k' = if k' = k then some v else d.get? k' :=
  find?_setEntries k k' v d.entries

@[simp] theorem get?_set_self (d : Dict α β) (k : α) (v : β) : (d.set k v).get? k = some v := by
  rw [get?_set, if_pos rfl]

@[simp] theorem get?_set_ne (d : Dict α β) {k k' : α} (v : β) (h : k' ≠ k) :
    (d.set k v).get? k' = d.get? k' := by
  rw [get?_set, if_neg h]

/-- Only the last assignment to a key counts. -/
@[simp] theorem set_set (d : Dict α β) (k : α) (v v' : β) : (d.set k v).set k v' = d.set k v' := by
  have hentries : ∀ entries : List (α × β),
      setEntries k v' (setEntries k v entries) = setEntries k v' entries := by
    intro entries
    induction entries with
    | nil => simp [setEntries]
    | cons entry rest ih =>
        by_cases hkey : entry.1 = k
        · simp [setEntries, hkey]
        · simp [setEntries, hkey, ih]
  simp only [set, hentries]

/-- Assigning what is there changes nothing. -/
theorem set_eq_self_of_get? {d : Dict α β} {k : α} {v : β} (h : d.get? k = some v) :
    d.set k v = d := by
  have hentries : ∀ entries : List (α × β),
      (entries.find? fun entry => entry.1 = k).map Prod.snd = some v →
      setEntries k v entries = entries := by
    intro entries hfind
    induction entries with
    | nil => simp at hfind
    | cons entry rest ih =>
        rw [setEntries]
        by_cases hkey : entry.1 = k
        · rw [List.find?_cons_of_pos (by simpa using hkey), Option.map_some,
            Option.some.injEq] at hfind
          rw [if_pos hkey, ← hkey, ← hfind]
        · rw [List.find?_cons_of_neg (by simpa using hkey)] at hfind
          rw [if_neg hkey, ih hfind]
  obtain ⟨entries, nodup⟩ := d
  simp only [set, hentries entries h]

theorem get?_filterKeys (d : Dict α β) (keep : α → Bool) (k : α) :
    (d.filterKeys keep).get? k = if keep k then d.get? k else none := by
  unfold get? filterKeys
  rw [List.find?_filter]
  split
  · rename_i h
    congr 2
    funext entry
    by_cases hkey : entry.1 = k <;> simp [hkey, h]
  · rename_i h
    rw [List.find?_eq_none.mpr, Option.map_none]
    intro entry _
    by_cases hkey : entry.1 = k <;> simp [hkey, h]

theorem get?_pop (d : Dict α β) (k k' : α) :
    (d.pop k).get? k' = if k' = k then none else d.get? k' := by
  rw [pop, get?_filterKeys]
  by_cases h : k' = k <;> simp [h]

@[simp] theorem get?_pop_self (d : Dict α β) (k : α) : (d.pop k).get? k = none := by
  rw [get?_pop, if_pos rfl]

@[simp] theorem get?_pop_ne (d : Dict α β) {k k' : α} (h : k' ≠ k) :
    (d.pop k).get? k' = d.get? k' := by
  rw [get?_pop, if_neg h]

@[simp] theorem getD_set_self (d : Dict α β) (k : α) (v x : β) : (d.set k v).getD k x = v := by
  simp [getD]

@[simp] theorem getD_pop_self (d : Dict α β) (k : α) (x : β) : (d.pop k).getD k x = x := by
  simp [getD]

/-! ## Membership of entries -/

theorem mem_entries_of_get? {d : Dict α β} {k : α} {v : β} (h : d.get? k = some v) :
    (k, v) ∈ d.entries := by
  obtain ⟨entry, hfind, rfl⟩ := Option.map_eq_some_iff.mp h
  have hkey : entry.1 = k := by simpa using List.find?_some hfind
  rw [← hkey]
  exact List.mem_of_find?_eq_some hfind

theorem get?_of_mem_entries {d : Dict α β} {k : α} {v : β} (h : (k, v) ∈ d.entries) :
    d.get? k = some v := by
  obtain ⟨entries, nodup⟩ := d
  unfold get?
  simp only at h ⊢
  induction entries with
  | nil => simp at h
  | cons entry rest ih =>
      rw [List.map_cons, List.nodup_cons] at nodup
      rcases List.mem_cons.mp h with rfl | hmem
      · simp
      · have hne : entry.1 ≠ k := fun heq =>
          nodup.1 (heq ▸ List.mem_map_of_mem hmem)
        rw [List.find?_cons_of_neg (by simpa using hne)]
        exact ih nodup.2 hmem

instance decidableForall (d : Dict α β) (p : α → β → Prop) [∀ k v, Decidable (p k v)] :
    Decidable (∀ k v, d.get? k = some v → p k v) :=
  decidable_of_iff (∀ entry ∈ d.entries, p entry.1 entry.2)
    ⟨fun h k v hget => h (k, v) (mem_entries_of_get? hget),
      fun h entry hmem => h entry.1 entry.2 (get?_of_mem_entries hmem)⟩

theorem mem_values_iff {d : Dict α β} {v : β} : v ∈ d.values ↔ ∃ k, d.get? k = some v := by
  constructor
  · intro h
    obtain ⟨⟨k, v'⟩, hmem, rfl⟩ := List.mem_map.mp h
    exact ⟨k, get?_of_mem_entries hmem⟩
  · rintro ⟨k, h⟩
    exact List.mem_map.mpr ⟨(k, v), mem_entries_of_get? h, rfl⟩

/-- Values that carry their key are told apart by it. -/
theorem nodup_map_values {d : Dict α β} {f : β → α} (h : ∀ k v, d.get? k = some v → f v = k) :
    (d.values.map f).Nodup := by
  have hkeys : d.values.map f = d.entries.map Prod.fst := by
    rw [values, List.map_map]
    exact List.map_congr_left fun entry hmem => h entry.1 entry.2 (get?_of_mem_entries hmem)
  rw [hkeys]
  exact d.nodup

/-- A dictionary without entries is one in which no key is found. -/
theorem size_eq_zero_iff {d : Dict α β} : d.size = 0 ↔ ∀ k, d.get? k = none := by
  constructor
  · intro h k
    rw [get?, List.length_eq_zero_iff.mp h]
    rfl
  · intro h
    refine List.length_eq_zero_iff.mpr (List.eq_nil_iff_forall_not_mem.mpr ?_)
    rintro ⟨k, v⟩ hmem
    simpa [h k] using get?_of_mem_entries hmem

/-! ## Counting keys -/

theorem size_set_of_get?_none {d : Dict α β} {k : α} (v : β) (h : d.get? k = none) :
    (d.set k v).size = d.size + 1 := by
  obtain ⟨entries, nodup⟩ := d
  unfold size set get? at *
  simp only [Option.map_eq_none_iff] at h ⊢
  clear nodup
  induction entries with
  | nil => rfl
  | cons entry rest ih =>
      rw [List.find?_cons] at h
      split at h
      · exact absurd h (by simp)
      · rename_i hkey
        rw [setEntries, if_neg (by simpa using hkey), List.length_cons, ih h, List.length_cons]

theorem size_pop_of_get?_some {d : Dict α β} {k : α} {v : β} (h : d.get? k = some v) :
    (d.pop k).size + 1 = d.size := by
  have hmem := mem_entries_of_get? h
  obtain ⟨entries, nodup⟩ := d
  unfold size pop filterKeys
  simp only at hmem ⊢
  clear h
  induction entries with
  | nil => simp at hmem
  | cons entry rest ih =>
      rw [List.map_cons, List.nodup_cons] at nodup
      rcases List.mem_cons.mp hmem with rfl | hmem
      · have hrest : ∀ entry ∈ rest, decide (entry.1 ≠ k) = true := by
          intro entry hentry
          have hkey : entry.1 ∈ rest.map Prod.fst := List.mem_map_of_mem hentry
          simpa using fun heq : entry.1 = k => nodup.1 (heq ▸ hkey)
        simp only [List.filter_cons, ne_eq, not_true_eq_false, decide_false, Bool.false_eq_true,
          if_false, List.length_cons]
        rw [List.filter_eq_self.mpr (by simpa using hrest)]
      · have hne : entry.1 ≠ k := fun heq =>
          nodup.1 (heq ▸ List.mem_map_of_mem hmem)
        rw [List.filter_cons_of_pos (by simpa using hne), List.length_cons, ih nodup.2 hmem,
          List.length_cons]

theorem pop_eq_self_of_get?_none {d : Dict α β} {k : α} (h : d.get? k = none) : d.pop k = d := by
  obtain ⟨entries, nodup⟩ := d
  unfold pop filterKeys
  congr 1
  refine List.filter_eq_self.mpr fun entry hentry => ?_
  by_contra hkey
  have := get?_of_mem_entries (d := ⟨entries, nodup⟩) (k := entry.1) (v := entry.2) hentry
  simp_all

/-! ## Sums of positive values -/

/-- A dictionary of positive counts sums to zero only when it is empty: a key
that is present keeps the sum positive. -/
theorem sum_values_pos {d : Dict α ℤ} (hpos : ∀ k v, d.get? k = some v → 0 < v) {k : α}
    (hk : d.get? k ≠ none) : 0 < d.values.sum := by
  refine List.sum_pos _ (fun v hv => ?_) fun hnil => hk ?_
  · obtain ⟨k, h⟩ := mem_values_iff.mp hv
    exact hpos k v h
  · exact size_eq_zero_iff.mp (by simpa [values, size] using hnil) k

/-! ## Building and merging -/

section Building

variable {γ : Type*}

/-- The assignments of a list, one after the other. -/
def ofList (entries : List (α × β)) : Dict α β :=
  entries.foldl (fun d entry => d.set entry.1 entry.2) ∅

/-- `d.update(other)`. -/
def update (d other : Dict α β) : Dict α β :=
  other.entries.foldl (fun d entry => d.set entry.1 entry.2) d

omit [DecidableEq α] in
/-- The same keys with other values. -/
def mapValues (d : Dict α β) (f : α → β → γ) : Dict α γ where
  entries := d.entries.map fun entry => (entry.1, f entry.1 entry.2)
  nodup := by
    rw [List.map_map]
    exact d.nodup

omit [DecidableEq α] in
/-- The same values under other keys. -/
def mapKeys {α' : Type*} (d : Dict α β) (f : α ↪ α') : Dict α' β where
  entries := d.entries.map fun entry => (f entry.1, entry.2)
  nodup := by
    rw [List.map_map, show Prod.fst ∘ (fun entry : α × β => (f entry.1, entry.2)) = f ∘ Prod.fst from rfl,
      ← List.map_map]
    exact d.nodup.map f.injective

omit [DecidableEq α] in
theorem filterKeys_mapKeys {α' : Type*} (d : Dict α β) (f : α ↪ α')
    (keep : α' → Bool) :
    (d.mapKeys f).filterKeys keep = (d.filterKeys fun k => keep (f k)).mapKeys f := by
  simp only [mapKeys, filterKeys, List.filter_map]
  rfl

/-- Remove keys, one after the other. -/
def popAll (d : Dict α β) (keys : List α) : Dict α β := keys.foldl pop d

theorem get?_foldl_set (entries : List (α × β)) (d : Dict α β) (k : α) :
    (entries.foldl (fun d entry => d.set entry.1 entry.2) d).get? k =
      ((entries.reverse.find? fun entry => entry.1 = k).map Prod.snd).or (d.get? k) := by
  induction entries generalizing d with
  | nil => simp
  | cons entry rest ih =>
      rw [List.foldl_cons, ih, get?_set, List.reverse_cons, List.find?_append]
      cases hlater : rest.reverse.find? fun entry => entry.1 = k with
      | some later => simp
      | none => by_cases hkey : k = entry.1 <;> simp [hkey, eq_comm]

theorem mem_of_get?_ofList {entries : List (α × β)} {k : α} {v : β}
    (h : (ofList entries).get? k = some v) : (k, v) ∈ entries := by
  rw [ofList, get?_foldl_set, get?_empty, Option.or_none] at h
  obtain ⟨entry, hfind, rfl⟩ := Option.map_eq_some_iff.mp h
  have hkey : entry.1 = k := by simpa using List.find?_some hfind
  rw [← hkey]
  exact List.mem_reverse.mp (List.mem_of_find?_eq_some hfind)

theorem get?_ofList_ne_none {entries : List (α × β)} {k : α} {v : β} (h : (k, v) ∈ entries) :
    ∃ v', (ofList entries).get? k = some v' := by
  rw [ofList, get?_foldl_set, get?_empty, Option.or_none]
  cases hfind : entries.reverse.find? fun entry => entry.1 = k with
  | some entry => exact ⟨entry.2, rfl⟩
  | none =>
      have hmem := List.mem_reverse.mpr h
      exact absurd (decide_eq_true rfl) (List.find?_eq_none.mp hfind (k, v) hmem)

theorem get?_update (d other : Dict α β) (k : α) :
    (d.update other).get? k = (other.get? k).or (d.get? k) := by
  rw [update, get?_foldl_set]
  congr 1
  cases hget : other.get? k with
  | none =>
      rw [Option.map_eq_none_iff, List.find?_eq_none]
      intro entry hmem hkey
      rw [← show entry.1 = k by simpa using hkey,
        get?_of_mem_entries (v := entry.2) (List.mem_reverse.mp hmem)] at hget
      cases hget
  | some v =>
      cases hfind : other.entries.reverse.find? fun entry => entry.1 = k with
      | none =>
          have hmem := List.mem_reverse.mpr (mem_entries_of_get? hget)
          exact absurd (decide_eq_true rfl) (List.find?_eq_none.mp hfind (k, v) hmem)
      | some entry =>
          have hkey : entry.1 = k := by simpa using List.find?_some hfind
          have hmem : (entry.1, entry.2) ∈ other.entries :=
            List.mem_reverse.mp (List.mem_of_find?_eq_some hfind)
          rw [← hkey, get?_of_mem_entries hmem] at hget
          rw [Option.map_some, ← hget]

omit [DecidableEq α] in
@[simp] theorem mapValues_id (d : Dict α β) : (d.mapValues fun _ v => v) = d := by
  simp [mapValues]

omit [DecidableEq α] in
@[simp] theorem mapValues_mapValues {δ : Type*} (d : Dict α β) (f : α → β → γ) (g : α → γ → δ) :
    (d.mapValues f).mapValues g = d.mapValues fun k v => g k (f k v) := by
  simp [mapValues]

theorem get?_mapValues (d : Dict α β) (f : α → β → γ) (k : α) :
    (d.mapValues f).get? k = (d.get? k).map (f k) := by
  rw [mapValues, get?, get?, List.find?_map, Option.map_map, Option.map_map]
  cases hfind : d.entries.find? ((fun entry : α × γ => decide (entry.1 = k)) ∘
      fun entry => (entry.1, f entry.1 entry.2)) with
  | none =>
      rw [show (d.entries.find? fun entry => decide (entry.1 = k)) = none from hfind]
      rfl
  | some entry =>
      rw [show (d.entries.find? fun entry => decide (entry.1 = k)) = some entry from hfind]
      have hkey : entry.1 = k := by simpa using List.find?_some hfind
      simp [hkey]

theorem exists_of_get?_mapKeys {α' : Type*} [DecidableEq α'] {d : Dict α β} {f : α ↪ α'} {k' : α'}
    {v : β} (h : (d.mapKeys f).get? k' = some v) : ∃ k, k' = f k ∧ d.get? k = some v := by
  obtain ⟨entry, hentry, heq⟩ := List.mem_map.mp (mem_entries_of_get? h)
  obtain ⟨rfl, rfl⟩ := Prod.mk.inj heq
  exact ⟨entry.1, rfl, get?_of_mem_entries hentry⟩

theorem popAll_eq_filterKeys (d : Dict α β) (keys : List α) :
    d.popAll keys = d.filterKeys fun k => k ∉ keys := by
  induction keys generalizing d with
  | nil => simp [popAll, filterKeys]
  | cons key rest ih =>
      rw [popAll, List.foldl_cons, ← popAll, ih]
      simp only [pop, filterKeys, List.filter_filter, Dict.mk.injEq]
      congr 1
      funext entry
      by_cases hkey : entry.1 = key <;> simp [hkey]

/-- Assignments to new keys are appended. -/
theorem entries_foldl_set (entries : List (α × β)) (d : Dict α β)
    (hnodup : ((d.entries ++ entries).map Prod.fst).Nodup) :
    (entries.foldl (fun d entry => d.set entry.1 entry.2) d).entries = d.entries ++ entries := by
  induction entries generalizing d with
  | nil => simp
  | cons entry rest ih =>
      have hnew : (d.set entry.1 entry.2).entries = d.entries ++ [entry] := by
        rw [List.map_append, List.map_cons, List.nodup_append] at hnodup
        have hfresh : ∀ e ∈ d.entries, e.1 ≠ entry.1 := fun e he =>
          hnodup.2.2 e.1 (List.mem_map_of_mem he) entry.1 List.mem_cons_self
        exact setEntries_of_fresh hfresh
      rw [List.foldl_cons, ih _ (by rwa [hnew, List.append_assoc, List.singleton_append]), hnew,
        List.append_assoc, List.singleton_append]

/-- A dictionary is built again from its entries. -/
theorem ofList_entries (d : Dict α β) : ofList d.entries = d := by
  have h : (ofList d.entries).entries = d.entries :=
    entries_foldl_set d.entries (∅ : Dict α β) d.nodup
  cases hbuilt : ofList d.entries with
  | mk entries nodup =>
      rw [hbuilt] at h
      cases d
      cases h
      rfl

omit [DecidableEq α] in
/-- Forget the `n` entries that have been there longest. -/
def popOldest (d : Dict α β) (n : ℕ) : Dict α β where
  entries := d.entries.drop n
  nodup := by
    rw [List.map_drop]
    exact d.nodup.sublist (List.drop_sublist _ _)

omit [DecidableEq α] in
theorem size_popOldest (d : Dict α β) (n : ℕ) : (d.popOldest n).size = d.size - n :=
  List.length_drop

theorem size_pop_le (d : Dict α β) (k : α) : (d.pop k).size ≤ d.size :=
  List.length_filter_le _ _

end Building

section Sorted

variable [LinearOrder α]

omit [DecidableEq α] in
/-- The entries in the order of their keys. -/
def sortKeys (d : Dict α β) : Dict α β where
  entries := d.entries.insertionSort fun first second => first.1 ≤ second.1
  nodup := ((List.perm_insertionSort _ d.entries).map Prod.fst).nodup_iff.mpr d.nodup

omit [DecidableEq α] in
theorem mem_entries_sortKeys {d : Dict α β} {entry : α × β} :
    entry ∈ d.sortKeys.entries ↔ entry ∈ d.entries :=
  (List.perm_insertionSort _ d.entries).mem_iff

theorem get?_sortKeys (d : Dict α β) (k : α) : d.sortKeys.get? k = d.get? k := by
  apply Option.ext
  intro v
  constructor
  · intro h
    exact get?_of_mem_entries (mem_entries_sortKeys.mp (mem_entries_of_get? h))
  · intro h
    exact get?_of_mem_entries (mem_entries_sortKeys.mpr (mem_entries_of_get? h))

omit [DecidableEq α] in
/-- Sorting a second time changes nothing. -/
@[simp] theorem sortKeys_sortKeys (d : Dict α β) : d.sortKeys.sortKeys = d.sortKeys := by
  rw [Dict.mk.injEq]
  exact (List.pairwise_insertionSort _ d.entries).insertionSort_eq

omit [DecidableEq α] in
/-- What is sorted may be replaced key by key before or after. -/
theorem sortKeys_mapValues (d : Dict α β) (f : α → β → γ) :
    (d.mapValues f).sortKeys = d.sortKeys.mapValues f := by
  rw [Dict.mk.injEq]
  exact (List.map_insertionSort (fun e e' : α × β => e.1 ≤ e'.1)
    (fun e e' : α × γ => e.1 ≤ e'.1) _ d.entries fun _ _ _ _ => Iff.rfl).symm

omit [DecidableEq α] in
/-- A filter has nothing to do where it has been applied before sorting. -/
@[simp] theorem filterKeys_sortKeys (d : Dict α β) (keep : α → Bool) :
    (d.filterKeys keep).sortKeys.filterKeys keep = (d.filterKeys keep).sortKeys := by
  rw [Dict.mk.injEq]
  refine List.filter_eq_self.mpr fun entry hentry => ?_
  exact (List.mem_filter.mp (mem_entries_sortKeys.mp hentry)).2

end Sorted

end Dict

import Mathlib.Data.List.Nodup
import Mathlib.Data.List.Sort
import Mathlib.Order.Basic
import UltimateBBSBox.Library.Dict

/-!
# Values indexed by a key of their own

An index is a list of values no two of which have the same key, in the order in
which they were added.  Adding a value either extends the index or finds the
value that already has the key.

A whole list can be added in two ways.  `addAll` stops at the first key that is
taken; `collect` goes on, leaves the first value of each key in place and keeps
the clashes.  One goes through exactly when the other finds no clash, that is,
when the keys of the index and of the list are all different
(`addAll_ok_iff`, `collect_eq_iff`).
-/

/-- Values in the order of their insertion, no two of one key. -/
structure Index {α β : Type*} (key : β → α) where
  values : List β
  nodup : (values.map key).Nodup

namespace Index

variable {α β : Type*} {key : β → α}

/-- The index without values. -/
def empty : Index key := ⟨[], List.nodup_nil⟩

instance : EmptyCollection (Index key) := ⟨empty⟩

instance : Inhabited (Index key) := ⟨empty⟩

@[simp] theorem values_empty : (∅ : Index key).values = [] := rfl

@[ext (iff := false)] theorem ext {first second : Index key} (h : first.values = second.values) :
    first = second := by
  obtain ⟨values, _⟩ := first
  obtain ⟨values', _⟩ := second
  simpa using h

section Lookup

variable [DecidableEq α]

/-- The value of a key. -/
def get? (index : Index key) (k : α) : Option β := index.values.find? fun value => key value = k

theorem get?_eq_none_iff {index : Index key} {k : α} :
    index.get? k = none ↔ ∀ value ∈ index.values, key value ≠ k := by
  simp [get?]

theorem get?_eq_some_iff {index : Index key} {k : α} {value : β} :
    index.get? k = some value ↔ value ∈ index.values ∧ key value = k := by
  obtain ⟨values, nodup⟩ := index
  constructor
  · intro h
    exact ⟨List.mem_of_find?_eq_some h, by simpa using List.find?_some h⟩
  · rintro ⟨hmem, rfl⟩
    simp only [get?] at hmem ⊢
    induction values with
    | nil => simp at hmem
    | cons first rest ih =>
        rw [List.map_cons, List.nodup_cons] at nodup
        rcases List.mem_cons.mp hmem with rfl | hrest
        · simp
        · have hne : key first ≠ key value := fun heq =>
            nodup.1 (heq ▸ List.mem_map_of_mem hrest)
          simpa [hne] using ih nodup.2 hrest

/-- Add a value, unless its key is taken: then the value that has it is returned. -/
def add (index : Index key) (value : β) : Except β (Index key) :=
  match h : index.get? (key value) with
  | some first => .error first
  | none =>
      .ok
        { values := index.values ++ [value]
          nodup := by
            have hfresh := get?_eq_none_iff.mp h
            simp only [List.map_append, List.map_cons, List.map_nil]
            refine index.nodup.append (List.nodup_singleton _) ?_
            intro k hk hk'
            obtain ⟨other, hother, rfl⟩ := List.mem_map.mp hk
            exact hfresh other hother (List.mem_singleton.mp hk') }

theorem values_of_add {index index' : Index key} {value : β} (h : index.add value = .ok index') :
    index'.values = index.values ++ [value] := by
  unfold add at h
  split at h
  · cases h
  · cases h
    rfl

/-- A value is added exactly when its key is new. -/
theorem add_ok_iff {index : Index key} {value : β} :
    (∃ index', index.add value = .ok index') ↔ key value ∉ index.values.map key := by
  unfold add
  split
  · rename_i first hfirst
    obtain ⟨hmem, hkey⟩ := get?_eq_some_iff.mp hfirst
    constructor
    · rintro ⟨_, h⟩
      cases h
    · intro hfresh
      exact absurd (hkey ▸ List.mem_map_of_mem hmem) hfresh
  · rename_i hnone
    refine ⟨fun _ hmem => ?_, fun _ => ⟨_, rfl⟩⟩
    obtain ⟨other, hother, hkey⟩ := List.mem_map.mp hmem
    exact get?_eq_none_iff.mp hnone other hother hkey

/-! ## Adding a list -/

/-- Add the values in turn, up to the first one whose key is taken. -/
def addAll (index : Index key) : List β → Except β (Index key)
  | [] => .ok index
  | value :: rest =>
      match index.add value with
      | .error first => .error first
      | .ok index' => addAll index' rest

/-- Add the values in turn and pass over the ones whose key is taken.  Beside the
index stand the clashes: the value that has the key and the one passed over. -/
def collect (index : Index key) : List β → Index key × List (β × β)
  | [] => (index, [])
  | value :: rest =>
      match index.add value with
      | .error first =>
          let (final, clashes) := collect index rest
          (final, (first, value) :: clashes)
      | .ok index' => collect index' rest

theorem addAll_values {index final : Index key} {values : List β}
    (h : index.addAll values = .ok final) : final.values = index.values ++ values := by
  induction values generalizing index with
  | nil =>
      cases h
      simp
  | cons value rest ih =>
      rw [addAll] at h
      split at h
      · cases h
      · rename_i index' hadd
        rw [ih h, values_of_add hadd, List.append_assoc, List.singleton_append]

/-- A list goes in exactly when its keys and those of the index are all different. -/
theorem addAll_ok_iff (index : Index key) (values : List β) :
    (∃ final, index.addAll values = .ok final) ↔ ((index.values ++ values).map key).Nodup := by
  induction values generalizing index with
  | nil => simpa [addAll] using index.nodup
  | cons value rest ih =>
      rw [addAll]
      cases hadd : index.add value with
      | error first =>
          have htaken : key value ∈ index.values.map key := by
            by_contra hfresh
            obtain ⟨_, h⟩ := add_ok_iff.mpr hfresh
            rw [hadd] at h
            cases h
          constructor
          · rintro ⟨_, h⟩
            cases h
          · intro hnodup
            rw [List.map_append, List.map_cons] at hnodup
            exact absurd (List.mem_cons_self ..) (hnodup.disjoint htaken)
      | ok index' =>
          simp only
          rw [ih, values_of_add hadd, List.append_assoc, List.singleton_append]

/-- Going on finds no clash exactly where stopping early is not needed, and then
both end with the same index. -/
theorem collect_eq_iff {index final : Index key} {values : List β} :
    index.collect values = (final, []) ↔ index.addAll values = .ok final := by
  induction values generalizing index with
  | nil => simp [collect, addAll]
  | cons value rest ih =>
      rw [collect, addAll]
      cases index.add value with
      | error first => simp
      | ok index' => exact ih

end Lookup

/-! ## Parts of an index -/

/-- The values that `f` keeps, under keys that are different where the old ones are. -/
def filterMap {γ δ : Type*} {key' : γ → δ} (index : Index key) (f : β → Option γ)
    (h : ∀ {value value' image image'}, f value = some image → f value' = some image' →
      key' image = key' image' → key value = key value') : Index key' where
  values := index.values.filterMap f
  nodup := by
    have hdistinct : index.values.Pairwise fun value value' => key value ≠ key value' :=
      List.pairwise_map.mp index.nodup
    refine List.pairwise_map.mpr (List.pairwise_filterMap.mpr (hdistinct.imp ?_))
    intro value value' hne image himage image' himage' heq
    exact hne (h himage himage' heq)

section Dictionary

variable [DecidableEq α]

/-- The index as a dictionary. -/
def toDict (index : Index key) : Dict α β where
  entries := index.values.map fun value => (key value, value)
  nodup := by simpa [Function.comp_def] using index.nodup

@[simp] theorem get?_toDict (index : Index key) (k : α) : index.toDict.get? k = index.get? k := by
  simp [toDict, Dict.get?, get?, List.find?_map, Function.comp_def]

omit [DecidableEq α] in
@[simp] theorem values_toDict (index : Index key) : index.toDict.values = index.values := by
  simp [toDict, Dict.values, Function.comp_def]

end Dictionary

/-! ## The index in the order of its keys -/

section Sorted

variable [LinearOrder α]

/-- The same values in the order of their keys. -/
def sorted (index : Index key) : Index key where
  values := index.values.insertionSort fun first second => key first ≤ key second
  nodup := ((List.perm_insertionSort _ index.values).map key).nodup_iff.mpr index.nodup

@[simp] theorem mem_sorted {index : Index key} {value : β} :
    value ∈ index.sorted.values ↔ value ∈ index.values :=
  (List.perm_insertionSort _ index.values).mem_iff

theorem sorted_pairwise (index : Index key) :
    index.sorted.values.Pairwise fun first second => key first < key second := by
  have hle : index.sorted.values.Pairwise fun first second => key first ≤ key second := by
    have htotal : Std.Total fun first second : β => key first ≤ key second :=
      ⟨fun first second => le_total (key first) (key second)⟩
    have htrans : IsTrans β fun first second => key first ≤ key second :=
      ⟨fun _ _ _ => le_trans⟩
    exact List.pairwise_insertionSort _ index.values
  have hne : index.sorted.values.Pairwise fun first second => key first ≠ key second :=
    List.pairwise_map.mp index.sorted.nodup
  exact hle.imp₂ (fun _ _ h h' => lt_of_le_of_ne h h') hne

theorem get?_sorted (index : Index key) (k : α) : index.sorted.get? k = index.get? k := by
  apply Option.ext
  intro value
  rw [get?_eq_some_iff, get?_eq_some_iff, mem_sorted]

end Sorted

end Index

import UltimateBBSBox.Archive.Values

/-!
# Objects with sorted keys

A writer that sorts the keys of every object changes the order of fields and
nothing else.  `Value.Same` is the equality of values that does not see that
order; `Value.sortKeys` stays within it (`Value.same_sortKeys`), finds under a key
what was there before (`Value.get?_sorted`), and has nothing to do the second
time (`Value.sortKeys_sortKeys`).
-/

namespace UltimateBBSBox.Archive

/-- The fields of an object whose keys are sorted throughout. -/
def Fields.sorted (fields : Fields) : Fields :=
  (Value.sortFields fields).insertionSort fun field field' => field.1 ≤ field'.1

namespace Value

/-! ## Fields under their keys -/

/-- Inserting by the key hides no field: it goes in front of those with its own key. -/
theorem find?_orderedInsert (field : Text × Value) (fields : Fields) (key : Text) :
    (fields.orderedInsert (fun f g => f.1 ≤ g.1) field).find? (fun f => f.1 = key) =
      (field :: fields).find? fun f => f.1 = key := by
  induction fields with
  | nil => rfl
  | cons first rest ih =>
      rw [List.orderedInsert_cons]
      split
      · rfl
      · rename_i hgreater
        have hne : field.1 ≠ first.1 := fun heq => hgreater (le_of_eq heq)
        rw [List.find?_cons, ih, List.find?_cons, List.find?_cons, List.find?_cons]
        by_cases hfield : field.1 = key
        · have hfirst : first.1 ≠ key := fun heq => hne (hfield.trans heq.symm)
          simp [hfield, hfirst]
        · simp [hfield]

theorem find?_insertionSort (fields : Fields) (key : Text) :
    (fields.insertionSort fun f g => f.1 ≤ g.1).find? (fun f => f.1 = key) =
      fields.find? fun f => f.1 = key := by
  induction fields with
  | nil => rfl
  | cons field rest ih =>
      rw [List.insertionSort_cons, find?_orderedInsert, List.find?_cons, ih, List.find?_cons]

theorem find?_sortFields (fields : Fields) (key : Text) :
    ((sortFields fields).find? fun f => f.1 = key).map Prod.snd =
      ((fields.find? fun f => f.1 = key).map Prod.snd).map sortKeys := by
  induction fields with
  | nil => rfl
  | cons field rest ih =>
      obtain ⟨name, value⟩ := field
      rw [sortFields, List.find?_cons, List.find?_cons]
      by_cases hkey : name = key
      · simp [hkey]
      · simpa [hkey] using ih

/-- A field of a value that was read back. -/
@[simp] theorem get?_sorted (fields : Fields) (key : String) :
    Fields.get? ((sortFields fields).insertionSort fun f g => f.1 ≤ g.1) key =
      (fields.get? key).map sortKeys := by
  unfold Fields.get?
  rw [find?_insertionSort, find?_sortFields]

theorem sortItems_eq_map (items : List Value) : sortItems items = items.map sortKeys := by
  induction items with
  | nil => rfl
  | cons item rest ih => rw [sortItems, ih, List.map_cons]

theorem length_sortFields (fields : Fields) : (sortFields fields).length = fields.length := by
  induction fields with
  | nil => rfl
  | cons field rest ih => rw [sortFields, List.length_cons, ih, List.length_cons]

/-- No keys are added. -/
theorem exists_key_of_mem_sortFields {fields : Fields} {field : Text × Value}
    (h : field ∈ sortFields fields) : ∃ field' ∈ fields, field.1 = field'.1 := by
  induction fields with
  | nil => cases h
  | cons first rest ih =>
      rw [sortFields] at h
      rcases List.mem_cons.mp h with rfl | hmem
      · exact ⟨first, List.mem_cons_self, rfl⟩
      · obtain ⟨field', hfield', hkey⟩ := ih hmem
        exact ⟨field', List.mem_cons_of_mem _ hfield', hkey⟩

/-! ## Equality up to the order of fields -/

mutual

/-- Equal as values: arrays item by item, objects as mappings. -/
inductive Same : Value → Value → Prop
  | refl (x : Value) : Same x x
  | array {xs ys : List Value} : SameItems xs ys → Same (.array xs) (.array ys)
  | object {fs gs : Fields} : SameFields fs gs → Same (.object fs) (.object gs)

inductive SameItems : List Value → List Value → Prop
  | nil : SameItems [] []
  | cons {x y : Value} {xs ys : List Value} : Same x y → SameItems xs ys →
      SameItems (x :: xs) (y :: ys)

inductive SameFields : Fields → Fields → Prop
  | nil : SameFields [] []
  | cons {k : Text} {x y : Value} {fs gs : Fields} : Same x y → SameFields fs gs →
      SameFields ((k, x) :: fs) ((k, y) :: gs)
  | swap {f g : Text × Value} {fs : Fields} : SameFields (f :: g :: fs) (g :: f :: fs)
  | trans {fs gs hs : Fields} : SameFields fs gs → SameFields gs hs → SameFields fs hs

end

theorem sameFields_of_perm {fs gs : Fields} (h : fs.Perm gs) : SameFields fs gs := by
  induction h with
  | nil => exact .nil
  | cons f _ ih => exact .cons (.refl f.2) ih
  | swap f g fs => exact .swap
  | trans _ _ ih ih' => exact ih.trans ih'

theorem SameFields.perm_keys {fs gs : Fields} : SameFields fs gs →
    (fs.map Prod.fst).Perm (gs.map Prod.fst)
  | .nil => .nil
  | .cons _ h => h.perm_keys.cons _
  | .swap => .swap _ _ _
  | .trans h h' => h.perm_keys.trans h'.perm_keys

/-! ## Sorting -/

theorem sortFields_eq_map (fields : Fields) :
    sortFields fields = fields.map fun f => (f.1, f.2.sortKeys) := by
  induction fields with
  | nil => rfl
  | cons f rest ih => rw [sortFields, ih, List.map_cons]

mutual

theorem same_sortKeys (value : Value) : Same value value.sortKeys := by
  cases value with
  | array items => exact .array (sameItems_sortItems items)
  | object fields =>
      refine .object ((sameFields_sortFields fields).trans (sameFields_of_perm ?_))
      exact (List.perm_insertionSort _ _).symm
  | _ => exact .refl _

theorem sameItems_sortItems (items : List Value) : SameItems items (sortItems items) := by
  cases items with
  | nil => exact .nil
  | cons item rest => exact .cons (same_sortKeys item) (sameItems_sortItems rest)

theorem sameFields_sortFields (fields : Fields) : SameFields fields (sortFields fields) := by
  cases fields with
  | nil => exact .nil
  | cons f rest => exact .cons (same_sortKeys f.2) (sameFields_sortFields rest)

end

/-- Sorting values that are sorted already leaves the fields alone. -/
theorem sortFields_eq_self {fields : Fields} (h : ∀ f ∈ fields, f.2.sortKeys = f.2) :
    sortFields fields = fields := by
  rw [sortFields_eq_map]
  conv_rhs => rw [← List.map_id fields]
  refine List.map_congr_left fun f hf => ?_
  rw [h f hf, id]

mutual

theorem sortKeys_sortKeys (value : Value) : value.sortKeys.sortKeys = value.sortKeys := by
  cases value with
  | array items => simp only [sortKeys, sortItems_sortItems items]
  | object fields =>
      simp only [sortKeys, object.injEq]
      rw [sortFields_eq_self fun f hf => ?_]
      · exact (List.pairwise_insertionSort _ _).insertionSort_eq
      · exact sortKeys_of_mem_sortFields fields f ((List.mem_insertionSort _).mp hf)
  | _ => rfl

theorem sortItems_sortItems (items : List Value) :
    sortItems (sortItems items) = sortItems items := by
  cases items with
  | nil => rfl
  | cons item rest =>
      simp only [sortItems, sortKeys_sortKeys item, sortItems_sortItems rest]

theorem sortKeys_of_mem_sortFields (fields : Fields) :
    ∀ f ∈ sortFields fields, f.2.sortKeys = f.2 := by
  cases fields with
  | nil => exact fun f hf => nomatch hf
  | cons g rest =>
      intro f hf
      rw [sortFields, List.mem_cons] at hf
      rcases hf with rfl | hf
      · exact sortKeys_sortKeys g.2
      · exact sortKeys_of_mem_sortFields rest f hf

end

/-! ## What holds everywhere in a value -/

mutual

/-- A property of the values that hold no others, and one of the keys of each object. -/
def Everywhere (leaf : Value → Prop) (keys : List Text → Prop) : Value → Prop
  | .array items => EverywhereItems leaf keys items
  | .object fields => keys (fields.map Prod.fst) ∧ EverywhereFields leaf keys fields
  | value => leaf value

def EverywhereItems (leaf : Value → Prop) (keys : List Text → Prop) : List Value → Prop
  | [] => True
  | item :: rest => Everywhere leaf keys item ∧ EverywhereItems leaf keys rest

def EverywhereFields (leaf : Value → Prop) (keys : List Text → Prop) : Fields → Prop
  | [] => True
  | (_, value) :: rest => Everywhere leaf keys value ∧ EverywhereFields leaf keys rest

end

mutual

/-- What holds everywhere is decided along the structure of the value. -/
def decEverywhere (leaf : Value → Prop) (keys : List Text → Prop) [DecidablePred leaf]
    [DecidablePred keys] : (value : Value) → Decidable (Everywhere leaf keys value)
  | .array items => decEverywhereItems leaf keys items
  | .object fields =>
      have := decEverywhereFields leaf keys fields
      inferInstanceAs (Decidable (keys (fields.map Prod.fst) ∧ EverywhereFields leaf keys fields))
  | .null => inferInstanceAs (Decidable (leaf .null))
  | .bool b => inferInstanceAs (Decidable (leaf (.bool b)))
  | .number n => inferInstanceAs (Decidable (leaf (.number n)))
  | .text t => inferInstanceAs (Decidable (leaf (.text t)))

def decEverywhereItems (leaf : Value → Prop) (keys : List Text → Prop) [DecidablePred leaf]
    [DecidablePred keys] : (items : List Value) → Decidable (EverywhereItems leaf keys items)
  | [] => isTrue trivial
  | item :: rest =>
      have := decEverywhere leaf keys item
      have := decEverywhereItems leaf keys rest
      inferInstanceAs (Decidable (Everywhere leaf keys item ∧ EverywhereItems leaf keys rest))

def decEverywhereFields (leaf : Value → Prop) (keys : List Text → Prop) [DecidablePred leaf]
    [DecidablePred keys] : (fields : Fields) → Decidable (EverywhereFields leaf keys fields)
  | [] => isTrue trivial
  | (_, value) :: rest =>
      have := decEverywhere leaf keys value
      have := decEverywhereFields leaf keys rest
      inferInstanceAs (Decidable (Everywhere leaf keys value ∧ EverywhereFields leaf keys rest))

end

instance (leaf : Value → Prop) (keys : List Text → Prop) [DecidablePred leaf] [DecidablePred keys]
    (value : Value) : Decidable (Everywhere leaf keys value) := decEverywhere leaf keys value

section Everywhere

variable {leaf : Value → Prop} {keys : List Text → Prop}

theorem everywhereItems_iff {items : List Value} :
    EverywhereItems leaf keys items ↔ ∀ item ∈ items, Everywhere leaf keys item := by
  induction items with
  | nil => exact ⟨fun _ _ h => (by cases h), fun _ => trivial⟩
  | cons item rest ih => rw [EverywhereItems, ih, List.forall_mem_cons]

theorem everywhereFields_iff {fields : Fields} :
    EverywhereFields leaf keys fields ↔ ∀ field ∈ fields, Everywhere leaf keys field.2 := by
  induction fields with
  | nil => exact ⟨fun _ _ h => (by cases h), fun _ => trivial⟩
  | cons field rest ih => rw [EverywhereFields, ih, List.forall_mem_cons]

/-- What holds everywhere holds of every field. -/
theorem Everywhere.get? {fields : Fields} {key : String} {value : Value}
    (h : Everywhere leaf keys (.object fields)) (hget : fields.get? key = some value) :
    Everywhere leaf keys value := by
  obtain ⟨field, hfind, rfl⟩ := Option.map_eq_some_iff.mp hget
  exact everywhereFields_iff.mp h.2 field (List.mem_of_find?_eq_some hfind)

mutual

/-- Sorting keeps what holds everywhere and does not depend on the order of keys. -/
theorem Everywhere.sortKeys (hperm : ∀ ks ks', ks.Perm ks' → keys ks → keys ks') (value : Value)
    (h : Everywhere leaf keys value) : Everywhere leaf keys value.sortKeys := by
  cases value with
  | array items => exact EverywhereItems.sortItems hperm items h
  | object fields =>
      have hsorted := List.perm_insertionSort (fun f g : Text × Value => f.1 ≤ g.1) (sortFields fields)
      have hkeys : (sortFields fields).map Prod.fst = fields.map Prod.fst := by
        rw [sortFields_eq_map, List.map_map]
        rfl
      refine ⟨hperm _ _ ?_ h.1, everywhereFields_iff.mpr fun field hfield => ?_⟩
      · exact hkeys ▸ (hsorted.map Prod.fst).symm
      · exact everywhereFields_iff.mp (EverywhereFields.sortFields hperm fields h.2) field
          ((List.mem_insertionSort _).mp hfield)
  | _ => exact h

theorem EverywhereItems.sortItems (hperm : ∀ ks ks', ks.Perm ks' → keys ks → keys ks')
    (items : List Value) (h : EverywhereItems leaf keys items) :
    EverywhereItems leaf keys (sortItems items) := by
  cases items with
  | nil => trivial
  | cons item rest => exact ⟨h.1.sortKeys hperm item, EverywhereItems.sortItems hperm rest h.2⟩

theorem EverywhereFields.sortFields (hperm : ∀ ks ks', ks.Perm ks' → keys ks → keys ks')
    (fields : Fields) (h : EverywhereFields leaf keys fields) :
    EverywhereFields leaf keys (sortFields fields) := by
  cases fields with
  | nil => trivial
  | cons field rest =>
      exact ⟨h.1.sortKeys hperm field.2, EverywhereFields.sortFields hperm rest h.2⟩

end

mutual

/-- Values that are the same up to the order of fields agree on what holds everywhere. -/
theorem Same.everywhere (hperm : ∀ ks ks', ks.Perm ks' → (keys ks ↔ keys ks')) {x y : Value} :
    Same x y → (Everywhere leaf keys x ↔ Everywhere leaf keys y)
  | .refl _ => .rfl
  | .array h => h.everywhere hperm
  | .object h => and_congr (hperm _ _ h.perm_keys) (h.everywhere hperm)

theorem SameItems.everywhere (hperm : ∀ ks ks', ks.Perm ks' → (keys ks ↔ keys ks'))
    {xs ys : List Value} :
    SameItems xs ys → (EverywhereItems leaf keys xs ↔ EverywhereItems leaf keys ys)
  | .nil => .rfl
  | .cons h hrest => and_congr (h.everywhere hperm) (hrest.everywhere hperm)

theorem SameFields.everywhere (hperm : ∀ ks ks', ks.Perm ks' → (keys ks ↔ keys ks'))
    {fs gs : Fields} :
    SameFields fs gs → (EverywhereFields leaf keys fs ↔ EverywhereFields leaf keys gs)
  | .nil => .rfl
  | .cons h hrest => and_congr (h.everywhere hperm) (hrest.everywhere hperm)
  | .swap => and_left_comm
  | .trans h h' => (h.everywhere hperm).trans (h'.everywhere hperm)

end

end Everywhere

end Value

namespace Fields

open Value

theorem sortKeys_object (fields : Fields) : (Value.object fields).sortKeys = .object fields.sorted :=
  rfl

theorem sorted_sorted (fields : Fields) : fields.sorted.sorted = fields.sorted :=
  Value.object.inj (sortKeys_sortKeys (.object fields))

theorem sameFields_sorted (fields : Fields) : SameFields fields fields.sorted :=
  (sameFields_sortFields fields).trans (sameFields_of_perm (List.perm_insertionSort _ _).symm)

/-- Sorting keeps the keys. -/
theorem perm_keys_sorted (fields : Fields) :
    (fields.sorted.map Prod.fst).Perm (fields.map Prod.fst) := by
  have hsorted := (List.perm_insertionSort (fun f g : Text × Value => f.1 ≤ g.1)
    (sortFields fields)).map Prod.fst
  rw [sortFields_eq_map, List.map_map] at hsorted
  rw [sorted, sortFields_eq_map]
  exact hsorted

/-- Fields that are written alike are sorted as what they are written from;
`normal` is what sorting does to one value. -/
theorem sorted_map {β : Type} {write : β → Value} {normal : β → β}
    (h : ∀ b, (write b).sortKeys = write (normal b)) (entries : List (Text × β)) :
    sorted (entries.map fun entry => (entry.1, write entry.2)) =
      ((entries.map fun entry => (entry.1, normal entry.2)).insertionSort
        fun e e' => e.1 ≤ e'.1).map fun entry => (entry.1, write entry.2) := by
  rw [sorted, sortFields_eq_map, List.map_map,
    List.map_insertionSort (fun e e' : Text × β => e.1 ≤ e'.1)
      (fun f g : Text × Value => f.1 ≤ g.1) _ _ fun _ _ _ _ => Iff.rfl, List.map_map]
  congr 1
  exact List.map_congr_left fun entry _ => Prod.ext rfl (h entry.2)

end Fields

end UltimateBBSBox.Archive

import UltimateBBSBox.Archive.Metadata
import UltimateBBSBox.Archive.SortedKeys

/-!
# Metadata that are read back

A document is written with sorted keys.  Sorting keeps every field where `item` and `get`
find it, and with it what the checks say of a value: a valid document is valid when it is
read back.
-/

namespace UltimateBBSBox.Archive

namespace Value

/-! ## Fields and items -/

theorem item_sortKeys (value : Value) (key : String) :
    value.sortKeys.item key = (value.item key).map sortKeys := by
  cases value with
  | object fields =>
      unfold sortKeys item Fields.item
      simp only [get?_sorted]
      cases Fields.get? fields key <;> rfl
  | null => rfl
  | bool _ => rfl
  | number _ => rfl
  | text _ => rfl
  | array _ => rfl

theorem get_sortKeys (value : Value) (key : String) :
    value.sortKeys.get key .null = (value.get key .null).map sortKeys := by
  cases value with
  | object fields =>
      unfold sortKeys get
      simp only [get?_sorted]
      cases Fields.get? fields key <;> rfl
  | null => rfl
  | bool _ => rfl
  | number _ => rfl
  | text _ => rfl
  | array _ => rfl

/-! ## What does not depend on the order -/

@[simp] theorem truthy_sortKeys (value : Value) : value.sortKeys.truthy = value.truthy := by
  cases value with
  | array items => cases items <;> rfl
  | object fields =>
      unfold sortKeys truthy
      have hlength : ((sortFields fields).insertionSort fun f g => f.1 ≤ g.1).length =
          fields.length := by rw [List.length_insertionSort, length_sortFields]
      simp only [List.isEmpty_iff_length_eq_zero, hlength]
  | null => rfl
  | bool _ => rfl
  | number _ => rfl
  | text _ => rfl

@[simp] theorem isText_sortKeys (value : Value) (text : Text) :
    value.sortKeys.isText text = value.isText text := by cases value <;> rfl

@[simp] theorem isOneOf_sortKeys (value : Value) (texts : List Text) :
    value.sortKeys.isOneOf texts = value.isOneOf texts := by
  unfold isOneOf
  simp only [isText_sortKeys]

@[simp] theorem isInt_sortKeys (value : Value) (n : ℤ) : value.sortKeys.isInt n = value.isInt n := by
  cases value <;> rfl

@[simp] theorem negative_sortKeys (value : Value) : value.sortKeys.negative = value.negative := by
  cases value <;> rfl

@[simp] theorem isBool_sortKeys (value : Value) : value.sortKeys.isBool = value.isBool := by
  cases value <;> rfl

@[simp] theorem toText_sortKeys (value : Value) : value.sortKeys.toText = value.toText := by
  cases value <;> rfl

end Value

/-! ## The checks -/

section Checks

open Value

variable {value : Value}

/-- A step on a field that was read back is the step on the field, sorted. -/
theorem bind_item_sortKeys {α : Type} (value : Value) (key : String) (f : Value → Except Exn α) :
    (value.sortKeys.item key >>= f) = value.item key >>= fun field => f field.sortKeys := by
  rw [item_sortKeys]
  cases value.item key <;> rfl

/-- A field of a part that was read back is the field of the part, sorted. -/
theorem nested_item_sortKeys {value part field : Value} {key key' : String}
    (hpart : value.item key = .ok part) (hfield : part.item key' = .ok field) :
    (value.sortKeys.item key >>= fun part => part.item key') = .ok field.sortKeys := by
  calc (value.sortKeys.item key >>= fun part => part.item key')
      = value.item key >>= fun part => part.sortKeys.item key' := bind_item_sortKeys ..
    _ = part.sortKeys.item key' := by rw [hpart]; rfl
    _ = .ok field.sortKeys := by rw [item_sortKeys, hfield]; rfl

theorem bind_get_sortKeys {α : Type} (value : Value) (key : String) (f : Value → Except Exn α) :
    (value.sortKeys.get key .null >>= f) = value.get key .null >>= fun field => f field.sortKeys := by
  rw [get_sortKeys]
  cases value.get key .null <;> rfl

theorem checkDigest_sortKeys (algorithm : Algorithm) (value : Value) :
    checkDigest algorithm value.sortKeys = checkDigest algorithm value := by
  unfold checkDigest
  rw [toText_sortKeys]

theorem checkGiven_sortKeys (value : Value) : checkGiven value.sortKeys = checkGiven value := by
  cases value <;> rfl

theorem checkFilename_sortKeys (value : Value) : checkFilename value.sortKeys = checkFilename value := by
  cases value <;> rfl

theorem checkOptional_sortKeys (algorithm : Algorithm) (artifact : Value) :
    checkOptional algorithm artifact.sortKeys = checkOptional algorithm artifact := by
  cases artifact with
  | object fields =>
      unfold sortKeys checkOptional
      simp only [get?_sorted]
      cases Fields.get? fields algorithm.name with
      | none => rfl
      | some value => exact checkDigest_sortKeys algorithm value
  | null => rfl
  | bool _ => rfl
  | number _ => rfl
  | text _ => rfl
  | array _ => rfl

theorem checkArtifact_sortKeys (artifact : Value) :
    checkArtifact artifact.sortKeys = checkArtifact artifact := by
  unfold checkArtifact
  simp only [bind_item_sortKeys, checkDigest_sortKeys, negative_sortKeys, isOneOf_sortKeys,
    checkFilename_sortKeys, checkOptional_sortKeys]

theorem checkProvenance_sortKeys (provenance : Value) :
    checkProvenance provenance.sortKeys = checkProvenance provenance := by
  unfold checkProvenance
  simp only [bind_item_sortKeys, checkGiven_sortKeys]

theorem checkPermissions_sortKeys (rights : Value) (keys : List String) :
    checkPermissions rights.sortKeys keys = checkPermissions rights keys := by
  induction keys with
  | nil => rfl
  | cons key rest ih =>
      unfold checkPermissions
      simp only [bind_item_sortKeys, isBool_sortKeys, ih]

theorem checkRights_sortKeys (rights : Value) : checkRights rights.sortKeys = checkRights rights := by
  unfold checkRights
  simp only [bind_item_sortKeys, isOneOf_sortKeys, checkPermissions_sortKeys]

theorem checkParents_sortKeys (parents : List Value) :
    checkParents (parents.map sortKeys) = checkParents parents := by
  induction parents with
  | nil => rfl
  | cons parent rest ih =>
      rw [List.map_cons]
      unfold checkParents
      simp only [bind_item_sortKeys, toText_sortKeys, checkDigest_sortKeys, ih]

/-- Of a lineage that is accepted, the parents are a list. -/
theorem array_of_checkParents {parents : Value} {elements : List Value}
    (htruthy : parents.truthy = true) (helements : parents.elements = .ok elements)
    (h : checkParents elements = .ok ()) : ∃ items, parents = .array items := by
  cases parents with
  | array items => exact ⟨items, rfl⟩
  | text value =>
      cases value with
      | nil => cases htruthy
      | cons c rest =>
          cases helements
          cases h
  | object fields =>
      cases fields with
      | nil => cases htruthy
      | cons field rest =>
          cases helements
          cases h
  | null => cases helements
  | bool _ => cases helements
  | number _ => cases helements

theorem checkLineage_sortKeys {lineage : Value} (h : checkLineage lineage = .ok ()) :
    checkLineage lineage.sortKeys = .ok () := by
  rw [← h]
  unfold checkLineage at h ⊢
  simp only [bind_get_sortKeys, truthy_sortKeys]
  obtain ⟨parents, hparents, h⟩ := Except.bind_eq_ok.mp h
  obtain ⟨htruthy, h⟩ := guard_valueError h
  obtain ⟨action, -, h⟩ := Except.bind_eq_ok.mp h
  obtain ⟨-, h⟩ := guard_valueError h
  obtain ⟨derivedAt, -, h⟩ := Except.bind_eq_ok.mp h
  obtain ⟨-, h⟩ := guard_valueError h
  obtain ⟨elements, helements, h⟩ := Except.bind_eq_ok.mp h
  obtain ⟨items, rfl⟩ := array_of_checkParents (by simpa using htruthy) helements h
  rw [hparents]
  simp only [sortKeys, sortItems_eq_map, Value.elements, bind, Except.bind, checkParents_sortKeys]

theorem checkPreservation_sortKeys {preservation : Value} (h : checkPreservation preservation = .ok ()) :
    checkPreservation preservation.sortKeys = .ok () := by
  unfold checkPreservation at h ⊢
  simp only [bind_item_sortKeys, bind_get_sortKeys, isOneOf_sortKeys, truthy_sortKeys]
  obtain ⟨cls, hcls, h⟩ := Except.bind_eq_ok.mp h
  obtain ⟨hclass, h⟩ := guard_valueError h
  obtain ⟨immutable, himmutable, h⟩ := Except.bind_eq_ok.mp h
  obtain rfl : immutable = .bool true := by
    cases immutable with
    | bool value =>
        cases value with
        | true => rfl
        | false => cases h
    | _ => cases h
  obtain ⟨lineage, hlineage, h⟩ := Except.bind_eq_ok.mp h
  rw [hcls]
  simp only [bind, Except.bind, hclass, himmutable, sortKeys, hlineage]
  by_cases htruthy : lineage.truthy = true
  · rw [if_pos htruthy] at h ⊢
    exact checkLineage_sortKeys h
  · rw [if_neg htruthy]
    rfl

/-- **Valid metadata are valid when they are read back.** -/
theorem checkMetadata_sortKeys (h : checkMetadata value = .ok ()) :
    checkMetadata value.sortKeys = .ok () := by
  obtain ⟨-, -, -, preservation, -, -, -, hpreservation, hcheck⟩ := parts_of_checkMetadata h
  have hlast : (value.item "preservation" >>= fun part => checkPreservation part.sortKeys) =
      value.item "preservation" >>= checkPreservation := by
    rw [hpreservation]
    exact (checkPreservation_sortKeys hcheck).trans hcheck.symm
  unfold checkMetadata at h ⊢
  simp only [bind_item_sortKeys, isText_sortKeys, isInt_sortKeys, toText_sortKeys,
    checkArtifact_sortKeys, checkProvenance_sortKeys, checkRights_sortKeys, hlast]
  exact h

end Checks

end UltimateBBSBox.Archive

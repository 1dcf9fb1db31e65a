import Mathlib.Data.List.Lex
import Mathlib.Data.List.Sort
import Mathlib.Data.Rat.Defs
import UltimateBBSBox.Archive.Names
import UltimateBBSBox.Library.Check
import UltimateBBSBox.Library.Dict

/-!
# Values that were read from JSON

What `json.loads` gives, and what the archive does with such a value before it
knows its type: `value[key]`, `value.get(key)`, comparisons with texts and with
whole numbers, and truth.  Each raises what Python raises on a value of another
type.
-/

namespace UltimateBBSBox.Archive

/-- A number of a JSON text: a float is exact, or one of the three that are no numbers. -/
inductive Number
  | int (n : ℤ)
  | float (q : ℚ)
  | infinity
  | negInfinity
  | nan
deriving DecidableEq

/-- A value of a JSON text. -/
inductive Value
  | null
  | bool (value : Bool)
  | number (value : Number)
  | text (value : Text)
  | array (items : List Value)
  | object (fields : List (Text × Value))

mutual

/-- Equality of values is decided along their structure. -/
def Value.decEq : (x y : Value) → Decidable (x = y)
  | .null, .null => isTrue rfl
  | .bool b, .bool b' => decidable_of_iff (b = b') (by rw [Value.bool.injEq])
  | .number n, .number n' => decidable_of_iff (n = n') (by rw [Value.number.injEq])
  | .text s, .text s' => decidable_of_iff (s = s') (by rw [Value.text.injEq])
  | .array xs, .array ys =>
      have := Value.decEqItems xs ys
      decidable_of_iff (xs = ys) (by rw [Value.array.injEq])
  | .object fs, .object gs =>
      have := Value.decEqFields fs gs
      decidable_of_iff (fs = gs) (by rw [Value.object.injEq])
  | .null, .bool _ | .null, .number _ | .null, .text _ | .null, .array _ | .null, .object _
  | .bool _, .null | .bool _, .number _ | .bool _, .text _ | .bool _, .array _ | .bool _, .object _
  | .number _, .null | .number _, .bool _ | .number _, .text _ | .number _, .array _
  | .number _, .object _
  | .text _, .null | .text _, .bool _ | .text _, .number _ | .text _, .array _ | .text _, .object _
  | .array _, .null | .array _, .bool _ | .array _, .number _ | .array _, .text _
  | .array _, .object _
  | .object _, .null | .object _, .bool _ | .object _, .number _ | .object _, .text _
  | .object _, .array _ => isFalse (by simp)

def Value.decEqItems : (xs ys : List Value) → Decidable (xs = ys)
  | [], [] => isTrue rfl
  | [], _ :: _ | _ :: _, [] => isFalse (by simp)
  | x :: xs, y :: ys =>
      have := Value.decEq x y
      have := Value.decEqItems xs ys
      decidable_of_iff (x = y ∧ xs = ys) (by rw [List.cons.injEq])

def Value.decEqFields : (fs gs : List (Text × Value)) → Decidable (fs = gs)
  | [], [] => isTrue rfl
  | [], _ :: _ | _ :: _, [] => isFalse (by simp)
  | (k, x) :: fs, (k', y) :: gs =>
      have := Value.decEq x y
      have := Value.decEqFields fs gs
      decidable_of_iff (k = k' ∧ x = y ∧ fs = gs) (by
        rw [List.cons.injEq, Prod.mk.injEq, and_assoc])

end

instance : DecidableEq Value := Value.decEq

/-- The fields of an object, or the entries of a `dict`. -/
abbrev Fields : Type := List (Text × Value)

/-- The text of a string. -/
def Value.str (s : String) : Value := .text (.of s)

/-- The text of a string, or `None`. -/
def Value.ofText : Option String → Value
  | none => .null
  | some s => .str s

/-- `fields.get(key)`, where `None` is told from a missing key. -/
def Fields.get? (fields : Fields) (key : String) : Option Value :=
  (fields.find? fun field => field.1 = Text.of key).map Prod.snd

/-- `fields[key] = value`. -/
def Fields.set (fields : Fields) (key : String) (value : Value) : Fields :=
  Dict.setEntries (Text.of key) value fields

/-- `fields[key]`. -/
def Fields.item (fields : Fields) (key : String) : Except Exn Value :=
  match fields.get? key with
  | some value => .ok value
  | none => .error (.foreign .keyError)

@[simp] theorem Fields.get?_set (fields : Fields) (key key' : String) (value : Value) :
    (fields.set key value).get? key' = if key' = key then some value else fields.get? key' := by
  have hfind := Dict.find?_setEntries (Text.of key) (Text.of key') value fields
  simp only [Text.of_inj] at hfind
  exact hfind

@[simp] theorem Fields.get?_nil (key : String) : Fields.get? [] key = none := rfl

@[simp] theorem Fields.get?_cons (key key' : String) (value : Value) (fields : Fields) :
    Fields.get? ((Text.of key, value) :: fields) key' =
      if key = key' then some value else fields.get? key' := by
  unfold Fields.get?
  by_cases hkey : key = key'
  · simp [hkey]
  · simp [hkey]

/-- Entries after others are seen where the others have none. -/
theorem Fields.get?_append (fields fields' : Fields) (key : String) :
    Fields.get? (fields ++ fields') key = (fields.get? key).or (fields'.get? key) := by
  unfold Fields.get?
  rw [List.find?_append]
  cases fields.find? fun field => field.1 = Text.of key <;> rfl

namespace Value

/-- The `TypeError`s and `AttributeError`s of values that are no objects. -/
def typeError {α : Type} : Except Exn α := .error (.foreign .typeError)

def attributeError {α : Type} : Except Exn α := .error (.foreign .attributeError)

/-- `value[key]`. -/
def item (value : Value) (key : String) : Except Exn Value :=
  match value with
  | .object fields => Fields.item fields key
  | _ => typeError

/-- `value.get(key, default)`. -/
def get (value : Value) (key : String) (default : Value) : Except Exn Value :=
  match value with
  | .object fields => .ok ((Fields.get? fields key).getD default)
  | _ => attributeError

/-- `bool(value)`. -/
def truthy : Value → Bool
  | .null => false
  | .bool value => value
  | .number (.int n) => n ≠ 0
  | .number (.float q) => q ≠ 0
  | .number _ => true
  | .text value => value ≠ []
  | .array items => ¬ items.isEmpty
  | .object fields => ¬ fields.isEmpty

/-- `value == text`. -/
def isText (value : Value) (text : Text) : Bool :=
  match value with
  | .text value => value = text
  | _ => false

/-- `value == n`: a truth value and a float are compared as numbers. -/
def isInt (value : Value) (n : ℤ) : Bool :=
  match value with
  | .bool value => (if value then 1 else 0) = n
  | .number (.int m) => m = n
  | .number (.float q) => q = n
  | _ => false

/-- `value < 0`. -/
def negative : Value → Except Exn Bool
  | .bool _ => .ok false
  | .number (.int n) => .ok (n < 0)
  | .number (.float q) => .ok (q < 0)
  | .number .negInfinity => .ok true
  | .number _ => .ok false
  | _ => typeError

/-- `isinstance(value, bool)`. -/
def isBool : Value → Bool
  | .bool _ => true
  | _ => false

/-- The text that `re.fullmatch` and the like need. -/
def toText : Value → Except Exn Text
  | .text value => .ok value
  | _ => typeError

/-- The elements of a `for` loop: the items of a list, the characters of a text, the
keys of an object. -/
def elements : Value → Except Exn (List Value)
  | .array items => .ok items
  | .text value => .ok (value.map fun c => .text [c])
  | .object fields => .ok (fields.map fun field => .text field.1)
  | _ => typeError

/-- What `get` finds, if it is not falsy, is a field. -/
theorem item_of_get_truthy {value field : Value} {key : String} (h : value.get key .null = .ok field)
    (htruthy : field.truthy = true) : value.item key = .ok field := by
  cases value with
  | object fields =>
      simp only [get, Except.ok.injEq] at h
      cases hfield : Fields.get? fields key with
      | none =>
          rw [hfield, Option.getD_none] at h
          rw [← h] at htruthy
          cases htruthy
      | some found =>
          rw [hfield, Option.getD_some] at h
          simp only [item, Fields.item, hfield, h]
  | null => cases h
  | bool _ => cases h
  | number _ => cases h
  | text _ => cases h
  | array _ => cases h

/-- The field of a value that is an object. -/
def field? (value : Value) (key : String) : Option Value :=
  match value with
  | .object fields => Fields.get? fields key
  | _ => none

theorem field?_of_item {value field : Value} {key : String} (h : value.item key = .ok field) :
    value.field? key = some field := by
  cases value with
  | object fields =>
      simp only [item, Fields.item] at h
      unfold field?
      split at h
      · rename_i found hfound
        obtain rfl := Except.ok.inj h
        exact hfound
      · cases h
  | null => cases h
  | bool _ => cases h
  | number _ => cases h
  | text _ => cases h
  | array _ => cases h

/-- An object that has a field is not falsy. -/
theorem truthy_of_item {value field : Value} {key : String} (h : value.item key = .ok field) :
    value.truthy = true := by
  have hfield := field?_of_item h
  cases value with
  | object fields =>
      cases fields with
      | nil => cases hfield
      | cons first rest => rfl
  | null => cases h
  | bool _ => cases h
  | number _ => cases h
  | text _ => cases h
  | array _ => cases h

mutual

/-- `x == y`. -/
def equal : Value → Value → Bool
  | .null, .null => true
  | .text x, .text y => x = y
  | .array xs, .array ys => equalItems xs ys
  | .object fs, .object gs => fs.length = gs.length && equalFields fs gs
  | .bool x, y => y.isInt (if x then 1 else 0)
  | .number (.int x), y => y.isInt x
  | .number (.float x), .bool y => x = if y then 1 else 0
  | .number (.float x), .number (.int y) => x = y
  | .number (.float x), .number (.float y) => x = y
  | .number .infinity, .number .infinity => true
  | .number .negInfinity, .number .negInfinity => true
  | _, _ => false

def equalItems : List Value → List Value → Bool
  | [], [] => true
  | x :: xs, y :: ys => equal x y && equalItems xs ys
  | _, _ => false

def equalFields : Fields → Fields → Bool
  | [], _ => true
  | (key, x) :: rest, gs =>
      (match (gs.find? fun g => g.1 = key).map Prod.snd with
        | some y => equal x y
        | none => false) && equalFields rest gs

end

mutual

/-- What is read back after `json.dump` with sorted keys. -/
def sortKeys : Value → Value
  | .array items => .array (sortItems items)
  | .object fields =>
      .object ((sortFields fields).insertionSort fun field field' => field.1 ≤ field'.1)
  | value => value

def sortItems : List Value → List Value
  | [] => []
  | item :: rest => sortKeys item :: sortItems rest

def sortFields : Fields → Fields
  | [] => []
  | (key, value) :: rest => (key, sortKeys value) :: sortFields rest

end

end Value

end UltimateBBSBox.Archive

import UltimateBBSBox.Library.Check
import UltimateBBSBox.Library.Dict
import UltimateBBSBox.Library.Text

/-!
# The inventory of the network

`Listener` and `NetworkInventory.validate` of `ubb_network_hardening.py`.  The services, the
qualification, and the fields of a listener that only a summary shows are left out.

The search for cycles is recursive, and the interpreter stops a recursion that is too deep:
its limit is a parameter.
-/

namespace UltimateBBSBox.Network

/-- What a check of the inventory raises. -/
inductive InventoryError
  | networkHardeningError (message : Text)
  | recursionError
deriving DecidableEq

/-- `Listener`. -/
structure Listener where
  service : Text
  protocol : Text
  host : Text
  port : ℤ
deriving DecidableEq

/-- `Listener.key`. -/
def Listener.key (listener : Listener) : Text × Text × ℤ :=
  (listener.protocol, listener.host, listener.port)

/-- `NetworkInventory`. -/
structure NetworkInventory where
  listeners : List Listener
  dependencies : Dict Text (List Text)

namespace NetworkInventory

/-- The nodes that are being visited, and those that were. -/
structure Marks where
  visiting : List Text
  done : List Text

/-- `visit`, with how many calls more may be open. -/
def visit (dependencies : Dict Text (List Text)) :
    ℕ → Marks → Text → Except InventoryError Marks
  | 0, _, _ => .error .recursionError
  | limit + 1, marks, node =>
      if node ∈ marks.visiting then
        .error (.networkHardeningError (.of "dependency cycle"))
      else if node ∈ marks.done then .ok marks
      else do
        let targets := (dependencies.getD node []).filter fun target =>
          (dependencies.get? target).isSome
        let marks ← targets.foldlM (visit dependencies limit)
          { marks with visiting := node :: marks.visiting }
        return { visiting := marks.visiting.erase node, done := node :: marks.done }

/-- `_check_cycles`. -/
def checkCycles (limit : ℕ) (dependencies : Dict Text (List Text)) :
    Except InventoryError Unit := do
  let _ ← (dependencies.entries.map Prod.fst).foldlM (visit dependencies limit) ⟨[], []⟩

/-- The loop over the listeners, with the service of every key seen so far. -/
def checkListeners (seen : Dict (Text × Text × ℤ) Text) : List Listener → Except InventoryError Unit
  | [] => .ok ()
  | listener :: rest =>
      match seen.get? listener.key with
      | some service =>
          .error (.networkHardeningError
            (.of "listener collision: " ++ listener.service ++ .of " and " ++ service))
      | none => checkListeners (seen.set listener.key listener.service) rest

/-- `NetworkInventory.validate`. -/
def validate (limit : ℕ) (inventory : NetworkInventory) : Except InventoryError Bool := do
  checkListeners ∅ inventory.listeners
  checkCycles limit inventory.dependencies
  return true

theorem checkListeners_eq_ok_iff {seen : Dict (Text × Text × ℤ) Text} {listeners : List Listener} :
    checkListeners seen listeners = .ok () ↔
      (listeners.map Listener.key).Nodup ∧ ∀ listener ∈ listeners, seen.get? listener.key = none := by
  induction listeners generalizing seen with
  | nil => simp [checkListeners]
  | cons listener rest ih =>
      have hset : ∀ other : Listener,
          (seen.set listener.key listener.service).get? other.key = none ↔
            other.key ≠ listener.key ∧ seen.get? other.key = none := by
        intro other
        rw [Dict.get?_set]
        split
        · rename_i hkey
          exact ⟨fun h => (Option.some_ne_none _ h).elim, fun h => absurd hkey h.1⟩
        · rename_i hkey
          exact ⟨fun h => ⟨hkey, h⟩, fun h => h.2⟩
      have hfresh : listener.key ∉ rest.map Listener.key ↔
          ∀ other ∈ rest, other.key ≠ listener.key := by
        simp only [List.mem_map, not_exists, not_and, ne_eq]
      rw [checkListeners, List.map_cons, List.nodup_cons, List.forall_mem_cons, hfresh]
      cases hseen : seen.get? listener.key with
      | some service =>
          constructor
          · intro h
            cases h
          · rintro ⟨-, h, -⟩
            cases h
      | none =>
          dsimp only
          rw [ih]
          simp only [hset]
          constructor
          · rintro ⟨hnodup, hrest⟩
            exact ⟨⟨fun other hother => (hrest other hother).1, hnodup⟩, trivial,
              fun other hother => (hrest other hother).2⟩
          · rintro ⟨⟨hkeys, hnodup⟩, -, hrest⟩
            exact ⟨hnodup, fun other hother => ⟨hkeys other hother, hrest other hother⟩⟩

/-- `validate` returns if and only if the keys of the listeners are distinct and the
dependencies pass. -/
theorem validate_eq_ok_iff {limit : ℕ} {inventory : NetworkInventory} :
    (∃ result, validate limit inventory = .ok result) ↔
      (inventory.listeners.map Listener.key).Nodup ∧
        checkCycles limit inventory.dependencies = .ok () := by
  unfold validate
  simp only [Except.check_bind_eq_ok, Except.pure_eq_ok, checkListeners_eq_ok_iff, Dict.get?_empty,
    implies_true, and_true]
  constructor
  · rintro ⟨-, hkeys, hcycles, -⟩
    exact ⟨hkeys, hcycles⟩
  · rintro ⟨hkeys, hcycles⟩
    exact ⟨true, hkeys, hcycles, rfl⟩

end NetworkInventory

end UltimateBBSBox.Network

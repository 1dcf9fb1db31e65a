import UltimateBBSBox.Library.DepthFirst
import UltimateBBSBox.Network.Inventory

/-!
# Cycles among the dependencies

`NetworkInventory._check_cycles` is the depth-first search of `Library/DepthFirst.lean` over the
declared names.  With more open calls than there are names it raises if and only if there is a
cycle, and otherwise it has visited every name (`checkCycles_exact`).
-/

namespace UltimateBBSBox.Network.NetworkInventory

open Relation (TransGen)

/-- The declared names that a name depends on. -/
def declaredTargets (dependencies : Dict Text (List Text)) (node : Text) : List Text :=
  (dependencies.getD node []).filter fun target => (dependencies.get? target).isSome

/-- A declared name depends on a declared name. -/
def DependsOn (dependencies : Dict Text (List Text)) (a b : Text) : Prop :=
  (∃ targets, dependencies.get? a = some targets ∧ b ∈ targets) ∧ dependencies.get? b ≠ none

/-- Some declared name depends on itself, directly or through others. -/
def HasCycle (dependencies : Dict Text (List Text)) : Prop :=
  ∃ a, TransGen (DependsOn dependencies) a a

variable {dependencies : Dict Text (List Text)}

/-! ## The search -/

/-- What a search that stops raises. -/
def stopped : DepthFirst.Stop → InventoryError
  | .cycle => .networkHardeningError (.of "dependency cycle")
  | .tooDeep => .recursionError

/-- The marks of the search. -/
def marked (marks : DepthFirst.Marks Text) : Marks := ⟨marks.visiting, marks.done⟩

theorem foldlM_visit {limit : ℕ} {targets : List Text}
    (hvisit : ∀ marks node, visit dependencies limit (marked marks) node =
      ((DepthFirst.visit (declaredTargets dependencies) limit marks node).mapError stopped).map marked)
    (marks : DepthFirst.Marks Text) :
    targets.foldlM (visit dependencies limit) (marked marks) =
      ((targets.foldlM (DepthFirst.visit (declaredTargets dependencies) limit) marks).mapError
        stopped).map marked := by
  induction targets generalizing marks with
  | nil => rfl
  | cons target rest ih =>
      rw [List.foldlM_cons, List.foldlM_cons, hvisit]
      cases DepthFirst.visit (declaredTargets dependencies) limit marks target with
      | error stop => rfl
      | ok marks' => exact ih marks'

/-- The visit of the source is the visit of a depth-first search. -/
theorem visit_eq (limit : ℕ) (marks : DepthFirst.Marks Text) (node : Text) :
    visit dependencies limit (marked marks) node =
      ((DepthFirst.visit (declaredTargets dependencies) limit marks node).mapError stopped).map
        marked := by
  induction limit generalizing marks node with
  | zero => rfl
  | succ limit ih =>
      rw [visit, DepthFirst.visit]
      by_cases hvisiting : node ∈ marks.visiting
      · rw [if_pos hvisiting]
        change (if node ∈ marks.visiting then _ else _) = _
        rw [if_pos hvisiting]
        rfl
      · rw [if_neg hvisiting]
        change (if node ∈ marks.visiting then _ else _) = _
        rw [if_neg hvisiting]
        by_cases hdone : node ∈ marks.done
        · rw [if_pos hdone]
          change (if node ∈ marks.done then _ else _) = _
          rw [if_pos hdone]
          rfl
        · rw [if_neg hdone]
          change (if node ∈ marks.done then _ else _) = _
          rw [if_neg hdone]
          have hbelow : (declaredTargets dependencies node).foldlM (visit dependencies limit)
              (marked { marks with visiting := node :: marks.visiting }) =
              (((declaredTargets dependencies node).foldlM
                (DepthFirst.visit (declaredTargets dependencies) limit)
                { marks with visiting := node :: marks.visiting }).mapError stopped).map marked :=
            foldlM_visit ih _
          change ((declaredTargets dependencies node).foldlM (visit dependencies limit)
            (marked { marks with visiting := node :: marks.visiting }) >>= _) = _
          rw [hbelow]
          cases (declaredTargets dependencies node).foldlM
            (DepthFirst.visit (declaredTargets dependencies) limit)
            { marks with visiting := node :: marks.visiting } with
          | error stop => rfl
          | ok marks' => rfl

/-- The roots of the search. -/
abbrev declared (dependencies : Dict Text (List Text)) : List Text :=
  dependencies.entries.map Prod.fst

theorem search_eq (dependencies : Dict Text (List Text)) (limit : ℕ) :
    (declared dependencies).foldlM (visit dependencies limit) ⟨[], []⟩ =
      ((DepthFirst.search (declaredTargets dependencies) limit
        (declared dependencies)).mapError stopped).map marked :=
  foldlM_visit (visit_eq limit) ⟨[], []⟩

/-! ## The graph -/

theorem mem_declared_iff {name : Text} :
    name ∈ declared dependencies ↔ dependencies.get? name ≠ none := by
  constructor
  · intro hname
    obtain ⟨⟨key, targets⟩, hentry, rfl⟩ := List.mem_map.mp hname
    rw [Dict.get?_of_mem_entries hentry]
    exact Option.some_ne_none _
  · intro hname
    obtain ⟨targets, hget⟩ := Option.ne_none_iff_exists'.mp hname
    exact List.mem_map_of_mem (f := Prod.fst) (Dict.mem_entries_of_get? hget)

theorem mem_declaredTargets_iff {a b : Text} :
    b ∈ declaredTargets dependencies a ↔ DependsOn dependencies a b := by
  unfold declaredTargets DependsOn Dict.getD
  rw [List.mem_filter, Option.isSome_iff_ne_none]
  refine and_congr_left fun _ => ?_
  cases dependencies.get? a with
  | none => simp
  | some targets => simp

theorem edge_declaredTargets :
    DepthFirst.Edge (declaredTargets dependencies) = DependsOn dependencies := by
  funext a b
  exact propext mem_declaredTargets_iff

/-- Only declared names are on a cycle. -/
theorem hasCycle_iff : HasCycle dependencies ↔
    ∃ a ∈ declared dependencies, DepthFirst.OnCycle (declaredTargets dependencies) a := by
  unfold HasCycle DepthFirst.OnCycle
  rw [edge_declaredTargets]
  constructor
  · rintro ⟨a, hcycle⟩
    obtain ⟨b, -, hlast⟩ := TransGen.tail'_iff.mp hcycle
    exact ⟨a, mem_declared_iff.mpr hlast.2, hcycle⟩
  · rintro ⟨a, -, hcycle⟩
    exact ⟨a, hcycle⟩

/-- **Cycle detection is exact**: with more open calls than names, the check raises if and only
if there is a cycle, and without one it returns after a visit of every name. -/
theorem checkCycles_exact (dependencies : Dict Text (List Text)) (limit : ℕ)
    (hlimit : dependencies.size < limit) :
    (checkCycles limit dependencies =
        .error (.networkHardeningError (.of "dependency cycle")) ↔ HasCycle dependencies) ∧
      (¬ HasCycle dependencies → checkCycles limit dependencies = .ok () ∧
        ∃ marks, (dependencies.entries.map Prod.fst).foldlM (visit dependencies limit) ⟨[], []⟩ =
            .ok marks ∧
          ∀ name, name ∈ marks.done ↔ dependencies.get? name ≠ none) := by
  have hnext : ∀ a ∈ declared dependencies, declaredTargets dependencies a ⊆ declared dependencies :=
    fun a _ b hb => mem_declared_iff.mpr (mem_declaredTargets_iff.mp hb).2
  have hnames : (declared dependencies).length < limit := by
    rwa [List.length_map]
  unfold checkCycles
  rcases DepthFirst.search_spec hnext hnames with ⟨marks, hsearch, hdone, hacyclic⟩ | ⟨hsearch, hcycle⟩
  · have hno : ¬ HasCycle dependencies := by
      intro hcycle
      obtain ⟨a, ha, honcycle⟩ := hasCycle_iff.mp hcycle
      exact hacyclic a ha honcycle
    have hrun := search_eq dependencies limit
    rw [hsearch] at hrun
    rw [hrun]
    refine ⟨⟨fun h => ?_, fun h => absurd h hno⟩, fun _ => ⟨rfl, marked marks, rfl, fun name => ?_⟩⟩
    · cases h
    · exact (hdone name).trans mem_declared_iff
  · have hrun := search_eq dependencies limit
    rw [hsearch] at hrun
    rw [hrun]
    exact ⟨⟨fun _ => hasCycle_iff.mpr hcycle, fun _ => rfl⟩,
      fun hno => absurd (hasCycle_iff.mpr hcycle) hno⟩

/-- Names that depend on each other, on themselves or on names that are not declared. -/
theorem checkCycles_exact_pair :
    let dependencies := Dict.ofList [(Text.of "a", [Text.of "b", .of "x"]), (.of "b", [.of "a"])]
    dependencies.size < 3 ∧
      (checkCycles 3 dependencies =
          .error (.networkHardeningError (.of "dependency cycle")) ↔ HasCycle dependencies) ∧
        HasCycle dependencies := by
  have hsize : (Dict.ofList [(Text.of "a", [Text.of "b", .of "x"]), (.of "b", [.of "a"])]).size < 3 := by
    decide
  have hexact := (checkCycles_exact _ 3 hsize).1
  exact ⟨hsize, hexact, hexact.mp (by decide)⟩

end UltimateBBSBox.Network.NetworkInventory

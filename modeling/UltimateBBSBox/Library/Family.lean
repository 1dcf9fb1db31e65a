import Mathlib.Data.List.Nodup
import Mathlib.Logic.Function.Basic
import UltimateBBSBox.Library.Act

/-!
# Programs over a family of states

`atIndex i act` runs a program on one member of a family of states.  A loop
that runs a program on one member after the other and stops at the first
exception treats every member as if it were alone exactly if no member before
the last raises (`exists_isolated_of_ok`, `ok_of_isolated`).
-/

namespace Act

variable {S E α ι γ : Type} [DecidableEq ι]

/-- Run a program on one member of a family. -/
def atIndex (i : ι) (act : Act S E α) : Act (ι → S) E α := fun family =>
  match act.run (family i) with
  | none => none
  | some (r, s) => some (r, Function.update family i s)

theorem run_atIndex (i : ι) (act : Act S E α) (family : ι → S) :
    (atIndex i act).run family =
      (act.run (family i)).map fun result => (result.1, Function.update family i result.2) := by
  change (match act.run (family i) with
    | none => none
    | some (r, s) => some (r, Function.update family i s)) = _
  cases act.run (family i) <;> rfl

section Loop

variable {key : γ → ι} {act : γ → Act S E Unit}

variable {x : γ} {rest items : List γ} {family family' : ι → S} {r : Except E Unit}

theorem run_forEach_cons_of_error {e : E} {s : S}
    (hfirst : (act x).run (family (key x)) = some (.error e, s)) :
    (forEach (x :: rest) fun x => atIndex (key x) (act x)).run family =
      some (.error e, Function.update family (key x) s) := by
  rw [forEach, run_bind, run_atIndex, hfirst]
  rfl

theorem run_forEach_cons_of_ok {s : S}
    (hfirst : (act x).run (family (key x)) = some (.ok (), s)) :
    (forEach (x :: rest) fun x => atIndex (key x) (act x)).run family =
      (forEach rest fun x => atIndex (key x) (act x)).run (Function.update family (key x) s) := by
  rw [forEach, run_bind, run_atIndex, hfirst]
  rfl

theorem run_forEach_cons_of_none (hfirst : (act x).run (family (key x)) = none) :
    (forEach (x :: rest) fun x => atIndex (key x) (act x)).run family = none := by
  rw [forEach, run_bind, run_atIndex, hfirst]
  rfl

/-- A loop over members leaves the others as they are. -/
theorem apply_of_run_forEach_atIndex {j : ι}
    (hrun : (forEach items fun x => atIndex (key x) (act x)).run family = some (r, family'))
    (hj : ∀ x ∈ items, j ≠ key x) : family' j = family j := by
  induction items generalizing family with
  | nil =>
      cases hrun
      rfl
  | cons x rest ih =>
      have hx := hj x List.mem_cons_self
      cases hfirst : (act x).run (family (key x)) with
      | none => simp [run_forEach_cons_of_none hfirst] at hrun
      | some result =>
          obtain ⟨r₁, s⟩ := result
          cases r₁ with
          | error e =>
              rw [run_forEach_cons_of_error hfirst] at hrun
              cases hrun
              exact Function.update_of_ne hx _ _
          | ok _ =>
              rw [run_forEach_cons_of_ok hfirst] at hrun
              rw [ih hrun fun y hy => hj y (List.mem_cons_of_mem _ hy), Function.update_of_ne hx]

/-- Every member ends in the state its program gives it alone. -/
def Isolated (key : γ → ι) (act : γ → Act S E Unit) (items : List γ) (family family' : ι → S) :
    Prop :=
  ∀ x ∈ items, ∃ r, (act x).run (family (key x)) = some (r, family' (key x))

/-- A loop none of whose programs raises, except perhaps the last, treats every
member as if it were alone. -/
theorem exists_isolated_of_ok (hkeys : (items.map key).Nodup)
    (hback : ∀ x ∈ items, ∃ result, (act x).run (family (key x)) = some result)
    (hok : ∀ x ∈ items.dropLast, ∃ s, (act x).run (family (key x)) = some (.ok (), s)) :
    ∃ r family', (forEach items fun x => atIndex (key x) (act x)).run family = some (r, family') ∧
      Isolated key act items family family' := by
  induction items generalizing family with
  | nil => exact ⟨.ok (), family, rfl, by simp [Isolated]⟩
  | cons x rest ih =>
      rw [List.map_cons, List.nodup_cons, List.mem_map, not_exists] at hkeys
      obtain ⟨⟨r₁, s⟩, hfirst⟩ := hback x List.mem_cons_self
      cases r₁ with
      | error e =>
          -- only the last program may raise
          have hlast : rest = [] := by
            by_contra hne
            obtain ⟨s', hs'⟩ := hok x (by simp [List.dropLast_cons_of_ne_nil hne])
            simp [hfirst] at hs'
          subst hlast
          exact ⟨_, _, run_forEach_cons_of_error hfirst, by simp [Isolated, hfirst]⟩
      | ok _ =>
          have hsame : ∀ y ∈ rest, Function.update family (key x) s (key y) = family (key y) :=
            fun y hy => Function.update_of_ne (fun heq => hkeys.1 y ⟨hy, heq⟩) _ _
          obtain ⟨r, family', hrun, hisolated⟩ := @ih (Function.update family (key x) s) hkeys.2
            (fun y hy => by rw [hsame y hy]; exact hback y (List.mem_cons_of_mem _ hy))
            fun y hy => by
              have hmem := (List.dropLast_sublist rest).subset hy
              rw [hsame y hmem]
              refine hok y ?_
              rw [List.dropLast_cons_of_ne_nil (List.ne_nil_of_mem hmem)]
              exact List.mem_cons_of_mem _ hy
          refine ⟨r, family', (run_forEach_cons_of_ok hfirst).trans hrun, fun y hy => ?_⟩
          rcases List.mem_cons.mp hy with rfl | hy
          · rw [apply_of_run_forEach_atIndex hrun fun z hz heq => hkeys.1 z ⟨hz, heq.symm⟩,
              Function.update_self]
            exact ⟨_, hfirst⟩
          · obtain ⟨r', hr'⟩ := hisolated y hy
            exact ⟨r', by rw [← hsame y hy, hr']⟩

/-- Conversely, programs that never leave a state as it was are only all run if
none before the last raises. -/
theorem ok_of_isolated (hkeys : (items.map key).Nodup)
    (hchanges : ∀ x ∈ items, ∀ r s, (act x).run (family (key x)) = some (r, s) →
      s ≠ family (key x))
    (hrun : (forEach items fun x => atIndex (key x) (act x)).run family = some (r, family'))
    (hisolated : Isolated key act items family family') :
    ∀ x ∈ items.dropLast, ∃ s, (act x).run (family (key x)) = some (.ok (), s) := by
  induction items generalizing family with
  | nil => simp
  | cons x rest ih =>
      rw [List.map_cons, List.nodup_cons, List.mem_map, not_exists] at hkeys
      have hsame : ∀ s, ∀ y ∈ rest, Function.update family (key x) s (key y) = family (key y) :=
        fun s y hy => Function.update_of_ne (fun heq => hkeys.1 y ⟨hy, heq⟩) _ _
      have hisolated' : ∀ s, Isolated key act rest (Function.update family (key x) s) family' :=
        fun s y hy => by
          rw [hsame s y hy]
          exact hisolated y (List.mem_cons_of_mem _ hy)
      obtain ⟨r₁, hfirst⟩ := hisolated x List.mem_cons_self
      cases r₁ with
      | error e =>
          -- the loop stopped here, so nothing can be left
          rw [run_forEach_cons_of_error hfirst, Option.some.injEq, Prod.mk.injEq] at hrun
          have hlast : rest = [] := by
            rw [List.eq_nil_iff_forall_not_mem]
            intro y hy
            obtain ⟨r', hy'⟩ := hisolated y (List.mem_cons_of_mem _ hy)
            refine hchanges y (List.mem_cons_of_mem _ hy) _ _ hy' ?_
            rw [← hrun.2, hsame _ y hy]
          subst hlast
          simp
      | ok _ =>
          rw [run_forEach_cons_of_ok hfirst] at hrun
          have hok := ih hkeys.2 (fun y hy r s hs => by
            rw [hsame _ y hy] at hs ⊢
            exact hchanges y (List.mem_cons_of_mem _ hy) r s hs) hrun (hisolated' _)
          intro y hy
          rcases List.eq_nil_or_concat rest with rfl | ⟨front, last, hne⟩
          · simp at hy
          · rw [List.dropLast_cons_of_ne_nil (by simp [hne])] at hy
            rcases List.mem_cons.mp hy with rfl | hy
            · exact ⟨_, hfirst⟩
            · rw [← hsame _ y ((List.dropLast_sublist rest).subset hy)]
              exact hok y hy

/-- What a loop over members did to each: it ran the member's program, or an
exception ended the loop before. -/
theorem treated_of_run_forEach_atIndex (hkeys : (items.map key).Nodup)
    (hrun : (forEach items fun x => atIndex (key x) (act x)).run family = some (r, family')) :
    ∀ x ∈ items, (∃ r', (act x).run (family (key x)) = some (r', family' (key x)) ∧
      (r = .ok () → r' = .ok ())) ∨ (family' (key x) = family (key x) ∧ r ≠ .ok ()) := by
  induction items generalizing family with
  | nil => simp
  | cons x rest ih =>
      rw [List.map_cons, List.nodup_cons, List.mem_map, not_exists] at hkeys
      have hsame : ∀ s, ∀ y ∈ rest, Function.update family (key x) s (key y) = family (key y) :=
        fun s y hy => Function.update_of_ne (fun heq => hkeys.1 y ⟨hy, heq⟩) _ _
      cases hfirst : (act x).run (family (key x)) with
      | none => simp [run_forEach_cons_of_none hfirst] at hrun
      | some result =>
          obtain ⟨r₁, s⟩ := result
          cases r₁ with
          | error e =>
              rw [run_forEach_cons_of_error hfirst] at hrun
              cases hrun
              intro y hy
              rcases List.mem_cons.mp hy with rfl | hy
              · exact .inl ⟨_, by rw [hfirst, Function.update_self], by simp⟩
              · exact .inr ⟨hsame s y hy, by simp⟩
          | ok _ =>
              rw [run_forEach_cons_of_ok hfirst] at hrun
              intro y hy
              rcases List.mem_cons.mp hy with rfl | hy
              · rw [apply_of_run_forEach_atIndex hrun fun z hz heq => hkeys.1 z ⟨hz, heq.symm⟩,
                  Function.update_self]
                exact .inl ⟨_, hfirst, fun _ => rfl⟩
              · rw [← hsame s y hy]
                exact ih hkeys.2 hrun y hy

end Loop

end Act

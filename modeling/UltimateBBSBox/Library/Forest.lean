import Mathlib.Data.Set.Basic
import Mathlib.Logic.Relation

/-!
# Elements below their parents

A relation `parent a b` says that `b` was made from `a`.  It grows by leaves: a
new element below elements that are there (`Grows`), so it never has a cycle
(`Grows.acyclic`), with one parent for each element or with several.

In a forest of this kind elements hand a token down.  `Chained` says that of two
elements of one tree that have a token one is above the other and has handed it
down; then at most one of them can use it (`Chained.eq_of_not_away`).  The three
ways in which tokens change keep this: a leaf gets the token of its parents, an
element gives it up, an element takes it back that has no token below it.
-/

namespace Forest

open Relation

variable {α : Type*}

/-! ## Growing by leaves -/

/-- The two elements hang below one root. -/
def SameTree (parent : α → α → Prop) (a b : α) : Prop :=
  ∃ root, ReflTransGen parent root a ∧ ReflTransGen parent root b

/-- `parent'` is `parent` with a new element `leaf` below `parents`. -/
structure Grows (parent parent' : α → α → Prop) (leaf : α) (parents : Set α) : Prop where
  iff : ∀ a b, parent' a b ↔ parent a b ∨ (b = leaf ∧ a ∈ parents)
  childless : ∀ b, ¬ parent leaf b
  orphan : ∀ a, ¬ parent a leaf
  notMem : leaf ∉ parents

variable {parent parent' : α → α → Prop} {leaf : α} {parents : Set α}

namespace Grows

variable (h : Grows parent parent' leaf parents)

include h

theorem transGen {a b : α} (hab : TransGen parent a b) : TransGen parent' a b :=
  TransGen.mono (fun a b hstep => (h.iff a b).mpr (.inl hstep)) _ _ hab

theorem reflTransGen {a b : α} (hab : ReflTransGen parent a b) : ReflTransGen parent' a b :=
  ReflTransGen.mono (fun a b hstep => (h.iff a b).mpr (.inl hstep)) _ _ hab

/-- Nothing is below the new element. -/
theorem eq_of_reflTransGen {b : α} (hb : ReflTransGen parent leaf b) : b = leaf := by
  rcases ReflTransGen.cases_head hb with rfl | ⟨c, hstep, _⟩
  · rfl
  · exact absurd hstep (h.childless c)

/-- What is above what, after the growth. -/
theorem transGen_iff {a b : α} : TransGen parent' a b ↔
    TransGen parent a b ∨ (b = leaf ∧ ∃ p ∈ parents, ReflTransGen parent a p) := by
  constructor
  · intro hab
    induction hab with
    | single hstep =>
        rcases (h.iff _ _).mp hstep with hstep | ⟨rfl, hmem⟩
        · exact .inl (.single hstep)
        · exact .inr ⟨rfl, _, hmem, .refl⟩
    | tail _ hstep ih =>
        rcases ih with ih | ⟨rfl, _⟩
        · rcases (h.iff _ _).mp hstep with hstep | ⟨rfl, hmem⟩
          · exact .inl (ih.tail hstep)
          · exact .inr ⟨rfl, _, hmem, ih.to_reflTransGen⟩
        · -- nothing is below the new element
          rcases (h.iff _ _).mp hstep with hstep | ⟨_, hmem⟩
          · exact absurd hstep (h.childless _)
          · exact absurd hmem h.notMem
  · rintro (hab | ⟨rfl, p, hmem, hap⟩)
    · exact h.transGen hab
    · exact .tail' (h.reflTransGen hap) ((h.iff p _).mpr (.inr ⟨rfl, hmem⟩))

/-- A relation that grows by leaves has no cycle. -/
theorem acyclic (hacyclic : ∀ a, ¬ TransGen parent a a) (a : α) : ¬ TransGen parent' a a := by
  rw [h.transGen_iff]
  rintro (haa | ⟨rfl, p, hmem, hap⟩)
  · exact hacyclic a haa
  · exact h.notMem (h.eq_of_reflTransGen hap ▸ hmem)

theorem reflTransGen_of_ne {a b : α} (hab : ReflTransGen parent' a b) (hb : b ≠ leaf) :
    ReflTransGen parent a b := by
  rcases reflTransGen_iff_eq_or_transGen.mp hab with rfl | hab
  · exact .refl
  · rcases h.transGen_iff.mp hab with hab | ⟨heq, _⟩
    · exact hab.to_reflTransGen
    · exact absurd heq hb

/-- Elements that were there are in one tree if and only if they were. -/
theorem sameTree_of_ne {a b : α} (hab : SameTree parent' a b) (ha : a ≠ leaf) (hb : b ≠ leaf) :
    SameTree parent a b := by
  obtain ⟨root, hra, hrb⟩ := hab
  exact ⟨root, h.reflTransGen_of_ne hra ha, h.reflTransGen_of_ne hrb hb⟩

/-- What is in one tree with the new element is so with one of its parents. -/
theorem exists_sameTree {b : α} (hb : SameTree parent' leaf b) (hne : b ≠ leaf) :
    ∃ p ∈ parents, SameTree parent p b := by
  obtain ⟨root, hleaf, hrb⟩ := hb
  have hrb := h.reflTransGen_of_ne hrb hne
  rcases reflTransGen_iff_eq_or_transGen.mp hleaf with rfl | hleaf
  · exact absurd (h.eq_of_reflTransGen hrb) hne
  · rcases h.transGen_iff.mp hleaf with hleaf | ⟨_, p, hmem, hrp⟩
    · obtain ⟨c, _, hstep⟩ := TransGen.tail'_iff.mp hleaf
      exact absurd hstep (h.orphan c)
    · exact ⟨p, hmem, root, hrp, hrb⟩

end Grows

/-! ## Tokens -/

/-- Of two elements of one tree that have a token, one is above the other and has
handed it down. -/
def Chained (parent : α → α → Prop) (token away : α → Prop) : Prop :=
  ∀ a b, token a → token b → a ≠ b → SameTree parent a b →
    (TransGen parent a b ∧ away a) ∨ (TransGen parent b a ∧ away b)

namespace Chained

variable {token away token' away' : α → Prop}

/-- Each tree has one token at most that is not handed down. -/
theorem eq_of_not_away (h : Chained parent token away) {a b : α} (hab : SameTree parent a b)
    (ha : token a) (hb : token b) (hna : ¬ away a) (hnb : ¬ away b) : a = b := by
  by_contra hne
  rcases h a b ha hb hne hab with ⟨_, haway⟩ | ⟨_, haway⟩
  · exact hna haway
  · exact hnb haway

/-- Tokens are given up, or taken back by elements that have no other token below them. -/
theorem of_subset (h : Chained parent token away) (htoken : ∀ a, token' a → token a)
    (haway : ∀ a, token' a → away a →
      away' a ∨ ∀ b, token' b → b ≠ a → ¬ TransGen parent a b) :
    Chained parent token' away' := by
  intro a b ha hb hne hab
  rcases h a b (htoken a ha) (htoken b hb) hne hab with ⟨habove, hown⟩ | ⟨habove, hown⟩
  · rcases haway a ha hown with hown | hnone
    · exact .inl ⟨habove, hown⟩
    · exact absurd habove (hnone b hb hne.symm)
  · rcases haway b hb hown with hown | hnone
    · exact .inr ⟨habove, hown⟩
    · exact absurd habove (hnone a ha hne)

/-- A new element gets the tokens of its parents. -/
theorem of_grows (h : Chained parent token away) (hgrows : Grows parent parent' leaf parents)
    (htoken : ∀ a, token' a → a = leaf ∨ token a)
    (hparents : ∀ p ∈ parents, token p ∧ ¬ away p ∧ away' p)
    (haway : ∀ a, token' a → away a → away' a) : Chained parent' token' away' := by
  -- the new element and another one
  have hleaf : ∀ b, token' b → b ≠ leaf → SameTree parent' leaf b →
      TransGen parent' b leaf ∧ away' b := by
    intro b hb hne hsame
    obtain ⟨p, hmem, hpb⟩ := hgrows.exists_sameTree hsame hne
    obtain ⟨htokenp, hnot, hawayp⟩ := hparents p hmem
    have hold := (htoken b hb).resolve_left hne
    by_cases heq : p = b
    · subst heq
      exact ⟨hgrows.transGen_iff.mpr (.inr ⟨rfl, p, hmem, .refl⟩), hawayp⟩
    · rcases h p b htokenp hold heq hpb with ⟨_, hown⟩ | ⟨habove, hown⟩
      · exact absurd hown hnot
      · exact ⟨hgrows.transGen_iff.mpr (.inr ⟨rfl, p, hmem, habove.to_reflTransGen⟩),
          haway b hb hown⟩
  intro a b ha hb hne hab
  by_cases hal : a = leaf
  · subst hal
    exact .inr (hleaf b hb (Ne.symm hne) hab)
  by_cases hbl : b = leaf
  · subst hbl
    obtain ⟨root, hra, hrb⟩ := hab
    exact .inl (hleaf a ha hne ⟨root, hrb, hra⟩)
  rcases h a b ((htoken a ha).resolve_left hal) ((htoken b hb).resolve_left hbl) hne
    (hgrows.sameTree_of_ne hab hal hbl) with ⟨habove, hown⟩ | ⟨habove, hown⟩
  · exact .inl ⟨hgrows.transGen habove, haway a ha hown⟩
  · exact .inr ⟨hgrows.transGen habove, haway b hb hown⟩

end Chained

end Forest

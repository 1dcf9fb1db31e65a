import Mathlib.Data.List.Count
import Mathlib.Algebra.Order.Group.Int

/-!
# Budgets over a sliding window

A budget allows `limit` events in any closed interval of length `width`.  Its
keeper remembers some of the past events; before it admits one it forgets those
that are more than `width` older than the present reading of the clock, and
refuses when `limit` are left.

`Bounded` is the invariant: no interval contains more than `limit` events, and
of an interval that no clock reading has passed yet, no event has been
forgotten.  The keeper may forget at events only, never in between, and the
intervals are placed anywhere.
-/

namespace Window

variable {width : ℤ} {limit : ℕ} {seen all kept : List ℤ}

/-- How many of the events lie in the closed interval of length `width` from `left`. -/
def count (width left : ℤ) (events : List ℤ) : ℕ :=
  events.countP fun t => left ≤ t ∧ t ≤ left + width

/-- The events remembered at time `now`. -/
def recent (width now : ℤ) (events : List ℤ) : List ℤ := events.filter fun t => now - t ≤ width

/-- All events stay within the budget, and those remembered are those that matter. -/
structure Bounded (width : ℤ) (limit : ℕ) (seen all kept : List ℤ) : Prop where
  bounded : ∀ left, count width left all ≤ limit
  covered : ∀ left, (∀ t ∈ seen, t ≤ left + width) →
    count width left all ≤ count width left kept

theorem Bounded.nil : Bounded width limit seen [] kept :=
  ⟨fun _ => Nat.zero_le _, fun _ _ => Nat.zero_le _⟩

/-- Reading the clock. -/
theorem Bounded.read (h : Bounded width limit seen all kept) (t : ℤ) :
    Bounded width limit (t :: seen) all kept :=
  ⟨h.bounded, fun left hseen => h.covered left fun t ht => hseen t (List.mem_cons_of_mem _ ht)⟩

/-- Forgetting does not lose events of an interval that reaches the present. -/
theorem count_recent {now left : ℤ} (hnow : now ≤ left + width) (events : List ℤ) :
    count width left (recent width now events) = count width left events := by
  unfold count recent
  rw [List.countP_filter]
  refine List.countP_congr fun t _ => ?_
  simp only [decide_eq_true_eq, Bool.and_eq_true]
  omega

theorem Bounded.forget {now : ℤ} (h : Bounded width limit seen all kept) (hnow : now ∈ seen) :
    Bounded width limit seen all (recent width now kept) :=
  ⟨h.bounded, fun left hseen => by
    rw [count_recent (hseen now hnow)]
    exact h.covered left hseen⟩

/-- Admitting an event at the latest reading, with room left. -/
theorem Bounded.accept {now : ℤ} (h : Bounded width limit seen all kept)
    (hlatest : ∀ t ∈ seen, t ≤ now) (hroom : kept.length < limit) :
    Bounded width limit seen (now :: all) (kept ++ [now]) := by
  have hcons : ∀ left, count width left (now :: all) =
      count width left all + if left ≤ now ∧ now ≤ left + width then 1 else 0 := by
    intro left
    simp only [count, List.countP_cons, decide_eq_true_eq]
  have happend : ∀ left, count width left (kept ++ [now]) =
      count width left kept + if left ≤ now ∧ now ≤ left + width then 1 else 0 := by
    intro left
    simp only [count, List.countP_append, List.countP_singleton, decide_eq_true_eq]
  constructor
  · intro left
    rw [hcons]
    split
    · rename_i hinside
      -- the interval reaches the present, so its events are all remembered
      have hcovered := h.covered left fun t ht => (hlatest t ht).trans hinside.2
      have hlength : count width left kept ≤ kept.length := List.countP_le_length
      omega
    · exact h.bounded left
  · intro left hseen
    rw [hcons, happend]
    exact Nat.add_le_add_right (h.covered left hseen) _

end Window

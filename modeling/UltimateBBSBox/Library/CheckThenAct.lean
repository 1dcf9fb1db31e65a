import Mathlib.Data.Finset.Card
import Mathlib.Logic.Function.Basic
import UltimateBBSBox.Library.Machine

/-!
# Checking first and recording later

Any number of calls share a gate.  A call asks the gate whether it may go on; if so it does
its work, and records afterwards that it has worked.  These are three steps, and those of
different calls interleave freely.

A gate may refuse whoever asks once a number of calls have been recorded.  That bounds the
work done only while nobody asks when this number of calls has been let in and fewer have
been recorded (`worked_card_le`).
-/

namespace CheckThenAct

/-- How far a call has come. -/
inductive Phase | waiting | refused | admitted | worked | recorded
deriving DecidableEq

/-- A step of a call. -/
inductive Label (ι : Type)
  | check (call : ι)
  | work (call : ι)
  | record (call : ι)

/-- The gate and the calls; those that were let in, those that have worked, and the number of
those that were recorded. -/
structure World (ι G : Type) where
  gate : G
  phases : ι → Phase
  admitted : Finset ι
  worked : Finset ι
  recorded : ℕ

variable {ι G : Type} [DecidableEq ι]

namespace World

/-- Before the first call. -/
def initial (gate : G) : World ι G := ⟨gate, fun _ => .waiting, ∅, ∅, 0⟩

/-- A call has come further. -/
def enter (w : World ι G) (call : ι) (phase : Phase) : World ι G :=
  { w with phases := Function.update w.phases call phase }

/-- One step, where `check` asks the gate and `record` records a call. -/
def step (check : G → Bool × G) (record : ι → G → G) (w : World ι G) :
    Label ι → Option (Unit × World ι G)
  | .check call =>
      match w.phases call with
      | .waiting =>
          if (check w.gate).1 then
            some ((), { w.enter call .admitted with
              gate := (check w.gate).2
              admitted := insert call w.admitted })
          else some ((), { w.enter call .refused with gate := (check w.gate).2 })
      | _ => none
  | .work call =>
      match w.phases call with
      | .admitted => some ((), { w.enter call .worked with worked := insert call w.worked })
      | _ => none
  | .record call =>
      match w.phases call with
      | .worked =>
          some ((), { w.enter call .recorded with
            gate := record call w.gate
            recorded := w.recorded + 1 })
      | _ => none

end World

/-- Nobody asks when so many calls have been let in and fewer have been recorded. -/
def Ordered (limit : ℕ) (w : World ι G) : Label ι → Prop
  | .check _ => w.recorded < limit → w.admitted.card < limit
  | .work _ | .record _ => True

instance (limit : ℕ) (w : World ι G) (l : Label ι) : Decidable (Ordered limit w l) :=
  match l with
  | .check _ => inferInstanceAs (Decidable (w.recorded < limit → w.admitted.card < limit))
  | .work _ | .record _ => isTrue trivial

section Runs

variable {check : G → Bool × G} {record : ι → G → G} {w w' : World ι G} {call : ι}

theorem check_cases {r : Unit} (h : w.step check record (.check call) = some (r, w')) :
    w.phases call = .waiting ∧
      ((check w.gate).1 = true ∧
          w' = { w.enter call .admitted with
            gate := (check w.gate).2
            admitted := insert call w.admitted } ∨
        (check w.gate).1 = false ∧ w' = { w.enter call .refused with gate := (check w.gate).2 }) := by
  simp only [World.step] at h
  split at h
  · rename_i hphase
    refine ⟨hphase, ?_⟩
    split at h
    · rename_i hasked
      exact .inl ⟨hasked, (Prod.mk.inj (Option.some.inj h)).2.symm⟩
    · rename_i hasked
      exact .inr ⟨Bool.eq_false_iff.mpr hasked, (Prod.mk.inj (Option.some.inj h)).2.symm⟩
  · cases h

theorem work_cases {r : Unit} (h : w.step check record (.work call) = some (r, w')) :
    w.phases call = .admitted ∧
      w' = { w.enter call .worked with worked := insert call w.worked } := by
  simp only [World.step] at h
  split at h
  · rename_i hphase
    exact ⟨hphase, (Prod.mk.inj (Option.some.inj h)).2.symm⟩
  · cases h

theorem record_cases {r : Unit} (h : w.step check record (.record call) = some (r, w')) :
    w.phases call = .worked ∧
      w' = { w.enter call .recorded with
        gate := record call w.gate
        recorded := w.recorded + 1 } := by
  simp only [World.step] at h
  split at h
  · rename_i hphase
    exact ⟨hphase, (Prod.mk.inj (Option.some.inj h)).2.symm⟩
  · cases h

/-- A call by itself, from a gate that lets it in. -/
theorem run_alone_admitted {gate : G} (call : ι) (h : (check gate).1 = true) :
    ∃ last, Machine.Run (World.step check record) (fun _ _ => True) (World.initial gate) last ∧
      last.gate = record call (check gate).2 := by
  let asked : World ι G := { (World.initial gate).enter call .admitted with
    gate := (check gate).2
    admitted := {call} }
  let worked : World ι G := { asked.enter call .worked with worked := {call} }
  have hcheck : (World.initial gate).step check record (.check call) = some ((), asked) := by
    simp [World.step, World.initial, World.enter, asked, h]
  have hwork : asked.step check record (.work call) = some ((), worked) := by
    simp [World.step, World.initial, World.enter, asked, worked]
  have hrecord : worked.step check record (.record call) = some ((), { worked.enter call .recorded with
      gate := record call worked.gate
      recorded := worked.recorded + 1 }) := by
    simp [World.step, World.initial, World.enter, asked, worked]
  exact ⟨_, (((Machine.Run.refl _).snoc trivial hcheck).snoc trivial hwork).snoc trivial hrecord, rfl⟩

/-- A call by itself, from a gate that refuses it. -/
theorem run_alone_refused {gate : G} (call : ι) (h : (check gate).1 = false) :
    ∃ last, Machine.Run (World.step check record) (fun _ _ => True) (World.initial gate) last ∧
      last.gate = (check gate).2 := by
  have hcheck : (World.initial gate).step check record (.check call) =
      some ((), { (World.initial gate).enter call .refused with gate := (check gate).2 }) := by
    simp [World.step, World.initial, World.enter, h]
  exact ⟨_, (Machine.Run.refl _).snoc trivial hcheck, rfl⟩

/-- A gate that counts: it keeps its count when it is asked, refuses from the limit on, and counts
one more with each call that is recorded. -/
structure Counts (check : G → Bool × G) (record : ι → G → G) (limit : ℕ) (count : ℕ → G → Prop) :
    Prop where
  kept : ∀ n g, count n g → count n (check g).2
  refused : ∀ n g, count n g → limit ≤ n → (check g).1 = false
  counted : ∀ n g call, count n g → count (n + 1) (record call g)

/-- The gate has counted what was recorded, who is admitted was let in, and only those have worked. -/
structure Inv (limit : ℕ) (count : ℕ → G → Prop) (w : World ι G) : Prop where
  count : count w.recorded w.gate
  mem : ∀ call, w.phases call = .admitted → call ∈ w.admitted
  subset : w.worked ⊆ w.admitted
  few : w.admitted.card ≤ limit

variable {limit : ℕ} {count : ℕ → G → Prop}

/-- Who is admitted after one call has come further. -/
theorem admitted_of_update {phase : Phase} {other : ι}
    (h : Function.update w.phases call phase other = .admitted) :
    other = call ∧ phase = .admitted ∨ w.phases other = .admitted := by
  by_cases hother : other = call
  · subst hother
    rw [Function.update_self] at h
    exact .inl ⟨rfl, h⟩
  · rw [Function.update_of_ne hother] at h
    exact .inr h

theorem Inv.step {l : Label ι} {r : Unit} (h : Inv limit count w)
    (hcounts : Counts check record limit count) (hordered : Ordered limit w l)
    (hstep : w.step check record l = some (r, w')) : Inv limit count w' := by
  cases l with
  | check call =>
      obtain ⟨-, ⟨hasked, rfl⟩ | ⟨-, rfl⟩⟩ := check_cases hstep
      · -- an admitted call has seen fewer than the limit, and comes in order
        have hfew : w.recorded < limit := by
          by_contra hmany
          rw [hcounts.refused _ _ h.count (not_lt.mp hmany)] at hasked
          cases hasked
        refine ⟨hcounts.kept _ _ h.count, fun other hphase => ?_,
          h.subset.trans (Finset.subset_insert _ _), ?_⟩
        · rcases admitted_of_update hphase with ⟨rfl, -⟩ | hbefore
          · exact Finset.mem_insert_self _ _
          · exact Finset.mem_insert_of_mem (h.mem other hbefore)
        · exact (Finset.card_insert_le _ _).trans (hordered hfew)
      · refine ⟨hcounts.kept _ _ h.count, fun other hphase => ?_, h.subset, h.few⟩
        rcases admitted_of_update hphase with ⟨-, hrefused⟩ | hbefore
        · cases hrefused
        · exact h.mem other hbefore
  | work call =>
      obtain ⟨hphase, rfl⟩ := work_cases hstep
      refine ⟨h.count, fun other hother => ?_, ?_, h.few⟩
      · rcases admitted_of_update hother with ⟨-, hworked⟩ | hbefore
        · cases hworked
        · exact h.mem other hbefore
      · exact Finset.insert_subset (h.mem call hphase) h.subset
  | record call =>
      obtain ⟨-, rfl⟩ := record_cases hstep
      refine ⟨hcounts.counted _ _ call h.count, fun other hother => ?_, h.subset, h.few⟩
      rcases admitted_of_update hother with ⟨-, hrecorded⟩ | hbefore
      · cases hrecorded
      · exact h.mem other hbefore

/-- **While nobody asks out of order, no more calls work than the limit.** -/
theorem worked_card_le {gate : G} (hcounts : Counts check record limit count) (hstart : count 0 gate)
    (h : Machine.Run (World.step check record) (Ordered limit) (World.initial gate) w) :
    w.worked.card ≤ limit := by
  have hinitial : Inv limit count (World.initial gate : World ι G) := by
    refine ⟨hstart, fun call hphase => ?_, Finset.Subset.refl _, Nat.zero_le _⟩
    cases hphase
  have hinv := h.invariant hinitial fun _ _ _ _ hinv hordered hstep => hinv.step hcounts hordered hstep
  exact (Finset.card_le_card hinv.subset).trans hinv.few

end Runs

end CheckThenAct

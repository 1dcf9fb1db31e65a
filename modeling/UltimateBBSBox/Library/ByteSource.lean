import Mathlib.Data.List.Basic
import Mathlib.Tactic.Common

/-!
# Sources that are read piece by piece

A source holds what is still inbound and delivers it in pieces of at most the
size that is asked for.  It may deliver less than is there, but not nothing: an
empty piece means that nothing is inbound, unless nothing was asked for.

A reader that takes the first empty piece for the end of the source is right
exactly if it never asks for nothing while something is inbound
(`ByteSource.drain_sound_iff`).
-/

/-- A source of values of type `α` with states `S`. -/
structure ByteSource (α S : Type*) where
  inbound : S → List α
  read : ℕ → S → List α × S
  split : ∀ size s, (read size s).1 ++ inbound (read size s).2 = inbound s
  bounded : ∀ size s, (read size s).1.length ≤ size
  progress : ∀ size s, 0 < size → (read size s).1 = [] → inbound s = []

/-- What comes of reading a source until a piece is empty. -/
structure Drained (α S : Type*) where
  data : List α
  rest : S
  ended : Bool

namespace ByteSource

variable {α S : Type*} (source : ByteSource α S)

/-- Ask for each of the sizes in turn, up to the first piece that is empty. -/
def drain : List ℕ → S → Drained α S
  | [], s => ⟨[], s, false⟩
  | size :: sizes, s =>
      match source.read size s with
      | ([], s') => ⟨[], s', true⟩
      | (data, s') =>
          let more := drain sizes s'
          ⟨data ++ more.data, more.rest, more.ended⟩

theorem drain_cons_of_empty {size : ℕ} {sizes : List ℕ} {s : S}
    (h : (source.read size s).1 = []) :
    source.drain (size :: sizes) s = ⟨[], (source.read size s).2, true⟩ := by
  rw [drain]
  split
  · rename_i hread
    rw [hread]
  · rename_i data s' hne hread
    rw [hread] at h
    exact absurd h hne

theorem drain_cons_of_ne {size : ℕ} {sizes : List ℕ} {s : S} (h : (source.read size s).1 ≠ []) :
    source.drain (size :: sizes) s =
      ⟨(source.read size s).1 ++ (source.drain sizes (source.read size s).2).data,
        (source.drain sizes (source.read size s).2).rest,
        (source.drain sizes (source.read size s).2).ended⟩ := by
  rw [drain]
  split
  · rename_i hread
    rw [hread] at h
    exact absurd rfl h
  · rename_i hread
    rw [hread]

/-- What was read comes before what is still inbound. -/
theorem drain_split (sizes : List ℕ) (s : S) :
    (source.drain sizes s).data ++ source.inbound (source.drain sizes s).rest =
      source.inbound s := by
  induction sizes generalizing s with
  | nil => rfl
  | cons size sizes ih =>
      have hsplit := source.split size s
      by_cases h : (source.read size s).1 = []
      · rw [source.drain_cons_of_empty h]
        rwa [h] at hsplit
      · rw [source.drain_cons_of_ne h]
        calc ((source.read size s).1 ++ (source.drain sizes (source.read size s).2).data) ++
              source.inbound (source.drain sizes (source.read size s).2).rest
            = (source.read size s).1 ++ source.inbound (source.read size s).2 := by
              rw [List.append_assoc, ih]
          _ = source.inbound s := hsplit

/-- A reader that has not come to an end goes on from where it is. -/
theorem drain_append {before : List ℕ} (after : List ℕ) {s : S}
    (h : (source.drain before s).ended = false) :
    source.drain (before ++ after) s =
      ⟨(source.drain before s).data ++ (source.drain after (source.drain before s).rest).data,
        (source.drain after (source.drain before s).rest).rest,
        (source.drain after (source.drain before s).rest).ended⟩ := by
  induction before generalizing s with
  | nil => rfl
  | cons size before ih =>
      by_cases hread : (source.read size s).1 = []
      · rw [source.drain_cons_of_empty hread] at h
        cases h
      · rw [source.drain_cons_of_ne hread] at h
        rw [List.cons_append, source.drain_cons_of_ne hread, source.drain_cons_of_ne hread,
          ih h, List.append_assoc]

/-- Whenever nothing is asked for, for the first time, nothing is inbound. -/
def AsksInTime (sizes : List ℕ) (s : S) : Prop :=
  ∀ before after, sizes = before ++ 0 :: after → 0 ∉ before →
    source.inbound (source.drain before s).rest = []

theorem inbound_of_ended {sizes : List ℕ} {s : S} (htime : source.AsksInTime sizes s)
    (hended : (source.drain sizes s).ended = true) :
    source.inbound (source.drain sizes s).rest = [] := by
  induction sizes generalizing s with
  | nil => cases hended
  | cons size sizes ih =>
      have hzero : size = 0 → source.inbound s = [] := by
        intro hsize
        exact htime [] sizes (by rw [hsize, List.nil_append]) (List.not_mem_nil)
      by_cases h : (source.read size s).1 = []
      · have hinbound : source.inbound s = [] := by
          rcases Nat.eq_zero_or_pos size with hsize | hsize
          · exact hzero hsize
          · exact source.progress size s hsize h
        have hsplit := source.split size s
        rw [h, List.nil_append, hinbound] at hsplit
        rw [source.drain_cons_of_empty h]
        exact hsplit
      · have hsize : size ≠ 0 := by
          intro hsize
          have hsplit := source.split size s
          rw [hzero hsize] at hsplit
          exact h (List.append_eq_nil_iff.mp hsplit).1
        rw [source.drain_cons_of_ne h] at hended ⊢
        refine ih ?_ hended
        intro before after hsizes hpositive
        have hlater := htime (size :: before) after (by rw [hsizes, List.cons_append])
          (by rw [List.mem_cons, not_or]; exact ⟨Ne.symm hsize, hpositive⟩)
        rwa [source.drain_cons_of_ne h] at hlater

/-- **The end is told rightly** exactly if nothing is never asked for too early. -/
theorem drain_sound_iff {sizes : List ℕ} {s : S} :
    ((source.drain sizes s).ended = true → source.inbound (source.drain sizes s).rest = []) ↔
      source.AsksInTime sizes s := by
  constructor
  · intro hsound before after hsizes hpositive
    cases hended : (source.drain before s).ended with
    | true =>
        refine source.inbound_of_ended ?_ hended
        intro before' after' hbefore _
        exact absurd (hbefore ▸ List.mem_append_right _ List.mem_cons_self) hpositive
    | false =>
        have hempty : (source.read 0 (source.drain before s).rest).1 = [] :=
          List.eq_nil_of_length_eq_zero (Nat.le_zero.mp (source.bounded 0 _))
        have hdrain := source.drain_append (0 :: after) hended
        rw [source.drain_cons_of_empty hempty, ← hsizes] at hdrain
        have hrest := hsound (by rw [hdrain])
        have hsplit := source.split 0 (source.drain before s).rest
        rw [hempty, List.nil_append] at hsplit
        rw [hdrain] at hrest
        rw [← hsplit]
        exact hrest
  · exact source.inbound_of_ended

end ByteSource

/-! ## A queue of pieces -/

/-- Pieces that have come in, none of them empty. -/
structure Chunks (α : Type*) where
  pieces : List (List α)
  nonempty : [] ∉ pieces

namespace Chunks

variable {α : Type*}

/-- Take the first piece, or as much of it as is asked for. -/
def read (size : ℕ) (chunks : Chunks α) : List α × Chunks α :=
  match chunks with
  | ⟨[], nonempty⟩ => ([], ⟨[], nonempty⟩)
  | ⟨value :: rest, nonempty⟩ =>
      if h : size < value.length then
        (value.take size,
          ⟨value.drop size :: rest, by
            rw [List.mem_cons, not_or] at nonempty ⊢
            refine ⟨?_, nonempty.2⟩
            intro hdrop
            have := List.drop_eq_nil_iff.mp hdrop.symm
            omega⟩)
      else
        (value,
          ⟨rest, fun hmem => nonempty (List.mem_cons_of_mem _ hmem)⟩)

/-- The queue as a source. -/
def source : ByteSource α (Chunks α) where
  inbound chunks := chunks.pieces.flatten
  read := read
  split := by
    intro size chunks
    obtain ⟨pieces, nonempty⟩ := chunks
    cases pieces with
    | nil => rfl
    | cons value rest =>
        simp only [read]
        split
        · simp [← List.append_assoc, List.take_append_drop]
        · simp
  bounded := by
    intro size chunks
    obtain ⟨pieces, nonempty⟩ := chunks
    cases pieces with
    | nil => exact Nat.zero_le _
    | cons value rest =>
        simp only [read]
        split
        · exact List.length_take_le _ _
        · rename_i hle
          exact Nat.not_lt.mp hle
  progress := by
    intro size chunks hsize hread
    obtain ⟨pieces, nonempty⟩ := chunks
    cases pieces with
    | nil => rfl
    | cons value rest =>
        rw [List.mem_cons, not_or] at nonempty
        simp only [read] at hread
        split at hread
        · rename_i hlt
          rw [List.take_eq_nil_iff] at hread
          rcases hread with hzero | hnil
          · omega
          · exact absurd hnil.symm nonempty.1
        · exact absurd hread.symm nonempty.1

/-- The lengths of the pieces that are left when reads of these sizes have gone by. -/
def leftover : List ℕ → List ℕ → List ℕ
  | lengths, [] => lengths
  | [], _ :: _ => []
  | length :: rest, size :: sizes =>
      if size < length then leftover ((length - size) :: rest) sizes else leftover rest sizes

/-- What is left of a queue after reads that each ask for something. -/
theorem map_length_drain {sizes : List ℕ} (hpositive : 0 ∉ sizes) (chunks : Chunks α) :
    (source.drain sizes chunks).rest.pieces.map List.length =
      leftover (chunks.pieces.map List.length) sizes := by
  induction sizes generalizing chunks with
  | nil => simp [ByteSource.drain, leftover]
  | cons size sizes ih =>
      rw [List.mem_cons, not_or] at hpositive
      obtain ⟨pieces, nonempty⟩ := chunks
      cases pieces with
      | nil =>
          have hempty : (source.read size (⟨[], nonempty⟩ : Chunks α)).1 = [] := rfl
          rw [source.drain_cons_of_empty hempty]
          rfl
      | cons value rest =>
          have hne : (source.read size (⟨value :: rest, nonempty⟩ : Chunks α)).1 ≠ [] := by
            intro hempty
            have hnil := source.progress size _ (by omega) hempty
            simp only [source, List.flatten_cons, List.append_eq_nil_iff] at hnil
            exact nonempty (hnil.1 ▸ List.mem_cons_self)
          rw [source.drain_cons_of_ne hne, ih hpositive.2, List.map_cons, leftover]
          simp only [source, read]
          by_cases hlt : size < value.length
          · simp [hlt, List.length_drop]
          · simp [hlt]

/-- A queue of non-empty pieces is used up exactly if it has no piece left. -/
theorem inbound_eq_nil_iff {chunks : Chunks α} :
    source.inbound chunks = [] ↔ chunks.pieces.map List.length = [] := by
  obtain ⟨pieces, nonempty⟩ := chunks
  cases pieces with
  | nil => simp [source]
  | cons value rest =>
      rw [List.mem_cons, not_or] at nonempty
      simp [source, Ne.symm nonempty.1]

/-- When nothing is asked for in time, by the lengths of the pieces alone. -/
theorem asksInTime_iff {sizes : List ℕ} {chunks : Chunks α} :
    source.AsksInTime sizes chunks ↔
      ∀ before after, sizes = before ++ 0 :: after → 0 ∉ before →
        leftover (chunks.pieces.map List.length) before = [] := by
  unfold ByteSource.AsksInTime
  refine forall₂_congr fun before after => ?_
  refine forall₂_congr fun _ hpositive => ?_
  rw [inbound_eq_nil_iff, map_length_drain hpositive]

end Chunks

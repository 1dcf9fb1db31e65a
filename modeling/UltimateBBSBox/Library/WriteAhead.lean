import Mathlib.Data.List.Infix

/-!
# Write-ahead journals

A process moves through states.  Each move is first announced in a journal and
then stored; between moves the state may be stored again.  `Writes edge start`
are the writes of such a process, newest first, with the state it is in.

Whatever the point at which the process is cut off, the announced moves form a
chain from its first state, and what is stored is the state it announced last
or the one before (`agrees_of_suffix`).
-/

/-- A durable write: the announcement of a move, or a stored state. -/
inductive Write (α : Type)
  | move (old new : α)
  | store (state : α)

namespace WriteAhead

variable {α : Type}

/-- The writes of a process that has not been cut off, and the state it is in. -/
inductive Writes (edge : α → α → Prop) (start : α) : List (Write α) → α → Prop
  | nil : Writes edge start [] start
  | store {writes : List (Write α)} {state : α} :
      Writes edge start writes state → Writes edge start (.store state :: writes) state
  | move {writes : List (Write α)} {old new : α} :
      Writes edge start writes old → edge old new →
        Writes edge start (.store new :: .move old new :: writes) new

/-- The announced moves, newest first. -/
def moves (writes : List (Write α)) : List (α × α) := writes.filterMap fun
  | .move old new => some (old, new)
  | .store _ => none

/-- The announced states, newest first, down to the first state of the process. -/
def announced (start : α) (moves : List (α × α)) : List α := moves.map Prod.snd ++ [start]

/-- The stored state; `start` was stored before. -/
def stored (start : α) (writes : List (Write α)) : α :=
  (writes.findSome? fun
    | .store state => some state
    | .move _ _ => none).getD start

/-- Each move starts where the one before it ended. -/
def Chained (start : α) : List (α × α) → Prop
  | [] => True
  | move :: before => (announced start before).head? = some move.1 ∧ Chained start before

/-- The journal and the stored state agree up to the move that was under way. -/
structure Agrees (edge : α → α → Prop) (start : α) (writes : List (Write α)) : Prop where
  chained : Chained start (moves writes)
  edges : ∀ move ∈ moves writes, edge move.1 move.2
  stored : stored start writes ∈ (announced start (moves writes)).take 2

variable {edge : α → α → Prop} {start state : α} {writes writes' : List (Write α)}

/-- An undisturbed process has announced the state it is in. -/
theorem Writes.announced_head? (h : Writes edge start writes state) :
    (announced start (moves writes)).head? = some state := by
  induction h with
  | nil => rfl
  | store _ ih => exact ih
  | move _ _ _ => rfl

/-- It has stored it, too. -/
theorem Writes.stored_eq (h : Writes edge start writes state) :
    WriteAhead.stored start writes = state := by
  induction h with
  | nil => rfl
  | store _ _ => rfl
  | move _ _ _ => rfl

theorem Writes.chained (h : Writes edge start writes state) : Chained start (moves writes) := by
  induction h with
  | nil => trivial
  | store _ ih => exact ih
  | move hbefore _ ih => exact ⟨hbefore.announced_head?, ih⟩

theorem Writes.edges (h : Writes edge start writes state) :
    ∀ move ∈ moves writes, edge move.1 move.2 := by
  induction h with
  | nil => intro move hmove; cases hmove
  | store _ ih => exact ih
  | move _ hedge ih =>
      intro move hmove
      rcases List.mem_cons.mp hmove with rfl | hmove
      · exact hedge
      · exact ih move hmove

theorem Writes.agrees (h : Writes edge start writes state) : Agrees edge start writes where
  chained := h.chained
  edges := h.edges
  stored := by
    obtain ⟨rest, hrest⟩ := List.head?_eq_some_iff.mp h.announced_head?
    rw [h.stored_eq, hrest]
    exact List.mem_cons_self ..

/-- A process that was cut off between the announcement of a move and its store. -/
theorem Writes.agrees_cons_move (h : Writes edge start writes state) {new : α}
    (hedge : edge state new) : Agrees edge start (.move state new :: writes) where
  chained := ⟨h.announced_head?, h.chained⟩
  edges := by
    intro move hmove
    rcases List.mem_cons.mp hmove with rfl | hmove
    · exact hedge
    · exact h.edges move hmove
  stored := by
    obtain ⟨rest, hrest⟩ := List.head?_eq_some_iff.mp h.announced_head?
    have hstored : WriteAhead.stored start (.move state new :: writes) = state := h.stored_eq
    have hannounced : announced start (moves (.move state new :: writes)) = new :: state :: rest :=
      congrArg (new :: ·) hrest
    rw [hstored, hannounced]
    simp

/-- Wherever a process is cut off, what it has written agrees. -/
theorem Writes.agrees_of_suffix (h : Writes edge start writes state) (hcut : writes' <:+ writes) :
    Agrees edge start writes' := by
  induction h with
  | nil =>
      rw [List.suffix_nil.mp hcut]
      exact Writes.nil.agrees
  | store hbefore ih =>
      rcases List.suffix_cons_iff.mp hcut with rfl | hcut
      · exact hbefore.store.agrees
      · exact ih hcut
  | move hbefore hedge ih =>
      rcases List.suffix_cons_iff.mp hcut with rfl | hcut
      · exact (hbefore.move hedge).agrees
      · rcases List.suffix_cons_iff.mp hcut with rfl | hcut
        · exact hbefore.agrees_cons_move hedge
        · exact ih hcut

end WriteAhead

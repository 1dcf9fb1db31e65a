import Mathlib.Data.Int.LeastGreatest
import Mathlib.Data.Set.Card
import Mathlib.Order.Bounds.Basic
import UltimateBBSBox.Dos.Deployments
import UltimateBBSBox.Library.Dict
import UltimateBBSBox.Library.Machine

/-!
# The nodes of a DOS service

`NodeAllocator` of `ubb_dos.py`.  Every call holds the lock from its first to its last look
at the table, so the calls of all threads are steps one after the other, in the order in
which they get the lock.  The steps are total, and a call that raises is a step too.

`reached_spec` says what holds after any calls: nodes and sessions are matched one to one
(`Matched`), and what each of the three calls answers and leaves.
-/

namespace UltimateBBSBox.Dos

variable {Session : Type}

/-- `NodeAllocator`: the capacity and `_allocated`. -/
structure NodeAllocator (Session : Type) where
  capacity : ℤ
  allocated : Dict ℤ Session

namespace NodeAllocator

/-- `NodeAllocator(capacity)`. -/
def init (capacity : ℤ) : Except DOSConfigError (NodeAllocator Session) :=
  if capacity < 1 then .error ⟨"node capacity must be positive"⟩ else .ok ⟨capacity, ∅⟩

/-- `range(1, capacity + 1)`. -/
def nodes (capacity : ℤ) : List ℤ := (List.range capacity.toNat).map fun i : ℕ => (i : ℤ) + 1

variable [DecidableEq Session]

def allocate (a : NodeAllocator Session) (sessionId : Session) :
    Except DOSConfigError ℤ × NodeAllocator Session :=
  match a.allocated.entries.find? fun entry => entry.2 = sessionId with
  | some (node, _) => (.ok node, a)
  | none =>
      match (nodes a.capacity).find? fun node => (a.allocated.get? node).isNone with
      | some node => (.ok node, { a with allocated := a.allocated.set node sessionId })
      | none => (.error ⟨"DOS node capacity exhausted"⟩, a)

def release (a : NodeAllocator Session) (node : ℤ) (sessionId : Option Session) :
    Bool × NodeAllocator Session :=
  match a.allocated.get? node with
  | none => (false, a)
  | some owner =>
      if sessionId.any fun sessionId => owner ≠ sessionId then (false, a)
      else (true, { a with allocated := a.allocated.pop node })

/-- The nodes whose owner is not active. -/
def stale (a : NodeAllocator Session) (activeSessions : Finset Session) : List ℤ :=
  (a.allocated.entries.filter fun entry => entry.2 ∉ activeSessions).map Prod.fst

def recoverStale (a : NodeAllocator Session) (activeSessions : Finset Session) :
    ℕ × NodeAllocator Session :=
  let stale := a.stale activeSessions
  (stale.length, { a with allocated := a.allocated.popAll stale })

/-! ## Calls of all threads -/

inductive Call (Session : Type)
  | allocate (sessionId : Session)
  | release (node : ℤ) (sessionId : Option Session)
  | recoverStale (activeSessions : Finset Session)

/-- What a call returns or raises. -/
inductive Answer
  | node (result : Except DOSConfigError ℤ)
  | released (result : Bool)
  | recovered (count : ℕ)

def step (a : NodeAllocator Session) : Call Session → Answer × NodeAllocator Session
  | .allocate sessionId => (a.allocate sessionId).map .node id
  | .release node sessionId => (a.release node sessionId).map .released id
  | .recoverStale activeSessions => (a.recoverStale activeSessions).map .recovered id

/-- The allocator after any calls. -/
def Reached (initial a : NodeAllocator Session) : Prop :=
  Machine.Run (fun a call => some (step a call)) (fun _ _ => True) initial a

/-! ## What is looked for -/

omit [DecidableEq Session] in
theorem mem_nodes {capacity node : ℤ} : node ∈ nodes capacity ↔ 1 ≤ node ∧ node ≤ capacity := by
  unfold nodes
  rw [List.mem_map]
  constructor
  · rintro ⟨i, hi, rfl⟩
    have := List.mem_range.mp hi
    omega
  · rintro ⟨hlow, hhigh⟩
    exact ⟨(node - 1).toNat, List.mem_range.mpr (by omega), by omega⟩

omit [DecidableEq Session] in
theorem pairwise_nodes (capacity : ℤ) : (nodes capacity).Pairwise (· < ·) := by
  unfold nodes
  rw [List.pairwise_map]
  exact List.pairwise_lt_range.imp fun h => by omega

/-- A node of the capacity that nobody has. -/
def IsFree (a : NodeAllocator Session) (node : ℤ) : Prop :=
  (1 ≤ node ∧ node ≤ a.capacity) ∧ a.allocated.get? node = none

section Allocating

variable {a : NodeAllocator Session} {sessionId : Session}

/-- The first loop finds a node of the session, if it has any. -/
theorem exists_find?_owner {node : ℤ} (h : a.allocated.get? node = some sessionId) :
    ∃ node', a.allocated.get? node' = some sessionId ∧
      a.allocate sessionId = (.ok node', a) := by
  unfold allocate
  cases hfind : a.allocated.entries.find? fun entry => entry.2 = sessionId with
  | none =>
      have hmem := Dict.mem_entries_of_get? h
      exact absurd (decide_eq_true rfl) (List.find?_eq_none.mp hfind _ hmem)
  | some entry =>
      have howner : entry.2 = sessionId := by simpa using List.find?_some hfind
      refine ⟨entry.1, ?_, rfl⟩
      rw [← howner]
      exact Dict.get?_of_mem_entries (List.mem_of_find?_eq_some hfind)

/-- The first loop finds nothing for a session without a node. -/
theorem find?_owner_eq_none (h : ∀ node, a.allocated.get? node ≠ some sessionId) :
    (a.allocated.entries.find? fun entry => entry.2 = sessionId) = none := by
  rw [List.find?_eq_none]
  intro entry hmem howner
  have howner : entry.2 = sessionId := by simpa using howner
  exact h entry.1 (howner ▸ Dict.get?_of_mem_entries hmem)

/-- A session without a node gets the lowest free one. -/
theorem allocate_eq_of_isLeast {node : ℤ} (hnone : ∀ node, a.allocated.get? node ≠ some sessionId)
    (hleast : IsLeast { node | a.IsFree node } node) :
    a.allocate sessionId = (.ok node, { a with allocated := a.allocated.set node sessionId }) := by
  obtain ⟨⟨hnode, hfree⟩, hlower⟩ := hleast
  obtain ⟨before, after, hsplit⟩ := List.append_of_mem (mem_nodes.mpr hnode)
  have hbefore : ∀ node' ∈ before, ¬ (a.allocated.get? node').isNone = true := by
    intro node' hmem hisNone
    -- a free node in front of this one would be a lower one
    have hmem' : node' ∈ nodes a.capacity := hsplit ▸ List.mem_append_left _ hmem
    have hle : node ≤ node' := hlower ⟨mem_nodes.mp hmem', Option.isNone_iff_eq_none.mp hisNone⟩
    have hpairwise := pairwise_nodes a.capacity
    rw [hsplit, List.pairwise_append] at hpairwise
    exact absurd (hpairwise.2.2 node' hmem node List.mem_cons_self) (not_lt.mpr hle)
  have hfind : ((nodes a.capacity).find? fun node => (a.allocated.get? node).isNone) =
      some node := by
    rw [hsplit, List.find?_append, List.find?_eq_none.mpr hbefore, Option.none_or,
      List.find?_cons_of_pos (by rw [hfree]; rfl)]
  unfold allocate
  rw [find?_owner_eq_none hnone]
  simp only [hfind]

/-- A session without a node gets none where no node is free. -/
theorem allocate_eq_of_not_isFree (hnone : ∀ node, a.allocated.get? node ≠ some sessionId)
    (hfull : ∀ node, ¬ a.IsFree node) :
    a.allocate sessionId = (.error ⟨"DOS node capacity exhausted"⟩, a) := by
  have hfind : ((nodes a.capacity).find? fun node => (a.allocated.get? node).isNone) = none := by
    rw [List.find?_eq_none]
    intro node hmem hisNone
    exact hfull node ⟨mem_nodes.mp hmem, Option.isNone_iff_eq_none.mp hisNone⟩
  unfold allocate
  rw [find?_owner_eq_none hnone]
  simp only [hfind]

omit [DecidableEq Session] in
/-- Where a node is free, one is the lowest. -/
theorem exists_isLeast {node : ℤ} (h : a.IsFree node) :
    ∃ node, IsLeast { node | a.IsFree node } node := by
  obtain ⟨least, hfree, hleast⟩ :=
    Int.exists_least_of_bdd ⟨1, fun node (h : a.IsFree node) => h.1.1⟩ ⟨node, h⟩
  exact ⟨least, hfree, fun node hnode => hleast node hnode⟩

/-- The three cases of `allocate`. -/
theorem allocate_cases (a : NodeAllocator Session) (sessionId : Session) :
    (∃ node, a.allocated.get? node = some sessionId ∧ a.allocate sessionId = (.ok node, a)) ∨
    (∃ node, (∀ node, a.allocated.get? node ≠ some sessionId) ∧
      IsLeast { node | a.IsFree node } node ∧ a.allocate sessionId =
        (.ok node, { a with allocated := a.allocated.set node sessionId })) ∨
    ((∀ node, a.allocated.get? node ≠ some sessionId) ∧ (∀ node, ¬ a.IsFree node) ∧
      a.allocate sessionId = (.error ⟨"DOS node capacity exhausted"⟩, a)) := by
  by_cases hheld : ∃ node, a.allocated.get? node = some sessionId
  · obtain ⟨node, hnode⟩ := hheld
    exact .inl (exists_find?_owner hnode)
  · have hnone := not_exists.mp hheld
    by_cases hfree : ∃ node, a.IsFree node
    · obtain ⟨node, hnode⟩ := hfree
      obtain ⟨least, hleast⟩ := exists_isLeast hnode
      exact .inr (.inl ⟨least, hnone, hleast, allocate_eq_of_isLeast hnone hleast⟩)
    · have hfull := not_exists.mp hfree
      exact .inr (.inr ⟨hnone, hfull, allocate_eq_of_not_isFree hnone hfull⟩)

end Allocating

/-! ## Releasing and recovering -/

section Releasing

variable {a : NodeAllocator Session} {activeSessions : Finset Session}

theorem mem_stale {node : ℤ} :
    node ∈ a.stale activeSessions ↔
      ∃ owner, a.allocated.get? node = some owner ∧ owner ∉ activeSessions := by
  unfold stale
  rw [List.mem_map]
  constructor
  · rintro ⟨entry, hmem, rfl⟩
    obtain ⟨hentry, howner⟩ := List.mem_filter.mp hmem
    exact ⟨entry.2, Dict.get?_of_mem_entries hentry, of_decide_eq_true howner⟩
  · rintro ⟨owner, hget, howner⟩
    exact ⟨(node, owner), List.mem_filter.mpr
      ⟨Dict.mem_entries_of_get? hget, decide_eq_true howner⟩, rfl⟩

theorem nodup_stale (a : NodeAllocator Session) (activeSessions : Finset Session) :
    (a.stale activeSessions).Nodup :=
  a.allocated.nodup.sublist (List.filter_sublist.map _)

theorem length_stale (a : NodeAllocator Session) (activeSessions : Finset Session) :
    (a.stale activeSessions).length =
      Set.ncard { node | ∃ owner, a.allocated.get? node = some owner ∧ owner ∉ activeSessions } := by
  have hset : { node | ∃ owner, a.allocated.get? node = some owner ∧ owner ∉ activeSessions } =
      ((a.stale activeSessions).toFinset : Set ℤ) := by
    ext node
    rw [Set.mem_ofPred_eq, Finset.mem_coe, List.mem_toFinset, mem_stale]
  rw [hset, Set.ncard_coe_finset, List.toFinset_card_of_nodup (nodup_stale a activeSessions)]

/-- What the table has after `recover_stale`. -/
theorem get?_recoverStale (node : ℤ) :
    (a.recoverStale activeSessions).2.allocated.get? node =
      (a.allocated.get? node).filter fun owner => owner ∈ activeSessions := by
  change (a.allocated.popAll (a.stale activeSessions)).get? node = _
  rw [Dict.popAll_eq_filterKeys, Dict.get?_filterKeys]
  cases hget : a.allocated.get? node with
  | none => simp
  | some owner =>
      have hstale : node ∈ a.stale activeSessions ↔ owner ∉ activeSessions := by
        rw [mem_stale]
        constructor
        · rintro ⟨owner', hget', howner⟩
          exact Option.some.inj (hget'.symm.trans hget) ▸ howner
        · exact fun howner => ⟨owner, hget, howner⟩
      by_cases howner : owner ∈ activeSessions <;> simp [hstale, howner, Option.filter]

end Releasing

/-! ## Nodes and sessions are matched -/

/-- Every node that is given is one of the capacity, and no session has two.  That no node has
two sessions is what a table is. -/
structure Matched (a : NodeAllocator Session) : Prop where
  bounds : ∀ node owner, a.allocated.get? node = some owner → 1 ≤ node ∧ node ≤ a.capacity
  unique : ∀ node node' owner, a.allocated.get? node = some owner →
    a.allocated.get? node' = some owner → node = node'

namespace Matched

variable {a : NodeAllocator Session}

omit [DecidableEq Session] in
/-- A table with fewer entries. -/
theorem mono (h : a.Matched) {allocated : Dict ℤ Session}
    (hsub : ∀ node owner, allocated.get? node = some owner → a.allocated.get? node = some owner) :
    Matched { a with allocated } where
  bounds node owner hget := h.bounds node owner (hsub node owner hget)
  unique node node' owner hget hget' :=
    h.unique node node' owner (hsub node owner hget) (hsub node' owner hget')

omit [DecidableEq Session] in
/-- A free node is given to a session without one. -/
theorem set (h : a.Matched) {node : ℤ} {sessionId : Session} (hfree : a.IsFree node)
    (hnone : ∀ node, a.allocated.get? node ≠ some sessionId) :
    Matched { a with allocated := a.allocated.set node sessionId } where
  bounds node' owner hget := by
    rw [Dict.get?_set] at hget
    split at hget
    · rename_i heq
      exact heq ▸ hfree.1
    · exact h.bounds node' owner hget
  unique node₁ node₂ owner hget₁ hget₂ := by
    rw [Dict.get?_set] at hget₁ hget₂
    split at hget₁ <;> split at hget₂
    · rename_i heq₁ heq₂
      rw [heq₁, heq₂]
    · exact absurd (Option.some.inj hget₁ ▸ hget₂) (hnone node₂)
    · exact absurd (Option.some.inj hget₂ ▸ hget₁) (hnone node₁)
    · exact h.unique node₁ node₂ owner hget₁ hget₂

theorem step (h : a.Matched) (call : Call Session) : (step a call).2.Matched := by
  cases call with
  | allocate sessionId =>
      change (a.allocate sessionId).2.Matched
      rcases allocate_cases a sessionId with ⟨node, -, heq⟩ | ⟨node, hnone, hleast, heq⟩ |
        ⟨-, -, heq⟩
      · rw [heq]
        exact h
      · rw [heq]
        exact h.set hleast.1 hnone
      · rw [heq]
        exact h
  | release node sessionId =>
      change (a.release node sessionId).2.Matched
      unfold release
      cases hget : a.allocated.get? node with
      | none => exact h
      | some owner =>
          dsimp only
          split
          · exact h
          · refine h.mono fun node' owner' hget' => ?_
            rw [Dict.get?_pop] at hget'
            split at hget'
            · cases hget'
            · exact hget'
  | recoverStale activeSessions =>
      refine h.mono fun node owner hget => ?_
      have hfilter := (get?_recoverStale (a := a) node).symm.trans hget
      exact (Option.filter_eq_some_iff.mp hfilter).1

end Matched

theorem capacity_step (a : NodeAllocator Session) (call : Call Session) :
    (step a call).2.capacity = a.capacity := by
  cases call with
  | allocate sessionId =>
      change (a.allocate sessionId).2.capacity = _
      rcases allocate_cases a sessionId with ⟨_, -, heq⟩ | ⟨_, -, -, heq⟩ | ⟨-, -, heq⟩ <;> rw [heq]
  | release node sessionId =>
      change (a.release node sessionId).2.capacity = _
      unfold release
      split
      · rfl
      · split <;> rfl
  | recoverStale activeSessions => rfl

/-- What holds at the start holds after any calls. -/
theorem Reached.matched {initial a : NodeAllocator Session} (h : Reached initial a)
    (hmatched : initial.Matched) : a.capacity = initial.capacity ∧ a.Matched := by
  refine Machine.Run.invariant (P := fun a => a.capacity = initial.capacity ∧ a.Matched) h
    ⟨rfl, hmatched⟩ ?_
  rintro a call answer a' ⟨hcapacity, hmatched⟩ - hstep
  obtain rfl : (step a call).2 = a' := congrArg Prod.snd (Option.some.inj hstep)
  exact ⟨(capacity_step a call).trans hcapacity, hmatched.step call⟩

/-! ## What the calls answer -/

/-- `allocate` returns the node that the session has, or else gives it the lowest free one, or
else raises and changes nothing. -/
structure Allocates (a : NodeAllocator Session) (sessionId : Session) : Prop where
  held : ∀ node, a.allocated.get? node = some sessionId → a.allocate sessionId = (.ok node, a)
  lowest : (∀ node, a.allocated.get? node ≠ some sessionId) →
    ∀ node, IsLeast { node | a.IsFree node } node →
      a.allocate sessionId =
        (.ok node, { a with allocated := a.allocated.set node sessionId })
  raises_iff : (∃ error, (a.allocate sessionId).1 = .error error) ↔
    (∀ node, a.allocated.get? node ≠ some sessionId) ∧
      ∀ node, 1 ≤ node → node ≤ a.capacity →
        ∃ owner, owner ≠ sessionId ∧ a.allocated.get? node = some owner
  unchanged : ∀ error, (a.allocate sessionId).1 = .error error → (a.allocate sessionId).2 = a

/-- `release` removes the node and nothing else if it is given to the session, or to any where
none is named; and else nothing.  It says which. -/
structure Releases (a : NodeAllocator Session) (node : ℤ) (sessionId : Option Session) : Prop where
  removed : ∀ owner, a.allocated.get? node = some owner → (sessionId = none ∨ sessionId = some owner) →
    a.release node sessionId = (true, { a with allocated := a.allocated.pop node })
  kept : (∀ owner, a.allocated.get? node = some owner → sessionId ≠ none ∧ sessionId ≠ some owner) →
    a.release node sessionId = (false, a)

/-- `recover_stale` removes the nodes whose owner is not active, and returns their number. -/
structure Recovers (a : NodeAllocator Session) (activeSessions : Finset Session) : Prop where
  removed : ∀ node, (a.recoverStale activeSessions).2.allocated.get? node =
    (a.allocated.get? node).filter fun owner => owner ∈ activeSessions
  count : (a.recoverStale activeSessions).1 =
    Set.ncard { node | ∃ owner, a.allocated.get? node = some owner ∧ owner ∉ activeSessions }

theorem Matched.allocates {a : NodeAllocator Session} (h : a.Matched) (sessionId : Session) :
    a.Allocates sessionId := by
  refine ⟨fun node hnode => ?_, fun hnone node hleast => allocate_eq_of_isLeast hnone hleast,
    ⟨?_, ?_⟩, ?_⟩
  · obtain ⟨node', hnode', heq⟩ := exists_find?_owner hnode
    rw [heq, h.unique node' node sessionId hnode' hnode]
  · rintro ⟨error, herror⟩
    rcases allocate_cases a sessionId with ⟨_, -, heq⟩ | ⟨_, -, -, heq⟩ | ⟨hnone, hfull, -⟩
    · rw [heq] at herror
      cases herror
    · rw [heq] at herror
      cases herror
    · refine ⟨hnone, fun node hlow hhigh => ?_⟩
      have hget : a.allocated.get? node ≠ none := fun hget => hfull node ⟨⟨hlow, hhigh⟩, hget⟩
      obtain ⟨owner, howner⟩ := Option.ne_none_iff_exists'.mp hget
      refine ⟨owner, ?_, howner⟩
      rintro rfl
      exact hnone node howner
  · rintro ⟨hnone, hheld⟩
    have hfull : ∀ node, ¬ a.IsFree node := by
      rintro node ⟨⟨hlow, hhigh⟩, hfree⟩
      obtain ⟨owner, -, howner⟩ := hheld node hlow hhigh
      rw [howner] at hfree
      cases hfree
    rw [allocate_eq_of_not_isFree hnone hfull]
    exact ⟨_, rfl⟩
  · intro error herror
    rcases allocate_cases a sessionId with ⟨_, -, heq⟩ | ⟨_, -, -, heq⟩ | ⟨-, -, heq⟩
    · rw [heq]
    · rw [heq] at herror
      cases herror
    · rw [heq]

theorem releases (a : NodeAllocator Session) (node : ℤ) (sessionId : Option Session) :
    a.Releases node sessionId := by
  refine ⟨fun owner hget howner => ?_, fun hkept => ?_⟩
  · unfold release
    rw [hget]
    rcases howner with rfl | rfl
    · rfl
    · simp
  · unfold release
    cases hget : a.allocated.get? node with
    | none => rfl
    | some owner =>
        obtain ⟨hsome, hother⟩ := hkept owner hget
        obtain ⟨other, rfl⟩ := Option.ne_none_iff_exists'.mp hsome
        have hne : owner ≠ other := fun heq => hother (heq ▸ rfl)
        simp [hne]

/-- After any calls, in the order in which they get the lock, nodes and sessions are matched,
and each of the three calls does what it says. -/
theorem reached_spec {capacity : ℤ} (hcapacity : 1 ≤ capacity) :
    ∃ initial : NodeAllocator Session, init capacity = .ok initial ∧
      ∀ a, Reached initial a →
        a.capacity = capacity ∧ a.Matched ∧ (∀ sessionId, a.Allocates sessionId) ∧
          (∀ node sessionId, a.Releases node sessionId) ∧
          ∀ activeSessions, a.Recovers activeSessions := by
  refine ⟨⟨capacity, ∅⟩, if_neg (not_lt.mpr hcapacity), fun a hreached => ?_⟩
  have hinitial : Matched (⟨capacity, ∅⟩ : NodeAllocator Session) :=
    ⟨fun node owner h => (Option.some_ne_none owner h.symm).elim,
      fun node node' owner h => (Option.some_ne_none owner h.symm).elim⟩
  obtain ⟨hsame, hmatched⟩ := hreached.matched hinitial
  exact ⟨hsame, hmatched, hmatched.allocates, a.releases, fun activeSessions =>
    ⟨get?_recoverStale, length_stale a activeSessions⟩⟩

/-- With both nodes given away a third session is refused, and no other session releases a node;
once the sessions that are gone have lost theirs, the third gets the lowest. -/
theorem reached_spec_two_nodes :
    ∃ initial full later : NodeAllocator String, init 2 = .ok initial ∧
      Reached initial full ∧ (full.allocate "c").1.toOption = none ∧
      (full.release 1 (some "b")).1 = false ∧ full.Matched ∧
      Reached initial later ∧ later.allocated.get? 1 = some "c" ∧ later.allocated.get? 2 = some "b" ∧
      later.Matched := by
  obtain ⟨initial, hinitial, hspec⟩ := @reached_spec String _ 2 (by decide)
  obtain rfl : (⟨2, ∅⟩ : NodeAllocator String) = initial := Except.ok.inj hinitial
  have hfull : ((Machine.exec (fun a call => some (step a call)) (fun _ _ => True) ⟨2, ∅⟩
      [.allocate "a", .allocate "b"]).map fun a : NodeAllocator String =>
        ((a.allocate "c").1.toOption, (a.release 1 (some "b")).1)) = some (none, false) := by
    decide +kernel
  have hlater : ((Machine.exec (fun a call => some (step a call)) (fun _ _ => True) ⟨2, ∅⟩
      [.allocate "a", .allocate "b", .allocate "c", .release 1 (some "b"), .recoverStale (singleton "b"),
        .allocate "c"]).map fun a : NodeAllocator String =>
        (a.allocated.get? 1, a.allocated.get? 2)) = some (some "c", some "b") := by
    decide +kernel
  obtain ⟨full, hfull, hanswers⟩ := Option.map_eq_some_iff.mp hfull
  obtain ⟨later, hlater, hnodes⟩ := Option.map_eq_some_iff.mp hlater
  obtain ⟨hrefused, hkept⟩ := Prod.mk.inj hanswers
  obtain ⟨hfirst, hsecond⟩ := Prod.mk.inj hnodes
  have hfullReached : Reached ⟨2, ∅⟩ full := Machine.run_of_exec hfull
  have hlaterReached : Reached ⟨2, ∅⟩ later := Machine.run_of_exec hlater
  exact ⟨_, full, later, hinitial, hfullReached, hrefused, hkept, (hspec full hfullReached).2.1,
    hlaterReached, hfirst, hsecond, (hspec later hlaterReached).2.1⟩

end NodeAllocator

end UltimateBBSBox.Dos

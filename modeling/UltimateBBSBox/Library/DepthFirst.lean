import Mathlib.Data.List.Nodup
import Mathlib.Data.List.Perm.Subperm
import Mathlib.Logic.Relation

/-!
# Depth-first search for cycles

The recursive search with three colours: a node is new, being visited or done, and to meet
one that is being visited is to meet a cycle.  A call may open so many calls below it; of
more than there are nodes none is ever missing (`visit_spec`).

What carries the proof is that every node being visited reaches the node that is met, and
that no infinite way starts at a node that is done.
-/

namespace DepthFirst

open Relation (TransGen)

variable {α : Type}

/-- Why a search stops. -/
inductive Stop
  | cycle
  | tooDeep
deriving DecidableEq

/-- The nodes that are being visited, and those that were. -/
structure Marks (α : Type) where
  visiting : List α
  done : List α

section Search

variable [BEq α] [LawfulBEq α] (next : α → List α)

/-- The visit of a node, with how many calls may be open. -/
def visit : ℕ → Marks α → α → Except Stop (Marks α)
  | 0, _, _ => .error .tooDeep
  | limit + 1, marks, node =>
      if node ∈ marks.visiting then .error .cycle
      else if node ∈ marks.done then .ok marks
      else do
        let marks ← (next node).foldlM (visit limit) { marks with visiting := node :: marks.visiting }
        return { visiting := marks.visiting.erase node, done := node :: marks.done }

/-- The visit of one node after the other. -/
def search (limit : ℕ) (nodes : List α) : Except Stop (Marks α) :=
  nodes.foldlM (visit next limit) ⟨[], []⟩

end Search

/-- There is an edge between the nodes. -/
def Edge (next : α → List α) (a b : α) : Prop := b ∈ next a

/-- A node on a cycle. -/
def OnCycle (next : α → List α) (a : α) : Prop := TransGen (Edge next) a a

variable {next : α → List α} {nodes targets : List α} {marks : Marks α} {node : α} {limit : ℕ}

/-- No infinite way starts at a node. -/
def Finite (next : α → List α) (a : α) : Prop := Acc (fun b a => Edge next a b) a

theorem Finite.not_onCycle (h : Finite next node) : ¬ OnCycle next node := by
  induction h with
  | intro a _ ih =>
      intro hcycle
      -- the second node of the cycle is on it too
      obtain ⟨b, hedge, hback⟩ := TransGen.head'_iff.mp hcycle
      exact ih b hedge (Relation.TransGen.tail' hback hedge)

/-- What holds between two calls. -/
structure Sound (next : α → List α) (nodes : List α) (marks : Marks α) : Prop where
  nodup : marks.visiting.Nodup
  subset : marks.visiting ⊆ nodes
  done : ∀ a ∈ marks.done, a ∈ nodes ∧ Finite next a

theorem Sound.length_le (h : Sound next nodes marks) : marks.visiting.length ≤ nodes.length :=
  (h.nodup.subperm h.subset).length_le

/-- How the visits of some nodes end: all of them are done, or there is a cycle, or there were
more calls than nodes. -/
def Ends (next : α → List α) (nodes : List α) (limit : ℕ) (marks : Marks α) (targets : List α) :
    Except Stop (Marks α) → Prop
  | .ok marks' => marks'.visiting = marks.visiting ∧ marks.done ⊆ marks'.done ∧
      targets ⊆ marks'.done ∧ Sound next nodes marks'
  | .error .cycle => ∃ a ∈ nodes, OnCycle next a
  | .error .tooDeep => limit + marks.visiting.length ≤ nodes.length

variable [BEq α] [LawfulBEq α]

/-- One visit after the other, with the same nodes being visited. -/
theorem ends_foldlM {visited : List α}
    (hvisit : ∀ marks, Sound next nodes marks → marks.visiting = visited → ∀ target ∈ targets,
      Ends next nodes limit marks [target] (visit next limit marks target))
    (hmarks : Sound next nodes marks) (hvisited : marks.visiting = visited) :
    Ends next nodes limit marks targets (targets.foldlM (visit next limit) marks) := by
  induction targets generalizing marks with
  | nil => exact ⟨rfl, List.Subset.refl _, List.nil_subset _, hmarks⟩
  | cons target rest ih =>
      have hfirst := hvisit marks hmarks hvisited target List.mem_cons_self
      rw [List.foldlM_cons]
      cases hresult : visit next limit marks target with
      | error stop =>
          rw [hresult] at hfirst
          cases stop with
          | cycle => exact hfirst
          | tooDeep => exact hfirst
      | ok marks' =>
          rw [hresult] at hfirst
          obtain ⟨hsame, hgrows, htarget, hsound⟩ := hfirst
          have hrest := ih (fun marks hmarks hvisited other hother =>
            hvisit marks hmarks hvisited other (List.mem_cons_of_mem _ hother)) hsound
            (hsame.trans hvisited)
          change Ends next nodes limit marks (target :: rest) (rest.foldlM (visit next limit) marks')
          cases hothers : rest.foldlM (visit next limit) marks' with
          | error stop =>
              rw [hothers] at hrest
              cases stop with
              | cycle => exact hrest
              | tooDeep =>
                  unfold Ends at hrest ⊢
                  rwa [hsame] at hrest
          | ok marks'' =>
              rw [hothers] at hrest
              obtain ⟨hsame', hgrows', hdone, hsound'⟩ := hrest
              refine ⟨hsame'.trans hsame, List.Subset.trans hgrows hgrows', ?_, hsound'⟩
              exact List.cons_subset.mpr ⟨hgrows' (htarget List.mem_cons_self), hdone⟩

/-- **One visit**, of a node that every node being visited reaches. -/
theorem visit_spec (hnext : ∀ a ∈ nodes, next a ⊆ nodes) (hmarks : Sound next nodes marks)
    (hnode : node ∈ nodes) (hreached : ∀ a ∈ marks.visiting, TransGen (Edge next) a node) :
    Ends next nodes limit marks [node] (visit next limit marks node) := by
  induction limit generalizing marks node with
  | zero =>
      have hlength := hmarks.length_le
      change 0 + marks.visiting.length ≤ nodes.length
      omega
  | succ limit ih =>
      rw [visit]
      split
      · rename_i hvisiting
        exact ⟨node, hnode, hreached node hvisiting⟩
      · rename_i hvisiting
        split
        · rename_i hdone
          exact ⟨rfl, List.Subset.refl _, List.cons_subset.mpr ⟨hdone, List.nil_subset _⟩, hmarks⟩
        · -- the node is new, and on the way to what comes after it
          have hopened : Sound next nodes { marks with visiting := node :: marks.visiting } :=
            ⟨List.nodup_cons.mpr ⟨hvisiting, hmarks.nodup⟩, List.cons_subset.mpr ⟨hnode, hmarks.subset⟩,
              hmarks.done⟩
          have hbelow : Ends next nodes limit { marks with visiting := node :: marks.visiting }
              (next node) ((next node).foldlM (visit next limit)
                { marks with visiting := node :: marks.visiting }) := by
            refine ends_foldlM (fun marks' hmarks' hvisited target htarget => ?_) hopened rfl
            refine ih hmarks' (hnext node hnode htarget) fun a ha => ?_
            rw [hvisited] at ha
            rcases List.mem_cons.mp ha with rfl | ha
            · exact TransGen.single htarget
            · exact (hreached a ha).tail htarget
          cases hresult : (next node).foldlM (visit next limit)
              { marks with visiting := node :: marks.visiting } with
          | error stop =>
              rw [hresult] at hbelow
              cases stop with
              | cycle => exact hbelow
              | tooDeep =>
                  have hlength : limit + (marks.visiting.length + 1) ≤ nodes.length := hbelow
                  change limit + 1 + marks.visiting.length ≤ nodes.length
                  omega
          | ok marks' =>
              rw [hresult] at hbelow
              obtain ⟨hsame, hgrows, hdone, hsound⟩ := hbelow
              have herase : marks'.visiting.erase node = marks.visiting := by
                rw [hsame]
                exact List.erase_cons_head ..
              refine ⟨herase, fun a ha => List.mem_cons_of_mem _ (hgrows ha),
                List.cons_subset.mpr ⟨List.mem_cons_self, List.nil_subset _⟩, ?_, ?_, ?_⟩
              · exact herase ▸ hmarks.nodup
              · exact herase ▸ hmarks.subset
              · intro a ha
                rcases List.mem_cons.mp ha with rfl | ha
                · exact ⟨hnode, Acc.intro _ fun b hedge => (hsound.done b (hdone hedge)).2⟩
                · exact hsound.done a ha

/-- **The search**, with more calls than there are nodes: all nodes are done, and none is on a
cycle, or it stops at a cycle. -/
theorem search_spec (hnext : ∀ a ∈ nodes, next a ⊆ nodes) (hlimit : nodes.length < limit) :
    (∃ marks, search next limit nodes = .ok marks ∧ (∀ a, a ∈ marks.done ↔ a ∈ nodes) ∧
        ∀ a ∈ nodes, ¬ OnCycle next a) ∨
      search next limit nodes = .error .cycle ∧ ∃ a ∈ nodes, OnCycle next a := by
  have hstart : Sound next nodes ⟨[], []⟩ :=
    ⟨List.nodup_nil, List.nil_subset _, fun a ha => absurd ha List.not_mem_nil⟩
  have hends : Ends next nodes limit ⟨[], []⟩ nodes (search next limit nodes) := by
    refine ends_foldlM (fun marks hmarks hvisited node hnode => ?_) hstart rfl
    refine visit_spec hnext hmarks hnode fun a ha => ?_
    rw [hvisited] at ha
    exact absurd ha List.not_mem_nil
  cases hresult : search next limit nodes with
  | error stop =>
      rw [hresult] at hends
      cases stop with
      | cycle => exact .inr ⟨rfl, hends⟩
      | tooDeep =>
          have hshort : limit + 0 ≤ nodes.length := hends
          omega
  | ok marks =>
      rw [hresult] at hends
      obtain ⟨-, -, hdone, hsound⟩ := hends
      exact .inl ⟨marks, rfl, fun a => ⟨fun ha => (hsound.done a ha).1, fun ha => hdone ha⟩,
        fun a ha => (hsound.done a (hdone ha)).2.not_onCycle⟩

end DepthFirst

import UltimateBBSBox.Library.Dict

/-!
# Resources under keys

Resources are opened one after the other, and named by the number of the opening: what
the system calls them is used again.  A program records a resource under a key, and
closes it.

A ledger is tight if the resources that are open are those that are recorded, each under
one key, and no resource is closed twice.  Closing what a key has keeps it tight
(`Tight.closeFor`), and so does closing at once what was opened (`Tight.discard`).  To
record what was opened keeps it tight if and only if the key has nothing
(`Tight.record_iff`), and what is opened and left alone is lost (`Tight.not_lose`).
-/

/-- How many resources were opened, which were closed (once for each time), and what is
recorded. -/
structure Ledger (K : Type) [DecidableEq K] where
  opened : ℕ
  closed : List ℕ
  recorded : Dict K ℕ

namespace Ledger

variable {K : Type} [DecidableEq K]

/-- Nothing was opened. -/
def empty : Ledger K := ⟨0, [], ∅⟩

/-- Open a resource. -/
def lose (ledger : Ledger K) : Ledger K := { ledger with opened := ledger.opened + 1 }

/-- Close a resource that no key has. -/
def close (ledger : Ledger K) (resource : ℕ) : Ledger K :=
  { ledger with closed := resource :: ledger.closed }

/-- Record a resource under a key. -/
def record (ledger : Ledger K) (key : K) (resource : ℕ) : Ledger K :=
  { ledger with recorded := ledger.recorded.set key resource }

/-- Close what a key has, and forget it. -/
def closeFor (ledger : Ledger K) (key : K) : Ledger K :=
  match ledger.recorded.get? key with
  | some resource =>
      { ledger with
        closed := resource :: ledger.closed
        recorded := ledger.recorded.pop key }
  | none => ledger

theorem get?_closeFor (ledger : Ledger K) (key key' : K) :
    (ledger.closeFor key).recorded.get? key' =
      if key' = key then none else ledger.recorded.get? key' := by
  unfold closeFor
  cases hkey : ledger.recorded.get? key with
  | some resource => exact Dict.get?_pop _ _ _
  | none =>
      by_cases heq : key' = key
      · rw [if_pos heq, heq]
        exact hkey
      · exact (if_neg heq).symm

/-- The resource was opened and is not closed. -/
def IsOpen (ledger : Ledger K) (resource : ℕ) : Prop :=
  resource < ledger.opened ∧ resource ∉ ledger.closed

/-- What is open is recorded, under one key, and nothing is closed twice. -/
structure Tight (ledger : Ledger K) : Prop where
  isOpen_iff : ∀ resource, ledger.IsOpen resource ↔ ∃ key, ledger.recorded.get? key = some resource
  unique : ∀ key key' resource, ledger.recorded.get? key = some resource →
    ledger.recorded.get? key' = some resource → key = key'
  nodup : ledger.closed.Nodup
  closed_lt : ∀ resource ∈ ledger.closed, resource < ledger.opened

theorem tight_empty : (empty : Ledger K).Tight where
  isOpen_iff resource := by
    constructor
    · exact fun h => absurd h.1 (Nat.not_lt_zero resource)
    · rintro ⟨key, h⟩
      cases h
  unique key key' resource h := by cases h
  nodup := List.nodup_nil
  closed_lt resource h := by cases h

namespace Tight

variable {ledger : Ledger K} (h : ledger.Tight)

include h

theorem lt_opened {key : K} {resource : ℕ} (hkey : ledger.recorded.get? key = some resource) :
    resource < ledger.opened := ((h.isOpen_iff resource).mpr ⟨key, hkey⟩).1

/-- What was opened and is not recorded was closed, and only once. -/
theorem count_closed {resource : ℕ} (hopened : resource < ledger.opened)
    (hnone : ∀ key, ledger.recorded.get? key ≠ some resource) : ledger.closed.count resource = 1 := by
  have hclosed : resource ∈ ledger.closed := by
    by_contra hmem
    obtain ⟨key, hkey⟩ := (h.isOpen_iff resource).mp ⟨hopened, hmem⟩
    exact hnone key hkey
  exact List.count_eq_one_of_mem h.nodup hclosed

/-- Closing what a key has. -/
theorem closeFor (key : K) : (ledger.closeFor key).Tight := by
  unfold Ledger.closeFor
  cases hkey : ledger.recorded.get? key with
  | none => exact h
  | some resource =>
      have hresource := (h.isOpen_iff resource).mpr ⟨key, hkey⟩
      refine ⟨fun other => ?_, fun key₁ key₂ other h₁ h₂ => ?_, ?_, ?_⟩
      · constructor
        · rintro ⟨hopened, hclosed⟩
          obtain ⟨hne, hclosed⟩ := not_or.mp (mt List.mem_cons.mpr hclosed)
          obtain ⟨key', hkey'⟩ := (h.isOpen_iff other).mp ⟨hopened, hclosed⟩
          refine ⟨key', ?_⟩
          have hkeys : key' ≠ key := by
            rintro rfl
            exact hne (Option.some.inj (hkey'.symm.trans hkey))
          rw [Dict.get?_pop_ne _ hkeys]
          exact hkey'
        · rintro ⟨key', hkey'⟩
          rw [Dict.get?_pop] at hkey'
          split at hkey'
          · cases hkey'
          · rename_i hkeys
            obtain ⟨hopened, hclosed⟩ := (h.isOpen_iff other).mpr ⟨key', hkey'⟩
            refine ⟨hopened, fun hmem => ?_⟩
            rcases List.mem_cons.mp hmem with rfl | hmem
            · -- the closed resource was recorded once, under `key`
              exact hkeys (h.unique _ _ _ hkey' hkey)
            · exact hclosed hmem
      · rw [Dict.get?_pop] at h₁ h₂
        split at h₁
        · cases h₁
        · split at h₂
          · cases h₂
          · exact h.unique _ _ _ h₁ h₂
      · exact List.nodup_cons.mpr ⟨hresource.2, h.nodup⟩
      · exact List.forall_mem_cons.mpr ⟨hresource.1, h.closed_lt⟩

theorem isOpen_lose {resource : ℕ} :
    ledger.lose.IsOpen resource ↔ ledger.IsOpen resource ∨ resource = ledger.opened := by
  unfold IsOpen lose
  have hfresh : ledger.opened ∉ ledger.closed := fun hmem => Nat.lt_irrefl _ (h.closed_lt _ hmem)
  constructor
  · rintro ⟨hopened, hclosed⟩
    rcases Nat.lt_succ_iff_lt_or_eq.mp hopened with hlt | heq
    · exact .inl ⟨hlt, hclosed⟩
    · exact .inr heq
  · rintro (⟨hopened, hclosed⟩ | rfl)
    · exact ⟨Nat.lt_succ_of_lt hopened, hclosed⟩
    · exact ⟨Nat.lt_succ_self _, hfresh⟩

/-- What is opened and left alone is lost. -/
theorem not_lose : ¬ ledger.lose.Tight := by
  intro hlose
  obtain ⟨key, hkey⟩ := (hlose.isOpen_iff ledger.opened).mp (h.isOpen_lose.mpr (.inr rfl))
  exact Nat.lt_irrefl _ (h.lt_opened hkey)

/-- Opening and closing at once. -/
theorem discard : (ledger.lose.close ledger.opened).Tight := by
  have hfresh : ledger.opened ∉ ledger.closed := fun hmem => Nat.lt_irrefl _ (h.closed_lt _ hmem)
  have hclosed : ∀ resource ∈ ledger.closed, resource < ledger.opened + 1 :=
    fun resource hmem => Nat.lt_succ_of_lt (h.closed_lt resource hmem)
  refine ⟨fun resource => ?_, h.unique, List.nodup_cons.mpr ⟨hfresh, h.nodup⟩,
    List.forall_mem_cons.mpr ⟨Nat.lt_succ_self _, hclosed⟩⟩
  calc (ledger.lose.close ledger.opened).IsOpen resource
      ↔ ledger.lose.IsOpen resource ∧ resource ≠ ledger.opened := by
        unfold IsOpen close lose
        rw [List.mem_cons, not_or, and_assoc, and_comm (a := resource ≠ _)]
    _ ↔ ledger.IsOpen resource := by
        rw [h.isOpen_lose]
        constructor
        · rintro ⟨hopen | heq, hne⟩
          · exact hopen
          · exact absurd heq hne
        · exact fun hopen => ⟨.inl hopen, Nat.ne_of_lt hopen.1⟩
    _ ↔ ∃ key, ledger.recorded.get? key = some resource := h.isOpen_iff resource

/-- What is opened may be recorded under a key that has nothing, and under no other. -/
theorem record_iff (key : K) :
    (ledger.lose.record key ledger.opened).Tight ↔ ledger.recorded.get? key = none := by
  have hget : ∀ key', (ledger.lose.record key ledger.opened).recorded.get? key' =
      if key' = key then some ledger.opened else ledger.recorded.get? key' :=
    fun key' => Dict.get?_set _ _ _ _
  constructor
  · intro hrecord
    by_contra hne
    obtain ⟨resource, hkey⟩ := Option.ne_none_iff_exists'.mp hne
    -- what the key had is open, and no key has it any more
    have hopen : ledger.lose.IsOpen resource :=
      h.isOpen_lose.mpr (.inl ((h.isOpen_iff resource).mpr ⟨key, hkey⟩))
    obtain ⟨key', hkey'⟩ := (hrecord.isOpen_iff resource).mp hopen
    rw [hget] at hkey'
    split at hkey'
    · exact Nat.ne_of_lt (h.lt_opened hkey) (Option.some.inj hkey').symm
    · rename_i hkeys
      exact hkeys (h.unique _ _ _ hkey' hkey)
  · intro hnone
    refine ⟨fun resource => ?_, fun key₁ key₂ resource h₁ h₂ => ?_, h.nodup, ?_⟩
    · calc (ledger.lose.record key ledger.opened).IsOpen resource
          ↔ ledger.IsOpen resource ∨ resource = ledger.opened := h.isOpen_lose
        _ ↔ (∃ key', ledger.recorded.get? key' = some resource) ∨ resource = ledger.opened := by
            rw [h.isOpen_iff]
        _ ↔ ∃ key', (ledger.lose.record key ledger.opened).recorded.get? key' = some resource := by
            constructor
            · rintro (⟨key', hkey'⟩ | rfl)
              · have hkeys : key' ≠ key := by
                  rintro rfl
                  exact absurd (hnone.symm.trans hkey') (Option.some_ne_none _).symm
                exact ⟨key', by rw [hget, if_neg hkeys]; exact hkey'⟩
              · exact ⟨key, by rw [hget, if_pos rfl]⟩
            · rintro ⟨key', hkey'⟩
              rw [hget] at hkey'
              split at hkey'
              · exact .inr (Option.some.inj hkey').symm
              · exact .inl ⟨key', hkey'⟩
    · rw [hget] at h₁ h₂
      split at h₁ <;> split at h₂
      · rename_i hkey₁ hkey₂
        rw [hkey₁, hkey₂]
      · exact absurd (Option.some.inj h₁).symm (Nat.ne_of_lt (h.lt_opened h₂))
      · exact absurd (Option.some.inj h₂).symm (Nat.ne_of_lt (h.lt_opened h₁))
      · exact h.unique _ _ _ h₁ h₂
    · exact fun resource hmem => Nat.lt_succ_of_lt (h.closed_lt resource hmem)

end Tight

end Ledger

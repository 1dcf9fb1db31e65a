import UltimateBBSBox.Backup.Manager

/-!
# What calls of `create` leave in the root

A call ends after any of its file operations.  What holds of every directory of the
root, of a directory without a manifest and of the finished one, holds after the
call as well (`Everywhere.create`): the operations are looked at one by one here and
nowhere else.
-/

namespace UltimateBBSBox.Backup

open Tar

/-- Every directory is as `p` says. -/
def Everywhere (p : String → Folder → Prop) (root : Root) : Prop :=
  ∀ bid folder, root.get? bid = some folder → p bid folder

/-- A directory with neither manifest. -/
def Folder.Unfinished (folder : Folder) : Prop :=
  folder.manifest.manifest? = none ∧ folder.evidence = .missing

namespace Everywhere

variable {p : String → Folder → Prop} {root : Root}

theorem empty : Everywhere p ∅ := fun bid folder hget => by cases hget

theorem set (h : Everywhere p root) {bid : String} {folder : Folder} (hfolder : p bid folder) :
    Everywhere p (root.set bid folder) := by
  intro bid' folder' hget
  rw [Dict.get?_set] at hget
  split at hget
  · rename_i heq
    rw [heq, ← Option.some.inj hget]
    exact hfolder
  · exact h bid' folder' hget

theorem pop (h : Everywhere p root) (bid : String) : Everywhere p (root.pop bid) := by
  intro bid' folder hget
  rw [Dict.get?_pop] at hget
  split at hget
  · cases hget
  · exact h bid' folder hget

/-- What every file operation keeps, a call that ends after any of them keeps. -/
theorem perform {operations : List (Root → Root)} (h : Everywhere p root)
    (hoperations : ∀ operation ∈ operations, ∀ root, Everywhere p root →
      Everywhere p (operation root)) (done : ℕ) :
    Everywhere p (perform operations done root) := by
  have hsome : ∀ operation ∈ operations.take done, ∀ root, Everywhere p root →
      Everywhere p (operation root) := fun operation hmem =>
    hoperations operation (List.mem_of_mem_take hmem)
  unfold Backup.perform
  generalize operations.take done = operations at hsome
  induction operations generalizing root with
  | nil => exact h
  | cons operation rest ih =>
      exact ih (hsome operation (List.mem_cons_self ..) root h)
        fun operation hmem => hsome operation (List.mem_cons_of_mem _ hmem)

theorem carryOut {operations : List (Root → Root)} (h : Everywhere p root)
    (hoperations : ∀ operation ∈ operations, ∀ root, Everywhere p root →
      Everywhere p (operation root)) (result : Except Failure Manifest) (env : Environment) :
    Everywhere p (carryOut operations result env root).2 := by
  unfold Backup.carryOut
  cases env.fate with
  | completes => exact (h.perform hoperations _).pop _
  | fails done =>
      dsimp only
      split
      · exact (h.perform hoperations _).pop _
      · exact (h.perform hoperations _).pop _
  | crashes done => exact h.perform hoperations _

theorem stagingOperations {env : Environment} {members : List (Member Bytes)}
    (hunfinished : ∀ bid folder, folder.Unfinished → p bid folder) :
    ∀ operation ∈ stagingOperations env members, ∀ root, Everywhere p root →
      Everywhere p (operation root) := by
  intro operation hmem root h
  simp only [Backup.stagingOperations, List.mem_cons, List.not_mem_nil, or_false] at hmem
  rcases hmem with rfl | rfl | rfl
  · exact h.set (hunfinished _ _ ⟨rfl, rfl⟩)
  · exact h.set (hunfinished _ _ ⟨rfl, rfl⟩)
  · exact h.set (hunfinished _ _ ⟨rfl, rfl⟩)

/-- The manifest is written when the payload is in place, and the evidence after it. -/
theorem publishingOperations {env : Environment} {members : List (Member Bytes)}
    {manifest : Manifest} (hunfinished : ∀ bid folder, folder.Unfinished → p bid folder)
    (hfinished : ∀ folder : Folder, folder.payload = some (.whole members) →
      folder.manifest = .whole manifest → p manifest.backupId folder) :
    ∀ operation ∈ publishingOperations env members manifest, ∀ root, Everywhere p root →
      Everywhere p (operation root) := by
  intro operation hmem root h
  simp only [Backup.publishingOperations, List.mem_cons, List.not_mem_nil, or_false] at hmem
  rcases hmem with rfl | rfl | rfl | rfl | rfl | rfl | rfl
  · exact h.set (hunfinished _ _ ⟨rfl, rfl⟩)
  · exact (h.set (hunfinished _ _ ⟨rfl, rfl⟩)).set (hunfinished _ _ ⟨rfl, rfl⟩)
  · exact h.set (hunfinished _ _ ⟨rfl, rfl⟩)
  · exact h.set (hfinished _ rfl rfl)
  · exact h.set (hfinished _ rfl rfl)
  · exact h.set (hfinished _ rfl rfl)
  · exact h.pop _

/-- What a call leaves, however far it comes. -/
theorem create {sha256 : List (Member Bytes) → String} {declarations : Dict String Declaration}
    {request : Request} {env : Environment} (h : Everywhere p root)
    (hunfinished : ∀ bid folder, folder.Unfinished → p bid folder)
    (hfinished : ∀ declaration mode tree members,
      checkRequest declarations request = .ok (declaration, mode, tree) →
      archive tree.content declaration.excluded ∅ tree.sorted = .ok members →
      root.get? (backupId request env) = none →
      ∀ folder : Folder, folder.payload = some (.whole members) →
        folder.manifest = .whole (manifestOf sha256 declaration mode request env members) →
        p (backupId request env) folder) :
    Everywhere p (create sha256 declarations request env root).2 := by
  unfold Backup.create
  cases hcheck : checkRequest declarations request with
  | error failure => exact h
  | ok checked =>
      obtain ⟨declaration, mode, tree⟩ := checked
      dsimp only
      cases harchive : archive tree.content declaration.excluded ∅ tree.sorted with
      | error failure =>
          exact h.carryOut (fun operation hmem =>
            stagingOperations hunfinished operation (List.mem_of_mem_take hmem)) _ _
      | ok members =>
          dsimp only
          split
          · exact h.carryOut (stagingOperations hunfinished) _ _
          · rename_i hfree
            have hnone : root.get? (backupId request env) = none := by
              rw [← Option.not_isSome_iff_eq_none]
              exact fun hsome => hfree (.inl hsome)
            refine h.carryOut (fun operation hmem => ?_) _ _
            rcases List.mem_append.mp hmem with hstaging | hpublishing
            · exact stagingOperations hunfinished operation hstaging
            · exact publishingOperations hunfinished
                (hfinished declaration mode tree members hcheck harchive hnone) operation
                hpublishing

end Everywhere

end UltimateBBSBox.Backup

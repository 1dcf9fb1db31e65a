import UltimateBBSBox.Archive.Acquiring

/-!
# What holds after any calls

Calls that publish run one after the other, each with any of its file operations failing.
`Moves` says once what a call may do to the metadata and the objects: nothing, or put an
object where there was none, or publish the document of a stream whose object is in its
place.  The invariants of an archive follow from that.
-/

namespace UltimateBBSBox.Archive

open Act Faulty
open Url

/-! ## What a call may do -/

/-- Nothing is done to the objects, or the data are put under their digest, where there were
none. -/
def Deposits (hashes : Hashes) (data : Bytes) (objects objects' : Dict Text Bytes) : Prop :=
  objects' = objects ∨
    (objects.get? (hashes.digest .sha256 data) = none ∧
      objects' = objects.set (hashes.digest .sha256 data) data)

/-- The metadata are as they were, and at most the object of the stream has been put in its
place. -/
structure KeepsMetadata (E : Environment) (disk disk' : Disk) : Prop where
  metadata : disk'.metadata = disk.metadata
  objects : ∃ data, Deposits E.hashes data disk.objects disk'.objects

/-- The document of the stream has been published. -/
structure Publishes (E : Environment) (request : Request) (disk disk' : Disk) (data : Bytes)
    (prior : List Value) (document : Value) : Prop where
  isId : isId request.artifactId = true
  unused : disk.metadata.get? request.artifactId = none
  objects : Deposits E.hashes data disk.objects disk'.objects
  placed : ∃ bytes, disk'.objects.get? (E.hashes.digest .sha256 data) = some bytes ∧
    bytes.length = data.length
  found : priorOf E request.provenance (E.hashes.digest .sha256 data) disk = .ok prior
  written : ∃ filename, documentOf E request filename data prior = .ok document
  valid : validateMetadata document = .ok ()
  metadata : disk'.metadata = disk.metadata.set request.artifactId (.document document.sortKeys)

/-- What `preserve_stream` may do. -/
def Preserves (E : Environment) (request : Request) (disk disk' : Disk) : Prop :=
  KeepsMetadata E disk disk' ∨ ∃ data prior document, Publishes E request disk disk' data prior document

section Preserving

variable {E : Environment} {request : Request} {disk disk' : Disk} {name : Text}
  {answers : List (Option (Exn × ℕ))} {α : Type}

theorem KeepsMetadata.refl (E : Environment) (disk : Disk) : KeepsMetadata E disk disk :=
  ⟨rfl, [], .inl rfl⟩

/-- What the quarantine and the locks are does not matter. -/
theorem Preserves.congr {disk₁ disk₁' : Disk} (h : Preserves E request disk disk')
    (hmetadata : disk₁.metadata = disk.metadata) (hobjects : disk₁.objects = disk.objects)
    (hmetadata' : disk₁'.metadata = disk'.metadata) (hobjects' : disk₁'.objects = disk'.objects) :
    Preserves E request disk₁ disk₁' := by
  have hprior : ∀ digest, priorOf E request.provenance digest disk₁ =
      priorOf E request.provenance digest disk := fun digest => priorOf_congr hmetadata
  rcases h with ⟨hkept, data, hdeposits⟩ | ⟨data, prior, document, h⟩
  · refine .inl ⟨?_, data, ?_⟩
    · rw [hmetadata', hkept, hmetadata]
    · rw [hobjects, hobjects']
      exact hdeposits
  · refine .inr ⟨data, prior, document, ⟨h.isId, ?_, ?_, ?_, ?_, h.written, h.valid, ?_⟩⟩
    · rw [hmetadata]
      exact h.unused
    · rw [hobjects, hobjects']
      exact h.objects
    · rw [hobjects']
      exact h.placed
    · rw [hprior]
      exact h.found
    · rw [hmetadata', hmetadata]
      exact h.metadata

/-- The metadata and the objects are as they were. -/
def Same (disk disk' : Disk) : Prop :=
  disk'.metadata = disk.metadata ∧ disk'.objects = disk.objects

theorem hashesFor_same {maxBytes : ℤ} (reads : Reads) (data : Bytes)
    (hdata : disk.quarantine.get? name = some data) :
    wlp (hashesFor name maxBytes reads data)
      (fun result s => Same disk s.state ∧ s.state.quarantine.get? name = some result)
      (fun _ s => Same disk s.state) ⟨disk, answers⟩ := by
  induction reads generalizing data disk answers with
  | nil => exact ⟨⟨rfl, rfl⟩, hdata⟩
  | cons read rest ih =>
      match read with
      | .error e => exact ⟨rfl, rfl⟩
      | .ok [] => exact ⟨⟨rfl, rfl⟩, hdata⟩
      | .ok (byte :: chunk) =>
          unfold hashesFor
          rw [wlp_ite]
          refine ⟨fun _ => ⟨rfl, rfl⟩, fun _ => ?_⟩
          rw [wlp_bind, wlp_performOr]
          refine ⟨fun _ => ?_, fun _ _ _ => ⟨rfl, rfl⟩⟩
          exact ih (data ++ byte :: chunk) (Dict.get?_set_self ..)

theorem unlinks_same (name artifactId : Text) (s : Faulty Disk Exn) :
    wlp (do unlinkQuarantine name; unlinkLock artifactId) (fun _ s' => Same s.state s'.state)
      (fun _ s' => Same s.state s'.state) s := by
  unfold unlinkQuarantine unlinkLock
  simp only [wlp_bind, wlp_get, wlp_whenever, wlp_perform, next_state]
  simp [Same]

/-- The object of some data is put in its place, whichever operation fails. -/
theorem placeObject_deposits {key : Text} {data : Bytes} {hashes : Hashes}
    (hkey : key = hashes.digest .sha256 data) (hdata : disk.quarantine.get? name = some data) :
    wlp (placeObject name key data)
      (fun _ s => s.state.metadata = disk.metadata ∧ Deposits hashes data disk.objects s.state.objects ∧
        ∃ bytes, s.state.objects.get? key = some bytes ∧ bytes.length = data.length)
      (fun _ s => s.state.metadata = disk.metadata ∧ Deposits hashes data disk.objects s.state.objects)
      ⟨disk, answers⟩ := by
  unfold placeObject
  rw [wlp_bind, wlp_perform]
  refine ⟨fun _ => ?_, fun _ _ _ => ⟨rfl, .inl rfl⟩⟩
  rw [wlp_bind, wlp_get]
  simp only [next_state, id]
  split
  · rename_i bytes hbytes
    rw [wlp_ite]
    refine ⟨fun _ => ⟨rfl, .inl rfl⟩, fun hsize => ?_⟩
    rw [wlp_perform]
    exact ⟨fun _ => ⟨rfl, .inl rfl, bytes, hbytes, not_not.mp hsize⟩, fun _ _ _ => ⟨rfl, .inl rfl⟩⟩
  · rename_i hnone
    rw [hkey] at hnone
    have hset : Deposits hashes data disk.objects (disk.objects.set key data) := by
      rw [hkey]
      exact .inr ⟨hnone, rfl⟩
    rw [wlp_bind, wlp_perform]
    refine ⟨fun _ => ?_, fun _ _ _ => ⟨rfl, .inl rfl⟩⟩
    simp only [next_state, hdata, Option.getD_some]
    rw [wlp_bind, wlp_perform]
    refine ⟨fun _ => ?_, fun _ _ _ => ⟨rfl, hset⟩⟩
    rw [wlp_bind, wlp_perform]
    refine ⟨fun _ => ?_, fun _ _ _ => ⟨rfl, hset⟩⟩
    rw [wlp_perform]
    refine ⟨fun _ => ⟨rfl, hset, data, Dict.get?_set_self .., rfl⟩, fun _ _ _ => ⟨rfl, hset⟩⟩

/-- What is done under the lock. -/
theorem publish_preserves {filename : Text} (hid : isId request.artifactId = true)
    (hunused : disk.metadata.get? request.artifactId = none) :
    wlp (publish E request filename) (fun _ s => Preserves E request disk s.state)
      (fun _ s => Preserves E request disk s.state) ⟨disk, answers⟩ := by
  have hsame : ∀ {disk₁}, Same disk disk₁ → Preserves E request disk disk₁ :=
    fun h => .inl ⟨h.1, [], .inl h.2⟩
  unfold publish
  rw [wlp_bind, wlp_get, wlp_ite]
  refine ⟨fun _ => hsame ⟨rfl, rfl⟩, fun _ => ?_⟩
  rw [wlp_bind, wlp_perform]
  refine ⟨fun _ => ?_, fun _ _ _ => hsame ⟨rfl, rfl⟩⟩
  rw [wlp_bind]
  refine wlp_mono (hashesFor_same request.reads [] (Dict.get?_set_self ..)) ?_ ?_
  · rintro data ⟨disk₁, answers₁⟩ ⟨⟨hmetadata, hobjects⟩, hdata⟩
    simp only at hmetadata hobjects hdata
    rw [wlp_bind, wlp_perform]
    refine ⟨fun _ => ?_, fun _ _ _ => hsame ⟨hmetadata, hobjects⟩⟩
    rw [wlp_bind, wlp_ofExcept]
    refine ⟨fun _ _ => ?_, fun _ _ => hsame ⟨hmetadata, hobjects⟩⟩
    rw [wlp_bind, wlp_ofExcept]
    refine ⟨fun _ _ => ?_, fun _ _ => hsame ⟨hmetadata, hobjects⟩⟩
    rw [wlp_bind, objectPath_digest]
    refine wlp_ofExcept_ok ?_
    rw [wlp_bind]
    refine wlp_mono (placeObject_deposits rfl hdata) ?_ ?_
    · rintro _ ⟨disk₂, answers₂⟩ ⟨hmetadata₂, hdeposits, hplaced⟩
      simp only [id, hmetadata, hobjects] at hmetadata₂ hdeposits hplaced
      have hkept : Preserves E request disk disk₂ := .inl ⟨hmetadata₂, data, hdeposits⟩
      rw [wlp_bind, wlp_get, wlp_bind, wlp_ofExcept]
      refine ⟨fun prior hprior => ?_, fun _ _ => hkept⟩
      rw [wlp_bind, wlp_ofExcept]
      refine ⟨fun document hdocument => ?_, fun _ _ => hkept⟩
      rw [wlp_bind, wlp_ofExcept]
      refine ⟨fun _ hvalid => ?_, fun _ _ => hkept⟩
      have hprior' : priorOf E request.provenance (E.hashes.digest .sha256 data) disk = .ok prior := by
        rw [← hprior]
        exact (priorOf_congr hmetadata₂).symm
      -- a call may still raise after the rename
      have hpublished : Preserves E request disk { disk₂ with
          metadata := disk₂.metadata.set request.artifactId (.document document.sortKeys) } := by
        refine .inr ⟨data, prior, document, hid, hunused, hdeposits, hplaced, hprior',
          ⟨filename, hdocument⟩, hvalid, ?_⟩
        rw [← hmetadata₂]
      unfold writeMetadata
      rw [wlp_bind, wlp_bind, wlp_perform]
      refine ⟨fun _ => ?_, fun _ _ _ => hkept⟩
      rw [wlp_bind, wlp_perform]
      refine ⟨fun _ => ?_, fun _ _ _ => hkept⟩
      rw [wlp_perform]
      exact ⟨fun _ => hpublished, fun _ _ _ => hpublished⟩
    · rintro _ ⟨disk₂, answers₂⟩ ⟨hmetadata₂, hdeposits⟩
      simp only [id, hmetadata, hobjects] at hmetadata₂ hdeposits
      exact .inl ⟨hmetadata₂, data, hdeposits⟩
  · rintro _ ⟨disk₁, answers₁⟩ h
    exact hsame h

/-- **What `preserve_stream` may do**, whichever operations fail. -/
theorem preserveStream_preserves :
    wlp (preserveStream E request) (fun _ s => Preserves E request disk s.state)
      (fun _ s => Preserves E request disk s.state) ⟨disk, answers⟩ := by
  have hrefl : Preserves E request disk disk := .inl (.refl E disk)
  unfold preserveStream
  rw [wlp_bind, wlp_get, wlp_ite]
  refine ⟨fun _ => hrefl, fun _ => ?_⟩
  rw [wlp_bind, wlp_ofExcept]
  refine ⟨fun _ hid => ?_, fun _ _ => hrefl⟩
  rw [wlp_bind, wlp_ofExcept]
  refine ⟨fun filename _ => ?_, fun _ _ => hrefl⟩
  rw [wlp_ite]
  refine ⟨fun _ => hrefl, fun hunused => ?_⟩
  rw [wlp_ite]
  refine ⟨fun _ => hrefl, fun _ => ?_⟩
  rw [wlp_bind, wlp_perform]
  refine ⟨fun _ => ?_, fun _ _ _ => hrefl⟩
  rw [wlp_andFinally]
  have hcleanup : ∀ s₁ : Faulty Disk Exn,
      Preserves E request { disk with locks := disk.locks.set request.artifactId () } s₁.state →
      wlp (do unlinkQuarantine (quarantineName E request.artifactId); unlinkLock request.artifactId)
        (fun _ s => Preserves E request disk s.state) (fun _ s => Preserves E request disk s.state) s₁ := by
    intro s₁ h
    exact wlp_mono (unlinks_same _ _ s₁) (fun _ _ h' => h.congr rfl rfl h'.1 h'.2)
      fun _ _ h' => h.congr rfl rfl h'.1 h'.2
  refine wlp_mono (publish_preserves (isId_of_validateId hid) ?_) (fun _ => hcleanup) fun _ => hcleanup
  simpa using hunused

end Preserving

/-! ## What a call does -/

/-- The parents of a lineage are those that `derive` has loaded. -/
def Grounded (disk : Disk) (request : Request) : Prop :=
  request.lineage = .null ∨ ∃ items parents action derivedAt tool notes,
    derivedParents disk items = .ok parents ∧
      request.lineage = derivedLineage parents action derivedAt tool notes

/-- What a call may do. -/
def Moves (E : Environment) (disk disk' : Disk) : Prop :=
  KeepsMetadata E disk disk' ∨ ∃ request data prior document, Grounded disk request ∧
    Publishes E request disk disk' data prior document

section Moving

variable {E : Environment} {U : Unicode} {request : Request} {disk disk' : Disk}
  {answers : List (Option (Exn × ℕ))}

theorem moves_preserveStream (h : Grounded disk request) :
    wlp (preserveStream E request) (fun _ s => Moves E disk s.state)
      (fun _ s => Moves E disk s.state) ⟨disk, answers⟩ := by
  have hmoves : ∀ disk', Preserves E request disk disk' → Moves E disk disk' := by
    rintro disk' (hkept | ⟨data, prior, document, hpublished⟩)
    · exact .inl hkept
    · exact .inr ⟨request, data, prior, document, h, hpublished⟩
  exact wlp_mono preserveStream_preserves (fun _ s => hmoves s.state) fun _ s => hmoves s.state

theorem moves_act (call : Call) :
    wlp (call.act E U) (fun _ s => Moves E disk s.state) (fun _ s => Moves E disk s.state)
      ⟨disk, answers⟩ := by
  have hrefl : Moves E disk disk := .inl (.refl E disk)
  cases call with
  | importArtifact ingest name opened =>
      unfold Call.act importArtifact
      rw [wlp_bind, wlp_ofExcept]
      refine ⟨fun urls _ => ?_, fun _ _ => hrefl⟩
      rw [wlp_bind, wlp_ofExcept]
      exact ⟨fun reads _ => moves_preserveStream (.inl rfl), fun _ _ => hrefl⟩
  | acquireHttp ingest opened =>
      unfold Call.act acquireHttp
      rw [wlp_bind, wlp_ofExcept]
      refine ⟨fun urls _ => ?_, fun _ _ => hrefl⟩
      rw [wlp_tryCatch, wlp_bind, wlp_ofExcept]
      refine ⟨fun response _ => ?_, fun _ _ => hrefl⟩
      unfold acquireResponse
      rw [wlp_bind, wlp_ofExcept]
      refine ⟨fun expectedSize _ => ?_, fun _ _ => hrefl⟩
      rw [wlp_ite]
      refine ⟨fun _ => hrefl, fun _ => ?_⟩
      simp only [wlp_bind, wlp_ofExcept]
      refine ⟨fun filename _ => ?_, fun _ _ => hrefl⟩
      exact ⟨fun parsed _ => moves_preserveStream (.inl rfl), fun _ _ => hrefl⟩
  | derive derivation name opened =>
      unfold Call.act derive
      rw [wlp_bind, wlp_get, wlp_bind, wlp_ofExcept]
      refine ⟨fun parents hparents => ?_, fun _ _ => hrefl⟩
      rw [wlp_bind, wlp_ofExcept]
      exact ⟨fun reads _ => moves_preserveStream (.inr ⟨_, _, _, _, _, _, hparents, rfl⟩),
        fun _ _ => hrefl⟩

/-- The process id does not matter. -/
theorem Moves.of_pid {pid : Text} (h : Moves { E with pid := pid } disk disk') : Moves E disk disk' := by
  rcases h with ⟨hmetadata, hobjects⟩ | ⟨request, data, prior, document, hgrounded, h⟩
  · exact .inl ⟨hmetadata, hobjects⟩
  · exact .inr ⟨request, data, prior, document, hgrounded,
      ⟨h.isId, h.unused, h.objects, h.placed, h.found, h.written, h.valid, h.metadata⟩⟩

theorem moves_leaves (turn : Turn) : Moves E disk (turn.leaves E U disk) := by
  have hspec := @moves_act { E with pid := turn.pid } U disk turn.answers turn.call
  unfold Turn.leaves
  unfold wlp at hspec
  cases hrun : (turn.call.act { E with pid := turn.pid } U).run ⟨disk, turn.answers⟩ with
  | none => exact .inl (.refl E disk)
  | some outcome =>
      obtain ⟨result, s⟩ := outcome
      rw [hrun] at hspec
      cases result with
      | ok _ => exact hspec.of_pid
      | error _ => exact hspec.of_pid

/-- What every call preserves holds after any calls. -/
theorem leaves_induction {P : Disk → Prop} (hstep : ∀ disk disk', P disk → Moves E disk disk' → P disk')
    (turns : List Turn) (h : P disk) : P (leaves E U turns disk) := by
  induction turns generalizing disk with
  | nil => exact h
  | cons turn rest ih => exact ih (hstep _ _ h (moves_leaves turn))

end Moving

end UltimateBBSBox.Archive

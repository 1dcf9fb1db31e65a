import UltimateBBSBox.Library.Act

/-!
# Programs that keep a file in step with memory

A program works on a value in memory that a file is meant to hold as well, and
writes the file at places of its own choosing.  A state is `Clean` when the file
holds the value, and a program `Syncs` when every way back from it ends in a
clean state or leaves value and file as they were.  It `Cleans` when every way
back ends clean.  What happens before a program that cleans does not matter, and
what comes after it only has to sync.

`fits` is what the programs assume of their run; it is a property of what has
happened so far, so it can only be lost.
-/

/-- Memory and file of a state, the order in which states follow each other, and
what is assumed of what happened up to a state. -/
structure WriteBack (S D : Type) where
  memory : S → D
  file : S → Option D
  follows : S → S → Prop
  fits : S → Prop
  refl : ∀ s, follows s s
  trans : ∀ s s₁ s₂, follows s s₁ → follows s₁ s₂ → follows s s₂
  fits_of_follows : ∀ s s', follows s s' → fits s' → fits s

namespace WriteBack

open Act

variable {S D E α : Type} (W : WriteBack S D)

/-- The file holds the value in memory. -/
def Clean (s : S) : Prop := W.file s = some (W.memory s)

/-- The file holds the value in memory, if there is a file. -/
def Saved (s : S) : Prop := ∀ d, W.file s = some d → d = W.memory s

/-- From `s` on, the file was written after the last change. -/
def Cleans (s s' : S) : Prop := W.follows s s' ∧ (W.fits s' → W.Clean s')

/-- From `s` on, the file was written after the last change, if there was one. -/
def Syncs (s s' : S) : Prop :=
  W.follows s s' ∧ (W.fits s' → W.Clean s' ∨ W.memory s' = W.memory s ∧ W.file s' = W.file s)

variable {W} {s s₁ s₂ : S}

theorem Clean.saved (h : W.Clean s) : W.Saved s := fun _ hd =>
  Option.some.inj (hd.symm.trans h)

theorem Cleans.syncs (h : W.Cleans s s₁) : W.Syncs s s₁ := ⟨h.1, fun hfits => .inl (h.2 hfits)⟩

theorem Syncs.of_same (hfollows : W.follows s s₁) (hmemory : W.memory s₁ = W.memory s)
    (hfile : W.file s₁ = W.file s) : W.Syncs s s₁ := ⟨hfollows, fun _ => .inr ⟨hmemory, hfile⟩⟩

/-- Nothing before a program that cleans matters. -/
theorem Cleans.of_follows (h : W.follows s s₁) (h' : W.Cleans s₁ s₂) : W.Cleans s s₂ :=
  ⟨W.trans _ _ _ h h'.1, h'.2⟩

/-- What comes after a program that cleans only has to sync. -/
theorem Cleans.trans_syncs (h : W.Cleans s s₁) (h' : W.Syncs s₁ s₂) : W.Cleans s s₂ := by
  refine ⟨W.trans _ _ _ h.1 h'.1, fun hfits => ?_⟩
  rcases h'.2 hfits with hclean | ⟨hmemory, hfile⟩
  · exact hclean
  · have hclean := h.2 (W.fits_of_follows _ _ h'.1 hfits)
    rw [Clean, hmemory, hfile]
    exact hclean

theorem Syncs.trans (h : W.Syncs s s₁) (h' : W.Syncs s₁ s₂) : W.Syncs s s₂ := by
  refine ⟨W.trans _ _ _ h.1 h'.1, fun hfits => ?_⟩
  rcases h'.2 hfits with hclean | ⟨hmemory, hfile⟩
  · exact .inl hclean
  · rcases h.2 (W.fits_of_follows _ _ h'.1 hfits) with hclean | ⟨hmemory₁, hfile₁⟩
    · left
      rw [Clean, hmemory, hfile]
      exact hclean
    · exact .inr ⟨hmemory.trans hmemory₁, hfile.trans hfile₁⟩

instance : IsPreorder S W.Syncs where
  refl s := ⟨W.refl s, fun _ => .inr ⟨rfl, rfl⟩⟩
  trans _ _ _ := Syncs.trans

/-- What syncs keeps memory and file in step. -/
theorem Syncs.saved (h : W.Syncs s s₁) (hfits : W.fits s₁) (hs : W.Saved s) : W.Saved s₁ := by
  rcases h.2 hfits with hclean | ⟨hmemory, hfile⟩
  · exact hclean.saved
  · intro d hd
    rw [hmemory]
    exact hs d (hfile ▸ hd)

/-- A program that syncs, after one that cleaned. -/
theorem wlp_cleans_of_within {act : Act S E α} (hact : Within W.Syncs act) (h : W.Cleans s s₁) :
    wlp act (fun _ => W.Cleans s) (fun _ => W.Cleans s) s₁ :=
  wlp_mono (hact s₁) (fun _ _ h' => h.trans_syncs h') fun _ _ h' => h.trans_syncs h'

end WriteBack

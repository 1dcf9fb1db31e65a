import Mathlib.Data.List.Infix
import UltimateBBSBox.Library.Act

/-!
# Two programs in lockstep

Two programs run side by side, each over a state with a log of what the outside
answered, newest first.  `Lockstep` says: from states that mirror each other
both come back with results that agree, in states that mirror each other
again, unless their logs part, so that neither continues the other.  Logs that
have parted never meet again, since a program only adds to its log; so two runs
whose logs are equal at the end mirrored each other all along.

`Logs` is a class: that a program only adds to its log follows from its text,
and instance search reads it off.
-/

namespace Act

variable {S S' E E' α α' β β' O : Type} (log : S → List O) (log' : S' → List O)

/-! ## Logs -/

/-- The log has only grown. -/
def Extends (s t : S) : Prop := log s <:+ log t

instance : IsPreorder S (Extends log) where
  refl _ := List.suffix_rfl
  trans _ _ _ h h' := h.trans h'

/-- The program only adds to the log. -/
class Logs (act : Act S E α) : Prop where
  within : Within (Extends log) act

instance (a : α) : Logs log (pure a : Act S E α) := ⟨within_pure a⟩

instance (e : E) : Logs log (throw e : Act S E α) := ⟨within_throw e⟩

instance : Logs log (get : Act S E S) := ⟨within_get⟩

instance : Logs log (diverge : Act S E α) := ⟨within_diverge⟩

instance (result : Except E α) : Logs log (ofExcept result : Act S E α) := ⟨within_ofExcept result⟩

variable {log} in
theorem Logs.bind {act : Act S E α} {f : α → Act S E β} (h : Logs log act)
    (hf : ∀ a, Logs log (f a)) : Logs log (act >>= f) :=
  ⟨within_bind h.within fun a => (hf a).within⟩

variable {log} in
theorem Logs.ite {c : Prop} [Decidable c] {act act' : Act S E α} (h : Logs log act)
    (h' : Logs log act') : Logs log (if c then act else act') :=
  ⟨within_ite (fun _ => h.within) fun _ => h'.within⟩

instance {act : Act S E α} {f : α → Act S E β} [h : Logs log act] [hf : ∀ a, Logs log (f a)] :
    Logs log (act >>= f) := h.bind hf

instance {act : Act S E α} {handler : E → Act S E α} [h : Logs log act]
    [hhandler : ∀ e, Logs log (handler e)] : Logs log (tryCatch act handler) :=
  ⟨within_tryCatch h.within fun e => (hhandler e).within⟩

instance {c : Prop} [Decidable c] {act act' : Act S E α} [h : Logs log act]
    [h' : Logs log act'] : Logs log (if c then act else act') := h.ite h'

instance {c : Prop} [Decidable c] {act : Act S E Unit} [h : Logs log act] :
    Logs log (whenever c act) := ⟨within_whenever fun _ => h.within⟩

variable {log log'}

theorem logs_modify {f : S → S} (h : ∀ s, Extends log s (f s)) :
    Logs log (modify f : Act S E Unit) := ⟨within_modify h⟩

theorem Logs.of_extends {act : Act S E α}
    (h : ∀ s t r, act.run s = some (r, t) → Extends log s t) : Logs log act := by
  refine ⟨fun s => ?_⟩
  unfold wlp
  split
  · trivial
  · exact h _ _ _ (by assumption)
  · exact h _ _ _ (by assumption)

theorem Logs.extends {act : Act S E α} (h : Logs log act) {s t : S} {r : Except E α}
    (hrun : act.run s = some (r, t)) : Extends log s t := by
  cases r with
  | ok a => exact wlp_ok (h.within s) hrun
  | error e => exact wlp_error (h.within s) hrun

variable (log log') in
/-- Neither log continues the other. -/
def Parted (s : S) (s' : S') : Prop := ¬ log s <:+ log' s' ∧ ¬ log' s' <:+ log s

/-- Logs that have parted never meet again. -/
theorem Parted.mono {s t : S} {s' t' : S'} (h : Parted log log' s s') (hs : Extends log s t)
    (hs' : Extends log' s' t') : Parted log log' t t' := by
  have hcomparable : ¬ (log s <:+ log' s' ∨ log' s' <:+ log s) := not_or.mpr h
  refine ⟨fun ht => hcomparable ?_, fun ht => hcomparable ?_⟩
  · exact List.suffix_or_suffix_of_suffix (hs.trans ht) hs'
  · exact List.suffix_or_suffix_of_suffix hs (hs'.trans ht)

theorem Parted.ne {s : S} {s' : S'} (h : Parted log log' s s') : log s ≠ log' s' :=
  fun heq => h.1 (heq ▸ List.suffix_rfl)

/-- Two different answers part logs that were the same. -/
theorem parted_of_cons {s : S} {s' : S'} {o o' : O} {answers : List O} (h : log s = o :: answers)
    (h' : log' s' = o' :: answers) (hne : o ≠ o') : Parted log log' s s' := by
  unfold Parted
  rw [h, h']
  refine ⟨fun hsuffix => hne ?_, fun hsuffix => hne ?_⟩
  · exact (List.cons.inj (hsuffix.eq_of_length rfl)).1
  · exact (List.cons.inj (hsuffix.eq_of_length rfl)).1.symm

/-! ## Lockstep -/

/-- Both return with `P`, or both raise with `X`. -/
def Agree (P : α → α' → Prop) (X : E → E' → Prop) : Except E α → Except E' α' → Prop
  | .ok a, .ok a' => P a a'
  | .error e, .error e' => X e e'
  | .ok _, .error _ | .error _, .ok _ => False

variable (log log')

/-- From states that mirror each other: if both programs come back, then their
logs have parted, or they agree and the states mirror each other again. -/
def Lockstep (low : S → S' → Prop) (P : α → α' → Prop) (X : E → E' → Prop) (act : Act S E α)
    (act' : Act S' E' α') : Prop :=
  ∀ s s', low s s' → ∀ r t r' t', act.run s = some (r, t) → act'.run s' = some (r', t') →
    Parted log log' t t' ∨ (low t t' ∧ Agree P X r r')

variable {log log'} {low : S → S' → Prop} {P : α → α' → Prop} {X : E → E' → Prop}

theorem lockstep_pure {a : α} {a' : α'} (h : P a a') :
    Lockstep log log' low P X (pure a) (pure a') := by
  intro s s' hlow r t r' t' hrun hrun'
  cases hrun
  cases hrun'
  exact .inr ⟨hlow, h⟩

theorem lockstep_throw {e : E} {e' : E'} (h : X e e') :
    Lockstep log log' low P X (throw e) (throw e') := by
  intro s s' hlow r t r' t' hrun hrun'
  cases hrun
  cases hrun'
  exact .inr ⟨hlow, h⟩

theorem lockstep_ofExcept {result : Except E α} {result' : Except E' α'}
    (h : Agree P X result result') :
    Lockstep log log' low P X (ofExcept result) (ofExcept result') := by
  cases result with
  | ok a =>
      cases result' with
      | ok a' => exact lockstep_pure h
      | error e' => exact h.elim
  | error e =>
      cases result' with
      | ok a' => exact h.elim
      | error e' => exact lockstep_throw h

theorem lockstep_get {f : S → Act S E α} {f' : S' → Act S' E' α'}
    (h : ∀ s s', low s s' → Lockstep log log' low P X (f s) (f' s')) :
    Lockstep log log' low P X (get >>= f) (get >>= f') :=
  fun s s' hlow r t r' t' hrun hrun' => h s s' hlow s s' hlow r t r' t' hrun hrun'

theorem lockstep_modify {f : S → S} {f' : S' → S'} (h : ∀ s s', low s s' → low (f s) (f' s')) :
    Lockstep log log' low (fun _ _ => True) X (modify f : Act S E Unit)
      (modify f' : Act S' E' Unit) := by
  intro s s' hlow r t r' t' hrun hrun'
  cases hrun
  cases hrun'
  exact .inr ⟨h s s' hlow, trivial⟩

theorem lockstep_bind {act : Act S E α} {act' : Act S' E' α'} {f : α → Act S E β}
    {f' : α' → Act S' E' β'} {Q : β → β' → Prop} [hlog : ∀ a, Logs log (f a)]
    [hlog' : ∀ a, Logs log' (f' a)] (hact : Lockstep log log' low P X act act')
    (hf : ∀ a a', P a a' → Lockstep log log' low Q X (f a) (f' a')) :
    Lockstep log log' low Q X (act >>= f) (act' >>= f') := by
  intro s s' hlow r t r' t' hrun hrun'
  rw [run_bind] at hrun hrun'
  cases hfirst : act.run s with
  | none => simp [hfirst] at hrun
  | some result =>
  cases hfirst' : act'.run s' with
  | none => simp [hfirst'] at hrun'
  | some result' =>
  obtain ⟨r₁, m⟩ := result
  obtain ⟨r₁', m'⟩ := result'
  rw [hfirst] at hrun
  rw [hfirst'] at hrun'
  rcases hact s s' hlow _ _ _ _ hfirst hfirst' with hparted | ⟨hlow, hagree⟩
  · refine .inl (hparted.mono ?_ ?_)
    · cases r₁ with
      | ok a => exact (hlog a).extends hrun
      | error e => cases hrun; exact refl_of (Extends log) _
    · cases r₁' with
      | ok a' => exact (hlog' a').extends hrun'
      | error e' => cases hrun'; exact refl_of (Extends log') _
  · cases r₁ with
    | ok a =>
        cases r₁' with
        | ok a' => exact hf a a' hagree m m' hlow _ _ _ _ hrun hrun'
        | error e' => exact hagree.elim
    | error e =>
        cases r₁' with
        | ok a' => exact hagree.elim
        | error e' =>
            cases hrun
            cases hrun'
            exact .inr ⟨hlow, hagree⟩

theorem lockstep_tryCatch {act : Act S E α} {act' : Act S' E' α'} {handler : E → Act S E α}
    {handler' : E' → Act S' E' α'} [hlog : ∀ e, Logs log (handler e)]
    [hlog' : ∀ e, Logs log' (handler' e)] (hact : Lockstep log log' low P X act act')
    (hhandler : ∀ e e', X e e' → Lockstep log log' low P X (handler e) (handler' e')) :
    Lockstep log log' low P X (tryCatch act handler) (tryCatch act' handler') := by
  intro s s' hlow r t r' t' hrun hrun'
  rw [run_tryCatch] at hrun hrun'
  cases hfirst : act.run s with
  | none => simp [hfirst] at hrun
  | some result =>
  cases hfirst' : act'.run s' with
  | none => simp [hfirst'] at hrun'
  | some result' =>
  obtain ⟨r₁, m⟩ := result
  obtain ⟨r₁', m'⟩ := result'
  rw [hfirst] at hrun
  rw [hfirst'] at hrun'
  rcases hact s s' hlow _ _ _ _ hfirst hfirst' with hparted | ⟨hlow, hagree⟩
  · refine .inl (hparted.mono ?_ ?_)
    · cases r₁ with
      | ok a => cases hrun; exact refl_of (Extends log) _
      | error e => exact (hlog e).extends hrun
    · cases r₁' with
      | ok a' => cases hrun'; exact refl_of (Extends log') _
      | error e' => exact (hlog' e').extends hrun'
  · cases r₁ with
    | ok a =>
        cases r₁' with
        | ok a' =>
            cases hrun
            cases hrun'
            exact .inr ⟨hlow, hagree⟩
        | error e' => exact hagree.elim
    | error e =>
        cases r₁' with
        | ok a' => exact hagree.elim
        | error e' => exact hhandler e e' hagree m m' hlow _ _ _ _ hrun hrun'

theorem lockstep_ite {c c' : Prop} [Decidable c] [Decidable c'] {act₁ act₂ : Act S E α}
    {act₁' act₂' : Act S' E' α'} (hc : c ↔ c')
    (h : c → c' → Lockstep log log' low P X act₁ act₁')
    (h' : ¬ c → ¬ c' → Lockstep log log' low P X act₂ act₂') :
    Lockstep log log' low P X (if c then act₁ else act₂) (if c' then act₁' else act₂') := by
  by_cases hcond : c
  · rw [if_pos hcond, if_pos (hc.mp hcond)]
    exact h hcond (hc.mp hcond)
  · rw [if_neg hcond, if_neg (hcond ∘ hc.mpr)]
    exact h' hcond (hcond ∘ hc.mpr)

theorem lockstep_whenever {c c' : Prop} [Decidable c] [Decidable c'] {act : Act S E Unit}
    {act' : Act S' E' Unit} {P : Unit → Unit → Prop} (hc : c ↔ c') (hskip : P () ())
    (h : c → c' → Lockstep log log' low P X act act') :
    Lockstep log log' low P X (whenever c act) (whenever c' act') :=
  lockstep_ite hc h fun _ _ => lockstep_pure hskip

end Act

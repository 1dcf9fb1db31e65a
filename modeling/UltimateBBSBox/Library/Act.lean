import Mathlib.Logic.Relation

/-!
# Sequential programs with state, exceptions and divergence

`Act S E α` is a program over a mutable state `S` that returns an `α`, raises
an `E`, or does not come back at all (`none`, which is how a loop or a
recursion given too little fuel ends).  A raised exception keeps the state
reached so far, as in the imperative languages such programs are read from.

`wlp act Q X s` says: if `act`, started in `s`, comes back, then it returned
with `Q` or raised with `X`.  The lemmas `wlp_*` compute it on the program
constructors; together they are a symbolic executor that `simp` can run.

`Within R act` says that `act` moves the state along `R` only.  It composes
along every constructor once `R` is reflexive and transitive, so a relation
that says what one primitive can do bounds a whole program.
-/

/-- Programs: state passing, exceptions that keep the state, divergence. -/
def Act (S E α : Type) : Type := ExceptT E (StateT S Option) α

namespace Act

variable {S E α β : Type}

instance : Monad (Act S E) := inferInstanceAs (Monad (ExceptT E (StateT S Option)))

instance : MonadExceptOf E (Act S E) :=
  inferInstanceAs (MonadExceptOf E (ExceptT E (StateT S Option)))

instance : MonadStateOf S (Act S E) :=
  inferInstanceAs (MonadStateOf S (ExceptT E (StateT S Option)))

/-- Run a program from a state. -/
def run (act : Act S E α) (s : S) : Option (Except E α × S) := act s

/-- The program that never comes back. -/
def diverge : Act S E α := fun _ => none

/-- Return or raise what has already been computed. -/
def ofExcept : Except E α → Act S E α
  | .ok a => pure a
  | .error e => throw e

instance (result : Except E α) : Decidable (∃ a, result = .ok a) :=
  match result with
  | .ok a => isTrue ⟨a, rfl⟩
  | .error _ => isFalse (by simp)

instance (result : Except E α) (p : α → Prop) [∀ a, Decidable (p a)] :
    Decidable (∃ a, result = .ok a ∧ p a) :=
  match result with
  | .ok a => decidable_of_iff (p a) (by simp)
  | .error _ => isFalse (by simp)

instance (result : Except E α) (p : α → Prop) [∀ a, Decidable (p a)] :
    Decidable (∀ a, result = .ok a → p a) :=
  match result with
  | .ok a => decidable_of_iff (p a) (by simp)
  | .error _ => isTrue (by simp)

/-- A program whose exceptions are given in other terms. -/
def mapError {E' : Type} (f : E → E') (act : Act S E α) : Act S E' α := fun s =>
  (act.run s).map fun result => (result.1.mapError f, result.2)

/-- Run a program only under a condition. -/
def whenever (c : Prop) [Decidable c] (act : Act S E Unit) : Act S E Unit :=
  if c then act else pure ()

theorem whenever_of_not {c : Prop} [Decidable c] {act : Act S E Unit} (h : ¬ c) :
    whenever c act = pure () := if_neg h

/-- Run a program for each element of a list, stopping at the first exception. -/
def forEach {γ : Type} : List γ → (γ → Act S E Unit) → Act S E Unit
  | [], _ => pure ()
  | x :: rest, act => do
      act x
      forEach rest act

/-! ## Running the constructors -/

theorem run_pure (a : α) (s : S) : (pure a : Act S E α).run s = some (.ok a, s) := rfl

theorem run_throw (e : E) (s : S) : (throw e : Act S E α).run s = some (.error e, s) := rfl

theorem run_bind (act : Act S E α) (f : α → Act S E β) (s : S) :
    (act >>= f).run s = match act.run s with
      | none => none
      | some (.error e, s') => some (.error e, s')
      | some (.ok a, s') => (f a).run s' := by
  change ((ExceptT.bind (m := StateT S Option) act f : StateT S Option (Except E β)) s) = _
  unfold ExceptT.bind ExceptT.mk
  change (StateT.bind (m := Option) act (ExceptT.bindCont f) : StateT S Option (Except E β)) s = _
  unfold StateT.bind run
  cases h : act s with
  | none => rfl
  | some result =>
      obtain ⟨result, s'⟩ := result
      cases result <;> rfl

theorem run_tryCatch (act : Act S E α) (handler : E → Act S E α) (s : S) :
    (tryCatch act handler).run s = match act.run s with
      | none => none
      | some (.error e, s') => (handler e).run s'
      | some (.ok a, s') => some (.ok a, s') := by
  change ((ExceptT.tryCatch (m := StateT S Option) act handler :
    StateT S Option (Except E α)) s) = _
  unfold ExceptT.tryCatch ExceptT.mk
  change (StateT.bind (m := Option) act _ : StateT S Option (Except E α)) s = _
  unfold StateT.bind run
  cases h : act s with
  | none => rfl
  | some result =>
      obtain ⟨result, s'⟩ := result
      cases result <;> rfl

theorem run_mapError_of_ok {E' : Type} {f : E → E'} {act : Act S E α} {s s' : S} {a : α}
    (h : act.run s = some (.ok a, s')) : (act.mapError f).run s = some (.ok a, s') := by
  change (act.run s).map _ = _
  rw [h]
  rfl

theorem run_mapError_of_error {E' : Type} {f : E → E'} {act : Act S E α} {s s' : S} {e : E}
    (h : act.run s = some (.error e, s')) : (act.mapError f).run s = some (.error (f e), s') := by
  change (act.run s).map _ = _
  rw [h]
  rfl

theorem run_mapError_congr {E' : Type} {f : E → E'} {act act' : Act S E α} {s : S}
    (h : act.run s = act'.run s) : (act.mapError f).run s = (act'.mapError f).run s := by
  change (act.run s).map _ = (act'.run s).map _
  rw [h]

theorem run_get (s : S) : (get : Act S E S).run s = some (.ok s, s) := rfl

theorem run_modify (f : S → S) (s : S) :
    (modify f : Act S E Unit).run s = some (.ok (), f s) := rfl

/-! ## Running a loop -/

section Loop

variable {γ : Type} {act : γ → Act S E Unit} {x : γ} {items rest : List γ} {s s' s'' : S} {e : E}

theorem run_forEach_of_ok (hfirst : (act x).run s = some (.ok (), s')) :
    (forEach (x :: rest) act).run s = (forEach rest act).run s' := by
  rw [forEach, run_bind, hfirst]

theorem run_forEach_of_error (hfirst : (act x).run s = some (.error e, s')) :
    (forEach (x :: rest) act).run s = some (.error e, s') := by
  rw [forEach, run_bind, hfirst]

theorem run_forEach_of_none (hfirst : (act x).run s = none) :
    (forEach (x :: rest) act).run s = none := by
  rw [forEach, run_bind, hfirst]

/-- A loop goes on where its first part returned. -/
theorem run_forEach_append_of_ok {front : List γ}
    (hfront : (forEach front act).run s = some (.ok (), s')) :
    (forEach (front ++ rest) act).run s = (forEach rest act).run s' := by
  induction front generalizing s with
  | nil =>
      cases hfront
      rfl
  | cons y front ih =>
      cases hfirst : (act y).run s with
      | none => simp [run_forEach_of_none hfirst] at hfront
      | some result =>
          obtain ⟨r, s₁⟩ := result
          cases r with
          | error e => simp [run_forEach_of_error hfirst] at hfront
          | ok _ =>
              rw [run_forEach_of_ok hfirst] at hfront
              rw [List.cons_append, run_forEach_of_ok hfirst, ih hfront]

/-- A loop raises where one of its programs does, all those before it having returned. -/
theorem run_forEach_eq_error_iff :
    (forEach items act).run s = some (.error e, s'') ↔
      ∃ front x rest s', items = front ++ x :: rest ∧
        (forEach front act).run s = some (.ok (), s') ∧
        (act x).run s' = some (.error e, s'') := by
  constructor
  · intro hrun
    induction items generalizing s with
    | nil => cases hrun
    | cons y items ih =>
        cases hfirst : (act y).run s with
        | none => simp [run_forEach_of_none hfirst] at hrun
        | some result =>
            obtain ⟨r, s₁⟩ := result
            cases r with
            | error e' =>
                rw [run_forEach_of_error hfirst] at hrun
                exact ⟨[], y, items, s, rfl, rfl, hfirst.trans hrun⟩
            | ok _ =>
                rw [run_forEach_of_ok hfirst] at hrun
                obtain ⟨front, x, rest, s', rfl, hfront, hx⟩ := ih hrun
                exact ⟨y :: front, x, rest, s', rfl, by rw [run_forEach_of_ok hfirst, hfront],
                  hx⟩
  · rintro ⟨front, x, rest, s', rfl, hfront, hx⟩
    rw [run_forEach_append_of_ok hfront, run_forEach_of_error hx]

end Loop

/-! ## Weakest liberal preconditions -/

/-- If `act` comes back from `s`, it returned with `Q` or raised with `X`. -/
def wlp (act : Act S E α) (Q : α → S → Prop) (X : E → S → Prop) (s : S) : Prop :=
  match act.run s with
  | none => True
  | some (.ok a, s') => Q a s'
  | some (.error e, s') => X e s'

variable {Q Q' : α → S → Prop} {X X' : E → S → Prop} {s : S}

@[simp] theorem wlp_pure {a : α} : wlp (pure a : Act S E α) Q X s ↔ Q a s := Iff.rfl

@[simp] theorem wlp_throw {e : E} : wlp (throw e : Act S E α) Q X s ↔ X e s := Iff.rfl

@[simp] theorem wlp_bind {act : Act S E α} {f : α → Act S E β} {Q : β → S → Prop} :
    wlp (act >>= f) Q X s ↔ wlp act (fun a s' => wlp (f a) Q X s') X s := by
  unfold wlp
  rw [run_bind]
  cases act.run s with
  | none => rfl
  | some result =>
      obtain ⟨result, s'⟩ := result
      cases result <;> rfl

@[simp] theorem wlp_tryCatch {act : Act S E α} {handler : E → Act S E α} :
    wlp (tryCatch act handler) Q X s ↔
      wlp act Q (fun e s' => wlp (handler e) Q X s') s := by
  unfold wlp
  rw [run_tryCatch]
  cases act.run s with
  | none => rfl
  | some result =>
      obtain ⟨result, s'⟩ := result
      cases result <;> rfl

@[simp] theorem wlp_get {Q : S → S → Prop} : wlp (get : Act S E S) Q X s ↔ Q s s := Iff.rfl

@[simp] theorem wlp_modify {f : S → S} {Q : Unit → S → Prop} :
    wlp (modify f : Act S E Unit) Q X s ↔ Q () (f s) := Iff.rfl

@[simp] theorem wlp_diverge : wlp (diverge : Act S E α) Q X s ↔ True := Iff.rfl

@[simp] theorem wlp_ite {c : Prop} [Decidable c] {act act' : Act S E α} :
    wlp (if c then act else act') Q X s ↔ (c → wlp act Q X s) ∧ (¬ c → wlp act' Q X s) := by
  by_cases h : c <;> simp [h]

@[simp] theorem wlp_whenever {c : Prop} [Decidable c] {act : Act S E Unit}
    {Q : Unit → S → Prop} :
    wlp (whenever c act) Q X s ↔ (c → wlp act Q X s) ∧ (¬ c → Q () s) := by
  unfold whenever
  rw [wlp_ite, wlp_pure]

@[simp] theorem wlp_ofExcept {result : Except E α} :
    wlp (ofExcept result) Q X s ↔
      (∀ a, result = .ok a → Q a s) ∧ (∀ e, result = .error e → X e s) := by
  cases result <;> simp [ofExcept]

theorem wlp_true {act : Act S E α} : wlp act (fun _ _ => True) (fun _ _ => True) s := by
  unfold wlp
  split <;> trivial

/-- The rule of consequence. -/
theorem wlp_mono {act : Act S E α} (h : wlp act Q X s) (hQ : ∀ a s', Q a s' → Q' a s')
    (hX : ∀ e s', X e s' → X' e s') : wlp act Q' X' s := by
  unfold wlp at *
  cases hrun : act.run s with
  | none => trivial
  | some result =>
      obtain ⟨result, s'⟩ := result
      rw [hrun] at h
      cases result with
      | ok a => exact hQ a s' h
      | error e => exact hX e s' h

theorem wlp_and {act : Act S E α} (h : wlp act Q X s) (h' : wlp act Q' X' s) :
    wlp act (fun a s' => Q a s' ∧ Q' a s') (fun e s' => X e s' ∧ X' e s') s := by
  unfold wlp at *
  cases hrun : act.run s with
  | none => trivial
  | some result =>
      obtain ⟨result, s'⟩ := result
      rw [hrun] at h h'
      cases result <;> exact ⟨h, h'⟩

/-- What a run that came back by returning says. -/
theorem wlp_ok {act : Act S E α} (h : wlp act Q X s) {a : α} {s' : S}
    (hrun : act.run s = some (.ok a, s')) : Q a s' := by
  unfold wlp at h
  rwa [hrun] at h

/-- What a run that came back by raising says. -/
theorem wlp_error {act : Act S E α} (h : wlp act Q X s) {e : E} {s' : S}
    (hrun : act.run s = some (.error e, s')) : X e s' := by
  unfold wlp at h
  rwa [hrun] at h

/-! ## Coming back -/

/-- `act`, started in `s`, comes back. -/
def ComesBack (act : Act S E α) (s : S) : Prop := act.run s ≠ none

/-- `act` comes back from everywhere. -/
def Total (act : Act S E α) : Prop := ∀ s, ComesBack act s

theorem comesBack_bind {act : Act S E α} {f : α → Act S E β} :
    ComesBack (act >>= f) s ↔
      ComesBack act s ∧ wlp act (fun a s' => ComesBack (f a) s') (fun _ _ => True) s := by
  unfold ComesBack wlp
  rw [run_bind]
  cases act.run s with
  | none => simp
  | some result =>
      obtain ⟨result, s'⟩ := result
      cases result <;> simp

theorem total_pure (a : α) : Total (pure a : Act S E α) := fun _ h => by cases h

theorem total_throw (e : E) : Total (throw e : Act S E α) := fun _ h => by cases h

theorem total_throw_bind (e : E) (f : α → Act S E β) : Total ((throw e : Act S E α) >>= f) :=
  fun _ h => by cases h

theorem total_get : Total (get : Act S E S) := fun _ h => by cases h

theorem total_modify (f : S → S) : Total (modify f : Act S E Unit) := fun _ h => by cases h

theorem total_bind {act : Act S E α} {f : α → Act S E β} (hact : Total act)
    (hf : ∀ a, Total (f a)) : Total (act >>= f) := fun s => by
  refine comesBack_bind.mpr ⟨hact s, ?_⟩
  unfold wlp
  cases act.run s with
  | none => trivial
  | some result =>
      obtain ⟨result, s'⟩ := result
      cases result with
      | ok a => exact hf a s'
      | error e => trivial

theorem total_ite {c : Prop} [Decidable c] {act act' : Act S E α} (h : c → Total act)
    (h' : ¬ c → Total act') : Total (if c then act else act') := by
  by_cases hc : c
  · simpa [hc] using h hc
  · simpa [hc] using h' hc

theorem total_whenever {c : Prop} [Decidable c] {act : Act S E Unit} (h : c → Total act) :
    Total (whenever c act) :=
  total_ite h fun _ => total_pure ()

theorem total_ofExcept (result : Except E α) : Total (ofExcept result : Act S E α) := by
  cases result
  · exact total_throw _
  · exact total_pure _

theorem total_tryCatch {act : Act S E α} {handler : E → Act S E α} (hact : Total act)
    (hhandler : ∀ e, Total (handler e)) : Total (tryCatch act handler) := fun s => by
  have hs := hact s
  unfold ComesBack at *
  rw [run_tryCatch]
  cases hrun : act.run s with
  | none => exact absurd hrun hs
  | some result =>
      obtain ⟨result, s'⟩ := result
      cases result with
      | ok a => simp
      | error e => exact hhandler e s'

theorem total_mapError {E' : Type} {f : E → E'} {act : Act S E α} (hact : Total act) :
    Total (mapError f act) := fun s h => hact s (Option.map_eq_none_iff.mp h)

/-- `act`, started in `s`, comes back, and returned with `Q` or raised with `X`. -/
def twp (act : Act S E α) (Q : α → S → Prop) (X : E → S → Prop) (s : S) : Prop :=
  ComesBack act s ∧ wlp act Q X s

theorem Total.twp {act : Act S E α} (htotal : Total act) (h : wlp act Q X s) : twp act Q X s :=
  ⟨htotal s, h⟩

theorem twp_pure {a : α} : twp (pure a : Act S E α) Q X s ↔ Q a s :=
  ⟨fun h => h.2, fun h => ⟨total_pure a s, h⟩⟩

theorem twp_get {Q : S → S → Prop} : twp (get : Act S E S) Q X s ↔ Q s s :=
  ⟨fun h => h.2, fun h => ⟨total_get s, h⟩⟩

theorem twp_bind {act : Act S E α} {f : α → Act S E β} {Q : β → S → Prop} :
    twp (act >>= f) Q X s ↔ twp act (fun a s' => twp (f a) Q X s') X s := by
  unfold twp
  rw [comesBack_bind, wlp_bind, and_assoc]
  refine and_congr_right fun _ => ⟨fun h => ?_, fun h => ⟨?_, ?_⟩⟩
  · exact wlp_mono (wlp_and h.1 h.2) (fun _ _ h' => h') fun _ _ h' => h'.2
  · exact wlp_mono h (fun _ _ h' => h'.1) fun _ _ _ => trivial
  · exact wlp_mono h (fun _ _ h' => h'.2) fun _ _ h' => h'

theorem twp_tryCatch {act : Act S E α} {handler : E → Act S E α}
    (h : twp act Q (fun e s' => twp (handler e) Q X s') s) : twp (tryCatch act handler) Q X s := by
  refine ⟨?_, wlp_tryCatch.mpr (wlp_mono h.2 (fun _ _ h' => h') fun _ _ h' => h'.2)⟩
  obtain ⟨⟨result, s'⟩, hrun⟩ := Option.ne_none_iff_exists'.mp h.1
  unfold ComesBack
  rw [run_tryCatch, hrun]
  cases result with
  | ok a => simp
  | error e => exact (wlp_error h.2 hrun).1

theorem twp_mono {act : Act S E α} (h : twp act Q X s) (hQ : ∀ a s', Q a s' → Q' a s')
    (hX : ∀ e s', X e s' → X' e s') : twp act Q' X' s := ⟨h.1, wlp_mono h.2 hQ hX⟩

theorem twp_and {act : Act S E α} (h : twp act Q X s) (h' : wlp act Q' X' s) :
    twp act (fun a s' => Q a s' ∧ Q' a s') (fun e s' => X e s' ∧ X' e s') s :=
  ⟨h.1, wlp_and h.2 h'⟩

/-- Two programs that run alike from `s`. -/
theorem twp_of_run_eq {act act' : Act S E α} (hrun : act.run s = act'.run s)
    (h : twp act' Q X s) : twp act Q X s := by
  unfold twp ComesBack wlp at *
  rwa [hrun]

/-- What comes back with a property of the state has a final state with it. -/
theorem exists_run_of_twp {act : Act S E α} {P : S → Prop}
    (h : twp act (fun _ => P) (fun _ => P) s) : ∃ r s', act.run s = some (r, s') ∧ P s' := by
  obtain ⟨⟨r, s'⟩, hrun⟩ := Option.ne_none_iff_exists'.mp h.1
  refine ⟨r, s', hrun, ?_⟩
  cases r with
  | ok a => exact wlp_ok h.2 hrun
  | error e => exact wlp_error h.2 hrun

/-! ## Moving along a relation -/

/-- Every way back from `act` ends in a state related to the one it started in. -/
def Within (R : S → S → Prop) (act : Act S E α) : Prop :=
  ∀ s, wlp act (fun _ s' => R s s') (fun _ s' => R s s') s

variable {R : S → S → Prop} [IsPreorder S R]

theorem within_pure (a : α) : Within R (pure a : Act S E α) := fun s => refl_of R s

theorem within_throw (e : E) : Within R (throw e : Act S E α) := fun s => refl_of R s

theorem within_get : Within R (get : Act S E S) := fun s => refl_of R s

omit [IsPreorder S R] in
theorem within_diverge : Within R (diverge : Act S E α) := fun _ => trivial

omit [IsPreorder S R] in
theorem within_modify {f : S → S} (h : ∀ s, R s (f s)) :
    Within R (modify f : Act S E Unit) := h

theorem within_bind {act : Act S E α} {f : α → Act S E β} (hact : Within R act)
    (hf : ∀ a, Within R (f a)) : Within R (act >>= f) := fun s =>
  wlp_bind.mpr <| wlp_mono (hact s)
    (fun a s' h => wlp_mono (hf a s') (fun _ _ h' => trans_of R h h')
      fun _ _ h' => trans_of R h h')
    fun _ _ h => h

theorem within_tryCatch {act : Act S E α} {handler : E → Act S E α} (hact : Within R act)
    (hhandler : ∀ e, Within R (handler e)) : Within R (tryCatch act handler) := fun s =>
  wlp_tryCatch.mpr <| wlp_mono (hact s) (fun _ _ h => h) fun e s' h =>
    wlp_mono (hhandler e s') (fun _ _ h' => trans_of R h h') fun _ _ h' => trans_of R h h'

omit [IsPreorder S R] in
theorem within_ite {c : Prop} [Decidable c] {act act' : Act S E α}
    (h : c → Within R act) (h' : ¬ c → Within R act') : Within R (if c then act else act') := by
  by_cases hc : c
  · simpa [hc] using h hc
  · simpa [hc] using h' hc

theorem within_whenever {c : Prop} [Decidable c] {act : Act S E Unit}
    (h : c → Within R act) : Within R (whenever c act) :=
  within_ite h fun _ => within_pure ()

theorem within_ofExcept (result : Except E α) : Within R (ofExcept result : Act S E α) := by
  cases result
  · exact within_throw _
  · exact within_pure _

/-- Staying within a relation, seen from an earlier state. -/
theorem Within.wlp_from {act : Act S E α} (h : Within R act) {s₀ : S} (hs : R s₀ s) :
    wlp act (fun _ s' => R s₀ s') (fun _ s' => R s₀ s') s :=
  wlp_mono (h s) (fun _ _ h' => trans_of R hs h') fun _ _ h' => trans_of R hs h'

omit [IsPreorder S R] in
/-- A program that stays within a relation keeps every property the relation keeps. -/
theorem Within.wlp_of_closed {act : Act S E α} {P : S → Prop} (h : Within R act)
    (hclosed : ∀ s s', R s s' → P s → P s') (hs : P s) :
    wlp act (fun _ => P) (fun _ => P) s :=
  wlp_mono (h s) (fun _ _ hR => hclosed _ _ hR hs) fun _ _ hR => hclosed _ _ hR hs

/-! ## Agreeing but for an exception

A limit that a program may run into ends it with an exception.  Two programs that differ in the
limit alone agree wherever the tighter one does not raise it. -/

section AgreeUnless

variable {cut : E → Prop} {act act' : Act S E α}

/-- `act'` comes back as `act` does, unless `act` raises an exception of that kind. -/
def AgreeUnless (cut : E → Prop) (act act' : Act S E α) : Prop :=
  ∀ s, act'.run s = act.run s ∨ ∃ e s', cut e ∧ act.run s = some (.error e, s')

theorem agreeUnless_refl (act : Act S E α) : AgreeUnless cut act act := fun _ => .inl rfl

/-- A program that raises at once agrees with every other. -/
theorem agreeUnless_throw {e : E} (hcut : cut e) : AgreeUnless cut (throw e) act := fun s =>
  .inr ⟨e, s, hcut, rfl⟩

theorem agreeUnless_bind {f f' : α → Act S E β} (h : AgreeUnless cut act act')
    (hf : ∀ a, AgreeUnless cut (f a) (f' a)) : AgreeUnless cut (act >>= f) (act' >>= f') := by
  intro s
  rw [run_bind, run_bind]
  rcases h s with heq | ⟨e, s', hcut, hrun⟩
  · rw [heq]
    cases act.run s with
    | none => exact .inl rfl
    | some result =>
        obtain ⟨result, s'⟩ := result
        cases result with
        | ok a => exact hf a s'
        | error e => exact .inl rfl
  · rw [hrun]
    exact .inr ⟨e, s', hcut, rfl⟩

theorem agreeUnless_handler {handler handler' : E → Act S E α}
    (h : ∀ e, AgreeUnless cut (handler e) (handler' e)) :
    AgreeUnless cut (tryCatch act handler) (tryCatch act handler') := by
  intro s
  rw [run_tryCatch, run_tryCatch]
  cases act.run s with
  | none => exact .inl rfl
  | some result =>
      obtain ⟨result, s'⟩ := result
      cases result with
      | ok a => exact .inl rfl
      | error e => exact h e s'

/-- A handler that raises such an exception again does not hide it. -/
theorem agreeUnless_tryCatch {handler : E → Act S E α} (h : AgreeUnless cut act act')
    (hagain : ∀ e s, cut e → ∃ s', (handler e).run s = some (.error e, s')) :
    AgreeUnless cut (tryCatch act handler) (tryCatch act' handler) := by
  intro s
  rw [run_tryCatch, run_tryCatch]
  rcases h s with heq | ⟨e, s', hcut, hrun⟩
  · exact .inl (by rw [heq])
  · rw [hrun]
    obtain ⟨s'', hraised⟩ := hagain e s' hcut
    exact .inr ⟨e, s'', hcut, hraised⟩

theorem agreeUnless_ite {c : Prop} [Decidable c] {next next' : Act S E α}
    (h : c → AgreeUnless cut act act') (h' : ¬ c → AgreeUnless cut next next') :
    AgreeUnless cut (if c then act else next) (if c then act' else next') := by
  by_cases hc : c
  · simpa [hc] using h hc
  · simpa [hc] using h' hc

theorem agreeUnless_whenever {c : Prop} [Decidable c] {act act' : Act S E Unit}
    (h : c → AgreeUnless cut act act') : AgreeUnless cut (whenever c act) (whenever c act') :=
  agreeUnless_ite h fun _ => agreeUnless_refl _

end AgreeUnless

/-! ## Footprints

A labelled relation `step` says what the primitives of a development do to the
state.  `Steps step allowed` are the finite sequences of primitives with an
allowed label; a program within them touches nothing else. -/

variable {L : Type} {step : L → S → S → Prop} {allowed allowed' : L → Prop}

/-- Finite sequences of allowed primitives. -/
def Steps (step : L → S → S → Prop) (allowed : L → Prop) : S → S → Prop :=
  Relation.ReflTransGen fun s s' => ∃ l, allowed l ∧ step l s s'

instance : IsPreorder S (Steps step allowed) :=
  inferInstanceAs (IsPreorder S (Relation.ReflTransGen _))

theorem Steps.single {l : L} {s s' : S} (hl : allowed l) (h : step l s s') :
    Steps step allowed s s' := Relation.ReflTransGen.single ⟨l, hl, h⟩

/-- One more primitive in front. -/
theorem Steps.cons {l : L} {s s' s'' : S} (hl : allowed l) (h : step l s s')
    (h' : Steps step allowed s' s'') : Steps step allowed s s'' :=
  Relation.ReflTransGen.head ⟨l, hl, h⟩ h'

theorem Steps.mono {s s' : S} (h : Steps step allowed s s') (himp : ∀ l, allowed l → allowed' l) :
    Steps step allowed' s s' := by
  induction h with
  | refl => exact .refl
  | tail _ hstep ih =>
      obtain ⟨l, hl, hstep⟩ := hstep
      exact ih.tail ⟨l, himp l hl, hstep⟩

theorem Within.mono {act : Act S E α} (h : Within (Steps step allowed) act)
    (himp : ∀ l, allowed l → allowed' l) : Within (Steps step allowed') act := fun s =>
  wlp_mono (h s) (fun _ _ h' => h'.mono himp) fun _ _ h' => h'.mono himp

/-- What every allowed primitive keeps, a sequence of them keeps. -/
theorem Steps.closed {P : S → Prop} {s s' : S} (h : Steps step allowed s s')
    (hclosed : ∀ l s s', allowed l → step l s s' → P s → P s') (hs : P s) : P s' := by
  induction h with
  | refl => exact hs
  | tail _ hstep ih =>
      obtain ⟨l, hl, hstep⟩ := hstep
      exact hclosed l _ _ hl hstep ih

end Act

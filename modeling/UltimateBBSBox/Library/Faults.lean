import Mathlib.Data.Nat.Notation
import UltimateBBSBox.Library.Act

/-!
# Programs whose operations may fail

A program works on a state by operations, and each of them is answered: it takes
effect, or it raises after a part of it.  The answers are given in advance; when
there are no more of them, nothing fails.

An operation that a program makes only once may instead be given its own answer
(`attempt`).

`andFinally` is a `try` with a `finally`: the second program runs whatever came of
the first, and what it raises is raised.
-/

/-- A state and the answers to the operations to come. -/
structure Faulty (D E : Type) where
  state : D
  answers : List (Option (E × ℕ))

namespace Faulty

open Act

variable {D E α : Type}

/-- An operation that takes effect, or raises and leaves what `torn` says of how far it came. -/
def performOr (torn : ℕ → D → D) (effect : D → D) : Act (Faulty D E) E Unit := do
  let s ← get
  match s.answers with
  | [] => modify fun s => { s with state := effect s.state }
  | none :: rest => set (⟨effect s.state, rest⟩ : Faulty D E)
  | some (e, reached) :: rest => do
      set (⟨torn reached s.state, rest⟩ : Faulty D E)
      throw e

/-- An operation that takes effect, or raises and leaves the state alone. -/
def perform (effect : D → D) : Act (Faulty D E) E Unit := performOr (fun _ => id) effect

section Programs

variable {S : Type}

/-- An operation with its answer: it takes effect, or raises and leaves what `torn` says of
how far it came. -/
def attempt (answer : Option (E × ℕ)) (torn : ℕ → S → S) (effect : S → S) : Act S E Unit :=
  match answer with
  | none => modify effect
  | some (e, reached) => do
      modify (torn reached)
      throw e

/-- A program, and another one after it whatever came of the first. -/
def andFinally (act : Act S E α) (last : Act S E Unit) : Act S E α := do
  let result ← tryCatch (do
    let a ← act
    return Except.ok a) fun e => return Except.error e
  last
  Act.ofExcept result

end Programs

section Rules

variable {Q : α → Faulty D E → Prop} {X : E → Faulty D E → Prop} {s : Faulty D E}

/-- What is left of a state after one answer. -/
def next (state : D) (s : Faulty D E) : Faulty D E := ⟨state, s.answers.drop 1⟩

@[simp] theorem next_state (state : D) : (next state s).state = state := rfl

theorem wlp_performOr {Q : Unit → Faulty D E → Prop} {torn : ℕ → D → D} {effect : D → D} :
    wlp (performOr torn effect) Q X s ↔
      ((s.answers.head?.join = none → Q () (next (effect s.state) s)) ∧
        ∀ e reached, s.answers.head?.join = some (e, reached) →
          X e (next (torn reached s.state) s)) := by
  obtain ⟨state, answers⟩ := s
  unfold performOr
  rw [wlp_bind, wlp_get]
  cases answers with
  | nil => simp [next, wlp_modify]
  | cons answer rest =>
      cases answer with
      | none => exact ⟨fun h => ⟨fun _ => h, by simp⟩, fun h => h.1 rfl⟩
      | some failure =>
          obtain ⟨e, reached⟩ := failure
          refine ⟨fun h => ⟨by simp, ?_⟩, fun h => h.2 e reached rfl⟩
          intro e' reached' heq
          simp only [List.head?_cons, Option.join_some, Option.some.injEq, Prod.mk.injEq] at heq
          obtain ⟨rfl, rfl⟩ := heq
          exact h

theorem wlp_perform {Q : Unit → Faulty D E → Prop} {effect : D → D} :
    wlp (perform effect) Q X s ↔
      ((s.answers.head?.join = none → Q () (next (effect s.state) s)) ∧
        ∀ e reached, s.answers.head?.join = some (e, reached) → X e (next s.state s)) :=
  wlp_performOr

section Programs

variable {S : Type} {Q : α → S → Prop} {X : E → S → Prop} {s : S}

theorem wlp_attempt {Q : Unit → S → Prop} {answer : Option (E × ℕ)} {torn : ℕ → S → S}
    {effect : S → S} :
    wlp (attempt answer torn effect) Q X s ↔
      (answer = none → Q () (effect s)) ∧
        ∀ e reached, answer = some (e, reached) → X e (torn reached s) := by
  unfold attempt
  cases answer with
  | none => simp
  | some failure =>
      obtain ⟨e, reached⟩ := failure
      simp [wlp_bind]

theorem wlp_attempt_none {Q : Unit → S → Prop} {answer : Option (E × ℕ)} {torn : ℕ → S → S}
    {effect : S → S} (h : answer = none) :
    wlp (attempt answer torn effect) Q X s ↔ Q () (effect s) := by
  subst h
  exact Iff.rfl

/-- An operation that changes nothing. -/
theorem wlp_attempt_id {Q : Unit → S → Prop} {answer : Option (E × ℕ)} :
    wlp (attempt answer (fun _ => id) id) Q X s ↔
      (answer = none → Q () s) ∧ ∀ e reached, answer = some (e, reached) → X e s := wlp_attempt

theorem wlp_andFinally {act : Act S E α} {last : Act S E Unit} :
    wlp (andFinally act last) Q X s ↔
      wlp act (fun a => wlp last (fun _ => Q a) X) (fun e => wlp last (fun _ => X e) X) s := by
  unfold andFinally
  rw [wlp_bind, wlp_tryCatch, wlp_bind]
  simp only [wlp_pure, wlp_bind, Act.ofExcept, wlp_throw]

end Programs

/-! ## Without failures -/

@[simp] theorem wlp_performOr_nil {Q : Unit → Faulty D E → Prop} {torn : ℕ → D → D}
    {effect : D → D} {state : D} :
    wlp (performOr torn effect) Q X ⟨state, []⟩ ↔ Q () ⟨effect state, []⟩ := Iff.rfl

@[simp] theorem wlp_perform_nil {Q : Unit → Faulty D E → Prop} {effect : D → D} {state : D} :
    wlp (perform effect) Q X ⟨state, []⟩ ↔ Q () ⟨effect state, []⟩ := Iff.rfl

end Rules

/-! ## Coming back -/

/-- A guard that throws comes back when what it guards does. -/
theorem total_guard {S : Type} {c : Prop} [Decidable c] {e : E} {f : Unit → Act S E α}
    (h : Total (f ())) : Total (if c then throw e >>= f else f ()) :=
  total_ite (fun _ => total_bind (total_throw e) fun _ => h) fun _ => h

theorem total_performOr (torn : ℕ → D → D) (effect : D → D) :
    Total (performOr torn effect : Act (Faulty D E) E Unit) := by
  refine total_bind total_get fun s => ?_
  split
  · exact total_modify _
  · exact total_modify _
  · exact total_bind (total_modify _) fun _ => total_throw _

theorem total_perform (effect : D → D) :
    Total (perform effect : Act (Faulty D E) E Unit) := total_performOr _ _

theorem total_attempt {S : Type} (answer : Option (E × ℕ)) (torn : ℕ → S → S) (effect : S → S) :
    Total (attempt answer torn effect) := by
  unfold attempt
  split
  · exact total_modify _
  · exact total_bind (total_modify _) fun _ => total_throw _

theorem total_andFinally {S : Type} {act : Act S E α} {last : Act S E Unit} (hact : Total act)
    (hlast : Total last) : Total (andFinally act last) :=
  total_bind (total_tryCatch (total_bind hact fun _ => total_pure _) fun _ => total_pure _) fun _ =>
    total_bind hlast fun _ => total_ofExcept _

/-- Where only returns matter, a first step may end in any way. -/
theorem wlp_skip {S β : Type} {act : Act S E α} {f : α → Act S E β} {Q : β → S → Prop} {s : S}
    (h : ∀ a s', wlp (f a) Q (fun _ _ => True) s') : wlp (act >>= f) Q (fun _ _ => True) s :=
  wlp_bind.mpr (wlp_mono wlp_true (fun a s' _ => h a s') fun _ _ => id)

/-! ## Returning

`Returns act Q s` says that `act`, started in `s`, does not raise, and that it returns with
`Q` if it comes back.  Of programs that come back it says that they do return with `Q`. -/

section Returning

variable {S β : Type} {Q Q' : α → S → Prop} {s : S}

/-- The program raises nothing, and ends with `Q`. -/
def Returns (act : Act S E α) (Q : α → S → Prop) (s : S) : Prop := wlp act Q (fun _ _ => False) s

theorem returns_iff_exists {act : Act S E α} (htotal : Total act) :
    Returns act Q s ↔ ∃ a s', act.run s = some (.ok a, s') ∧ Q a s' := by
  unfold Returns
  constructor
  · intro h
    cases hrun : act.run s with
    | none => exact absurd hrun (htotal s)
    | some outcome =>
        obtain ⟨result, s'⟩ := outcome
        cases result with
        | ok a => exact ⟨a, s', rfl, wlp_ok h hrun⟩
        | error e => exact (wlp_error h hrun).elim
  · intro ⟨a, s', hrun, hQ⟩
    unfold wlp
    rw [hrun]
    exact hQ

theorem returns_bind {act : Act S E α} {f : α → Act S E β} {Q : β → S → Prop} :
    Returns (act >>= f) Q s ↔ Returns act (fun a s' => Returns (f a) Q s') s := wlp_bind

theorem returns_pure {a : α} : Returns (pure a : Act S E α) Q s ↔ Q a s := Iff.rfl

theorem returns_get {Q : S → S → Prop} : Returns (get : Act S E S) Q s ↔ Q s s := Iff.rfl

theorem returns_ofExcept {result : Except E α} :
    Returns (ofExcept result) Q s ↔ ∃ a, result = .ok a ∧ Q a s := by
  unfold Returns
  rw [wlp_ofExcept]
  cases result with
  | ok a => simp
  | error e => simp

theorem returns_ofExcept_ok {result : Except E α} {a : α} (h : result = .ok a) :
    Returns (ofExcept result) Q s ↔ Q a s := by
  subst h
  exact Iff.rfl

/-- A check that is passed. -/
theorem returns_check {check : Except E Unit} {Q : Unit → S → Prop} :
    Returns (ofExcept check) Q s ↔ check = .ok () ∧ Q () s := by
  rw [returns_ofExcept]
  exact ⟨fun ⟨_, hok, hQ⟩ => ⟨hok, hQ⟩, fun ⟨hok, hQ⟩ => ⟨(), hok, hQ⟩⟩

/-- A guard is passed where its condition does not hold. -/
theorem returns_guard {c : Prop} [Decidable c] {e : E} {f : Unit → Act S E α} :
    Returns (if c then throw e >>= f else f ()) Q s ↔ ¬c ∧ Returns (f ()) Q s := by
  by_cases hc : c
  · simp only [hc, if_true, not_true_eq_false, false_and]
    exact Iff.rfl
  · simp only [hc, if_false, not_false_eq_true, true_and]

theorem returns_attempt {Q : Unit → S → Prop} {torn : ℕ → S → S} {effect : S → S}
    {answer : Option (E × ℕ)} (h : answer = none) :
    Returns (attempt answer torn effect) Q s ↔ Q () (effect s) := wlp_attempt_none h

/-- What raises is not made to return by what comes after it. -/
theorem returns_andFinally {act : Act S E α} {last : Act S E Unit} (hlast : Total last) :
    Returns (andFinally act last) Q s ↔
      Returns act (fun a s' => Returns last (fun _ => Q a) s') s := by
  have hraised : ∀ s', ¬wlp last (fun _ _ => False) (fun _ _ => False) s' := by
    intro s' h
    cases hrun : last.run s' with
    | none => exact hlast s' hrun
    | some outcome =>
        obtain ⟨result, s''⟩ := outcome
        cases result with
        | ok a => exact wlp_ok h hrun
        | error e => exact wlp_error h hrun
  unfold Returns
  rw [wlp_andFinally]
  constructor
  · intro h
    exact wlp_mono h (fun _ _ => id) fun _ s' h => hraised s' h
  · intro h
    exact wlp_mono h (fun _ _ => id) fun _ _ h => h.elim

/-- After what keeps to `P` in any case, a return may be seen together with `P`. -/
theorem returns_congr {act : Act S E α} {P : α → S → Prop} {Y : E → S → Prop} (h : wlp act P Y s)
    (hcongr : ∀ a s', P a s' → (Q a s' ↔ Q' a s')) : Returns act Q s ↔ Returns act Q' s := by
  constructor
  · intro hreturns
    refine wlp_mono (wlp_and h hreturns) ?_ fun _ _ h => h.2
    exact fun a s' ⟨hP, hQ⟩ => (hcongr a s' hP).mp hQ
  · intro hreturns
    refine wlp_mono (wlp_and h hreturns) ?_ fun _ _ h => h.2
    exact fun a s' ⟨hP, hQ⟩ => (hcongr a s' hP).mpr hQ

end Returning

/-! ## Moving along a relation -/

section Moving

variable {S : Type} {R : S → S → Prop}

theorem within_attempt {answer : Option (E × ℕ)} {torn : ℕ → S → S} {effect : S → S}
    (htorn : ∀ reached s, R s (torn reached s)) (heffect : ∀ s, R s (effect s)) :
    Within R (attempt answer torn effect) := by
  intro s
  rw [wlp_attempt]
  exact ⟨fun _ => heffect s, fun _ reached _ => htorn reached s⟩

variable [IsPreorder S R]

theorem within_guard {c : Prop} [Decidable c] {e : E} {f : Unit → Act S E α}
    (h : Within R (f ())) : Within R (if c then throw e >>= f else f ()) :=
  within_ite (fun _ => within_bind (within_throw e) fun _ => h) fun _ => h

end Moving

/-! ## What a return needs

`Needs ok keys act` says that `act` returns only where all of these keys are in order:
of a sequence this is so when its steps need their parts of the keys. -/

section Needing

variable {S K β : Type} {ok : K → Prop} {keys keys' : List K}

/-- The program returns only if all keys are in order. -/
def Needs (ok : K → Prop) (keys : List K) (act : Act S E α) : Prop :=
  ∀ s, wlp act (fun _ _ => ∀ key ∈ keys, ok key) (fun _ _ => True) s

theorem needs_nil (act : Act S E α) : Needs ok [] act := by
  intro s
  refine wlp_mono wlp_true ?_ fun _ _ => id
  intro _ _ _ key hkey
  cases hkey

theorem needs_bind {act : Act S E α} {f : α → Act S E β} (hact : Needs ok keys act)
    (hf : ∀ a, Needs ok keys' (f a)) : Needs ok (keys ++ keys') (act >>= f) := by
  intro s
  rw [wlp_bind]
  refine wlp_mono (hact s) ?_ fun _ _ => id
  intro a s' hkeys
  refine wlp_mono (hf a s') ?_ fun _ _ => id
  intro _ _ hkeys' key hkey
  rcases List.mem_append.mp hkey with hkey | hkey
  · exact hkeys key hkey
  · exact hkeys' key hkey

/-- What comes before needs nothing. -/
theorem needs_after {act : Act S E α} {f : α → Act S E β} (hf : ∀ a, Needs ok keys (f a)) :
    Needs ok keys (act >>= f) := needs_bind (needs_nil act) hf

theorem needs_guard {c : Prop} [Decidable c] {e : E} {f : Unit → Act S E α}
    (h : Needs ok keys (f ())) : Needs ok keys (if c then throw e >>= f else f ()) := by
  intro s
  rw [wlp_ite]
  refine ⟨fun _ => ?_, fun _ => h s⟩
  rw [wlp_bind, wlp_throw]
  trivial

theorem needs_attempt {answers : K → Option (E × ℕ)} {key : K} {torn : ℕ → S → S}
    {effect : S → S} :
    Needs (fun key => answers key = none) [key] (attempt (answers key) torn effect) := by
  intro s
  rw [wlp_attempt]
  refine ⟨?_, fun _ _ _ => trivial⟩
  intro h key' hkey'
  rw [List.mem_singleton] at hkey'
  rw [hkey']
  exact h

end Needing

/-! ## Two programs, operation by operation -/

section Follows

variable {S S' : Type} {view : S → S'} {s : S} {s' : S'}

variable (view) in
/-- What the first program does to the part of its state that is in view, and what comes of it,
is what the second does. -/
def Follows (act : Act S E α) (act' : Act S' E α) (s : S) (s' : S') : Prop :=
  (act.run s).map (Prod.map id view) = act'.run s'

theorem follows_pure (a : α) (h : view s = s') :
    Follows view (pure a : Act S E α) (pure a) s s' :=
  congrArg (fun s' => some (Except.ok a, s')) h

theorem follows_throw (e : E) (h : view s = s') :
    Follows view (throw e : Act S E α) (throw e) s s' :=
  congrArg (fun s' => some (Except.error e, s')) h

theorem follows_ofExcept {result : Except E β} {f : β → Act S E α} {f' : β → Act S' E α}
    (h : view s = s') (hf : ∀ b, result = .ok b → Follows view (f b) (f' b) s s') :
    Follows view (Act.ofExcept result >>= f) (Act.ofExcept result >>= f') s s' := by
  cases result with
  | error e => exact follows_throw e h
  | ok b => exact hf b rfl

/-- What one side computes step by step the other may compute at once. -/
theorem follows_ofExcept_bind {γ γ' : Type} {result : Except E β} {f : β → Act S E γ}
    {g : β → Except E γ'} {k : γ → Act S E α} {k' : γ' → Act S' E α} (h : view s = s')
    (hf : ∀ b, result = .ok b →
      Follows view (f b >>= k) (Act.ofExcept (g b) >>= k') s s') :
    Follows view ((Act.ofExcept result >>= f) >>= k) (Act.ofExcept (result >>= g) >>= k') s s' := by
  cases result with
  | error e => exact follows_throw e h
  | ok b => exact hf b rfl

theorem follows_guard {c : Prop} [Decidable c] {e : E} {f : Unit → Act S E α}
    {f' : Unit → Act S' E α} (h : view s = s') (hf : ¬ c → Follows view (f ()) (f' ()) s s') :
    Follows view (if c then throw e >>= f else f ()) (if c then throw e >>= f' else f' ()) s s' := by
  split
  · exact follows_throw e h
  · exact hf (by assumption)

/-- A guard that looks at the state, on the other side in a program of its own. -/
theorem follows_get_guard (c : S → Prop) (c' : S' → Prop) [DecidablePred c] [DecidablePred c'] {e : E}
    {f : Unit → Act S E α} {f' : Unit → Act S' E β} {k' : β → Act S' E α} (h : view s = s')
    (hc : c s ↔ c' s') (hf : ¬ c s → Follows view (f ()) (f' () >>= k') s s') :
    Follows view (get >>= fun s => if c s then throw e >>= f else f ())
      ((get >>= fun s' => if c' s' then throw e >>= f' else f' ()) >>= k') s s' := by
  change Follows view (if c s then throw e >>= f else f ())
    ((if c' s' then throw e >>= f' else f' ()) >>= k') s s'
  by_cases hcond : c s
  · rw [if_pos hcond, if_pos (hc.mp hcond)]
    exact follows_throw e h
  · rw [if_neg hcond, if_neg (hcond ∘ hc.mpr)]
    exact hf hcond

/-- An operation on both sides: both take effect, or both fail in the same way. -/
theorem follows_attempt {answer answer' : Option (E × ℕ)} {reached : ℕ → ℕ} {torn : ℕ → S → S}
    {torn' : ℕ → S' → S'} {effect : S → S} {effect' : S' → S'} {f : Unit → Act S E α}
    {f' : Unit → Act S' E α} (hanswer : answer' = answer.map (Prod.map id reached))
    (htorn : ∀ n, view (torn n s) = torn' (reached n) s')
    (hf : Follows view (f ()) (f' ()) (effect s) (effect' s')) :
    Follows view (attempt answer torn effect >>= f) (attempt answer' torn' effect' >>= f') s s' := by
  subst hanswer
  cases answer with
  | none => exact hf
  | some failure => exact follows_throw failure.1 (htorn failure.2)

/-- What the last program does is out of view. -/
theorem follows_andFinally {act : Act S E α} {act' : Act S' E α} {f : S → S}
    (hact : Follows view act act' s s') (hf : ∀ s, view (f s) = view s) :
    Follows view (andFinally act (modify f)) act' s s' := by
  unfold Follows at hact ⊢
  unfold andFinally
  rw [← hact, run_bind, run_tryCatch, run_bind]
  cases act.run s with
  | none => rfl
  | some result =>
      obtain ⟨r, t⟩ := result
      have hlast := congrArg (fun s' => some (r, s')) (hf t)
      cases r with
      | ok a => exact hlast
      | error e => exact hlast

end Follows

end Faulty

import UltimateBBSBox.Supervisor.Crashes

/-!
# Idle stops

`_schedule_idle_locked` sets a deadline once no hold is left, `_add_hold` drops
it, and `tick` stops the service when the deadline has come and no hold is
there.  So far a stop is always preceded by a whole idle period.

The holds `always_on` and `admin` of a reconciliation and the `recovery` hold of
a restart are installed by assignment, which leaves the deadline.  Where no such
hold is installed while a deadline is pending, an idle stop at `T` finds that
the clock has shown `T - idle_timeout_seconds`, or less, since a hold was active
last.  This is `IdleKept`, which every deed keeps and every cut keeps.
-/

namespace UltimateBBSBox.Supervisor

open Act

variable {σ : Type} {C : Context σ}

/-! ## Moments at which a hold is active -/

/-- A hold is active: a driver is called with one, or `recovery` was just installed. -/
def Effect.Held : Effect → Prop
  | .status inst | .start inst | .isReady inst | .stop _ inst | .runMaintenance _ inst =>
      inst.activeHolds ≠ 0
  | .attempt _ => True
  | .clock _ | .journal _ | .save _ | .resolve => False

/-- A supervised service over the time of several processes, and the moments,
as lengths of the log, at which its lock was free and a hold was active. -/
structure Watched (σ : Type) where
  world : World σ
  held : List ℕ

namespace Watched

/-- The lock is free in `w`. -/
def watch (held : List ℕ) (w : World σ) : Watched σ :=
  ⟨w, if w.cell.inst.activeHolds ≠ 0 then w.cell.log.length :: held else held⟩

/-- What happens, watched. -/
def happen (C : Context σ) (t : Watched σ) (h : Happening σ) :
    Option (Option (Except Exn Unit) × Watched σ) :=
  match t.world.happen C h with
  | none => none
  | some (r, w) => some (r, watch t.held w)

/-- A supervisor over an empty state directory. -/
def initial (C : Context σ) (override : Option Mode) (env : σ) : Watched σ :=
  ⟨World.initial C override env, []⟩

end Watched

/-- A hold is active at the end of the log. -/
def HeldAt (held : List ℕ) (log : List Effect) : Prop :=
  (∃ effect ∈ log.head?, effect.Held) ∨ log.length ∈ held

/-- `idle_timeout_seconds`, in microseconds. -/
def Context.idleMicros (C : Context σ) : ℤ :=
  (C.service.lifecycle.idleTimeoutSeconds.getD 0 : ℕ) * microsPerSecond

/-- The clock has shown `t`, and no hold was active from then on. -/
def QuietSince (held : List ℕ) (t : ℤ) (log : List Effect) : Prop :=
  ∃ newer reading older, log = newer ++ .clock reading :: older ∧ reading.instant = t ∧
    (∀ effect ∈ newer, ¬ effect.Held) ∧ ∀ n ∈ held, n ≤ older.length

theorem QuietSince.cons {held : List ℕ} {t : ℤ} {log : List Effect} {effect : Effect}
    (h : QuietSince held t log) (hheld : ¬ effect.Held) : QuietSince held t (effect :: log) := by
  obtain ⟨newer, reading, older, hlog, ht, hquiet, hmarks⟩ := h
  refine ⟨effect :: newer, reading, older, by rw [hlog, List.cons_append], ht, ?_, hmarks⟩
  exact List.forall_mem_cons.mpr ⟨hheld, hquiet⟩

theorem not_heldAt {held : List ℕ} {quiet older : List Effect} {reading : DateTime}
    (hquiet : ∀ effect ∈ quiet, ¬ effect.Held) (hmarks : ∀ n ∈ held, n ≤ older.length) :
    ¬ HeldAt held (quiet ++ .clock reading :: older) := by
  rintro (⟨effect, hhead, heffect⟩ | hmark)
  · cases quiet with
    | nil =>
        cases hhead
        exact heffect
    | cons first quiet =>
        cases hhead
        exact hquiet effect (List.mem_cons_self ..) heffect
  · have hle := hmarks _ hmark
    rw [List.length_append, List.length_cons] at hle
    omega

/-- A moment at which a hold was active lies before that reading. -/
theorem QuietSince.reading_of_heldAt {held : List ℕ} {t : ℤ} {newer older : List Effect}
    (h : QuietSince held t (newer ++ older)) (hheld : HeldAt held older) :
    ∃ reading, .clock reading ∈ newer ∧ reading.instant = t := by
  obtain ⟨quiet, reading, rest, hsplit, ht, hquiet, hmarks⟩ := h
  rcases List.append_eq_append_iff.mp hsplit with ⟨between, rfl, rfl⟩ | ⟨between, rfl, hrest⟩
  · refine absurd hheld (not_heldAt (fun effect heffect => hquiet effect ?_) hmarks)
    exact List.mem_append_right _ heffect
  · cases between with
    | nil =>
        rw [List.nil_append] at hrest
        rw [← hrest] at hheld
        exact absurd hheld (@not_heldAt held [] rest reading (fun _ h => by cases h) hmarks)
    | cons effect between =>
        rw [List.cons_append, List.cons.injEq] at hrest
        refine ⟨reading, ?_, ht⟩
        rw [hrest.1]
        simp

theorem instant_of_addSeconds {t deadline : DateTime} {seconds : ℕ}
    (h : addSeconds t seconds = .ok deadline) :
    deadline.instant = t.instant + seconds * microsPerSecond := by
  unfold addSeconds at h
  split at h
  · rename_i later hlater
    rw [Except.ok.injEq] at h
    obtain ⟨micros, hmicros, hadd⟩ := Option.bind_eq_some_iff.mp hlater
    rw [← h, DateTime.instant_of_add_eq_some hadd, timedelta_natCast_eq_some hmicros]
  · cases h

/-! ## The invariant -/

/-- No hold, persisted or not. -/
def NoHolds (holds : Dict String ℤ) : Prop := ∀ k, holds.get? k = none

/-- Holds are counted positively. -/
def HoldsPositive (holds : Dict String ℤ) : Prop := ∀ k count, holds.get? k = some count → 0 < count

theorem HoldsPositive.set {holds : Dict String ℤ} (h : HoldsPositive holds) {reason : String}
    {count : ℤ} (hcount : 0 < count) : HoldsPositive (holds.set reason count) := by
  intro k count' hget
  rw [Dict.get?_set] at hget
  split at hget
  · rw [Option.some.injEq] at hget
    exact hget ▸ hcount
  · exact h k count' hget

theorem activeHolds_of_noHolds {inst : InstanceState} (h : NoHolds inst.holds) :
    inst.activeHolds = 0 := by
  have hentries : inst.holds.entries = [] := List.length_eq_zero_iff.mp (Dict.size_eq_zero_iff.mpr h)
  simp [InstanceState.activeHolds, Dict.values, hentries]

theorem noHolds_of_activeHolds {inst : InstanceState} (hpositive : HoldsPositive inst.holds)
    (h : inst.activeHolds = 0) : NoHolds inst.holds := by
  intro k
  by_contra hk
  have hpos := InstanceState.activeHolds_pos hpositive hk
  omega

/-- Only scheduling sets a deadline. -/
theorem idleDeadline_of_deed {d : Deed} {c c' : Cell σ}
    (hdeed : Deeds C d c c') (hd : d ≠ .schedule) (h : c.inst.idleDeadline = none) : c'.inst.idleDeadline = none := by
  cases hdeed with
  | update inst hsame => exact hsame.idleDeadline.trans h
  | addHold | stopped => rfl
  | schedule => exact absurd rfl hd
  | _ => exact h

theorem not_held_of_shows {effect : Effect} {inst : InstanceState} (h : effect.Shows inst)
    (hholds : NoHolds inst.holds) : ¬ effect.Held := by
  have hactive := activeHolds_of_noHolds hholds
  cases effect with
  | journal | save | attempt => exact False.elim h
  | clock | resolve => exact id
  | status shown | start shown | isReady shown | stop cleanup shown | runMaintenance job shown =>
      cases h
      exact not_not.mpr hactive

/-- An instance, or what was persisted of one, that has been idle since the
period of its deadline began. -/
structure IdleSince (C : Context σ) (held : List ℕ) (holds : Dict String ℤ)
    (idleDeadline : Option DateTime) (log : List Effect) : Prop where
  positive : HoldsPositive holds
  idle : ∀ deadline, idleDeadline = some deadline →
    NoHolds holds ∧ QuietSince held (deadline.instant - C.idleMicros) log

namespace IdleSince

variable {held : List ℕ} {holds : Dict String ℤ} {idleDeadline : Option DateTime}
  {log : List Effect}

theorem cons (h : IdleSince C held holds idleDeadline log) {effect : Effect}
    (hheld : idleDeadline ≠ none → ¬ effect.Held) :
    IdleSince C held holds idleDeadline (effect :: log) where
  positive := h.positive
  idle deadline hdeadline := by
    obtain ⟨hholds, hquiet⟩ := h.idle deadline hdeadline
    refine ⟨hholds, hquiet.cons (hheld ?_)⟩
    rw [hdeadline]
    exact Option.some_ne_none _

/-- Without a deadline any moment may be held. -/
theorem of_none (hpositive : HoldsPositive holds) : IdleSince C held holds none log :=
  ⟨hpositive, fun _ h => by cases h⟩

theorem filterKeys (h : IdleSince C held holds idleDeadline log) (keep : String → Bool) :
    IdleSince C held (holds.filterKeys keep) idleDeadline log where
  positive k count hget := by
    rw [Dict.get?_filterKeys] at hget
    split at hget
    · exact h.positive k count hget
    · cases hget
  idle deadline hdeadline := by
    obtain ⟨hholds, hquiet⟩ := h.idle deadline hdeadline
    refine ⟨fun k => ?_, hquiet⟩
    rw [Dict.get?_filterKeys, hholds k]
    exact ite_self _

end IdleSince

/-- What the state file holds after the effects of a log has been idle. -/
def StoredIdle (C : Context σ) (held : List ℕ) (log : List Effect) : Prop :=
  ∀ document, newestSave log = some document →
    IdleSince C held document.holds document.idleDeadline log

/-- Deadline and state file tell when the last hold was active, at each point
since the log was `base`. -/
structure IdleKept (C : Context σ) (held : List ℕ) (base : ℕ) (c : Cell σ) : Prop where
  since : IdleSince C held c.inst.holds c.inst.idleDeadline c.log
  stored : ∀ document, newestSave c.log = some document →
    document.idleDeadline = c.inst.idleDeadline
  cuts : ∀ log, log <:+ c.log → base ≤ log.length → StoredIdle C held log
  grown : base ≤ c.log.length
  marks : ∀ n ∈ held, n ≤ base

namespace IdleKept

variable {held : List ℕ} {base : ℕ} {c c' : Cell σ}

/-- A change of the instance that keeps holds and deadline, or drops holds. -/
theorem of_eq (h : IdleKept C held base c) (hlog : c'.log = c.log)
    (hdeadline : c'.inst.idleDeadline = c.inst.idleDeadline)
    (hholds : FewerHolds c.inst.holds c'.inst.holds) : IdleKept C held base c' where
  since := by
    refine ⟨fun k count' hget => ?_, fun deadline hd => ?_⟩
    · obtain ⟨count, hcount, hpositive⟩ := hholds k count' hget
      exact hpositive (h.since.positive k count hcount)
    · rw [hdeadline] at hd
      obtain ⟨hnone, hquiet⟩ := h.since.idle deadline hd
      refine ⟨fun k => ?_, hlog ▸ hquiet⟩
      cases hget : c'.inst.holds.get? k with
      | none => rfl
      | some count' =>
          obtain ⟨count, hcount, _⟩ := hholds k count' hget
          rw [hnone k] at hcount
          cases hcount
  stored := by
    rw [hlog, hdeadline]
    exact h.stored
  cuts := hlog ▸ h.cuts
  grown := hlog ▸ h.grown
  marks := h.marks

/-- An effect that is no save, and is held only while no deadline is pending. -/
theorem note (h : IdleKept C held base c) {effect : Effect}
    (hsave : newestSave (effect :: c.log) = newestSave c.log)
    (hheld : c.inst.idleDeadline ≠ none → ¬ effect.Held) : IdleKept C held base (c.note effect) where
  since := h.since.cons hheld
  stored := by
    rw [Cell.note_log, hsave]
    exact h.stored
  cuts log hlog hbase := by
    rcases List.suffix_cons_iff.mp hlog with rfl | hlog
    · intro document hdocument
      rw [hsave] at hdocument
      refine (h.cuts c.log (List.suffix_refl _) h.grown document hdocument).cons ?_
      rw [h.stored document hdocument]
      exact hheld
    · exact h.cuts log hlog hbase
  grown := h.grown.trans (Nat.le_succ _)
  marks := h.marks

/-- Saving what has changed in memory, as long as its deadline is right. -/
theorem saved_of (h : IdleKept C held base c) (hlog : c'.log = c.log)
    (hsince : IdleSince C held c'.inst.holds c'.inst.idleDeadline c'.log) :
    IdleKept C held base c'.saved where
  since := hsince.cons fun _ => id
  stored document hdocument := by
    cases hdocument
    rfl
  cuts log hcut hbase := by
    rcases List.suffix_cons_iff.mp hcut with rfl | hcut
    · intro document hdocument
      cases hdocument
      exact (hsince.filterKeys isPersistentHold).cons fun _ => id
    · exact h.cuts log (hlog ▸ hcut) hbase
  grown := by
    rw [Cell.saved_log, hlog]
    exact h.grown.trans (Nat.le_succ _)
  marks := h.marks

theorem saved (h : IdleKept C held base c) : IdleKept C held base c.saved :=
  h.saved_of rfl h.since

/-- Waiting, and changes of the instance that neither holds nor deadline see. -/
theorem same (h : IdleKept C held base c) (hlog : c'.log = c.log)
    (hdeadline : c'.inst.idleDeadline = c.inst.idleDeadline)
    (hholds : c'.inst.holds = c.inst.holds) : IdleKept C held base c' :=
  h.of_eq hlog hdeadline (hholds ▸ FewerHolds.refl _)

theorem afterClock (h : IdleKept C held base c) (C' : Context σ) :
    IdleKept C held base (c.afterClock C') := by
  have hwait : IdleKept C held base (c.withEnv (C'.environment.now c.env).2) := h.same rfl rfl rfl
  exact hwait.note rfl fun _ => id

/-! ## Deeds -/

theorem noHolds (h : IdleKept C held base c) (hdeadline : c.inst.idleDeadline ≠ none) :
    NoHolds c.inst.holds := by
  obtain ⟨deadline, hd⟩ := Option.ne_none_iff_exists'.mp hdeadline
  exact (h.since.idle deadline hd).1

/-- Every deed keeps it, where no hold is installed by assignment over a deadline. -/
theorem deed {d : Deed} (hdeed : Deeds C d c c')
    (hpin : d = .pin ∨ d = .attempt → c.inst.idleDeadline = none)
    (h : IdleKept C held base c) : IdleKept C held base c' := by
  cases hdeed with
  | ask effect env hshows =>
      have hwait : IdleKept C held base (c.withEnv env) := h.same rfl rfl rfl
      refine hwait.note ?_ fun hdeadline => not_held_of_shows hshows (h.noHolds hdeadline)
      cases effect <;> first | rfl | exact False.elim hshows
  | call effect reply hshows =>
      have hwait : IdleKept C held base ((c.withEnv reply.env).mapInst fun inst =>
          { inst with runtime := reply.runtime }) := h.same rfl rfl rfl
      refine hwait.note ?_ fun hdeadline => not_held_of_shows hshows (h.noHolds hdeadline)
      generalize effect c.inst = shown at hshows
      cases shown <;> first | rfl | exact False.elim hshows
  | save => exact h.saved
  | update inst hsame => exact h.same rfl hsame.idleDeadline hsame.holds
  | addHold reason =>
      refine h.saved_of rfl (.of_none (h.since.positive.set ?_))
      unfold Dict.getD
      cases hget : c.inst.holds.get? reason with
      | none => simp
      | some count =>
          have hcount := h.since.positive reason count hget
          simp only [Option.getD_some]
          omega
  | release holds hfewer => exact h.of_eq rfl rfl hfewer
  | stopped stopped => exact h.saved_of rfl (.of_none h.since.positive)
  | move newState reason error hvalid =>
      have hmoved : IdleKept C held base (c.mapInst fun inst => { inst with state := newState }) :=
        h.same rfl rfl rfl
      exact ((hmoved.afterClock C).note rfl fun _ => id).saved
  | pin reason =>
      -- a hold set by assignment cancels no deadline, so there must be none
      have hnone := hpin (.inl rfl)
      refine ⟨?_, h.stored, h.cuts, h.grown, h.marks⟩
      simp only [Cell.mapInst_inst, hnone]
      exact .of_none (h.since.positive.set Int.one_pos)
  | attempt now =>
      have hnone := hpin (.inr rfl)
      have hpinned : IdleKept C held base (c.mapInst fun inst =>
          { inst with
            restartTimes := inst.restartTimes ++ [now]
            restartExhausted := false
            holds := inst.holds.set "recovery" 1 }) := by
        refine ⟨?_, h.stored, h.cuts, h.grown, h.marks⟩
        simp only [Cell.mapInst_inst, hnone]
        exact .of_none (h.since.positive.set Int.one_pos)
      exact hpinned.note rfl fun hdeadline => absurd hnone hdeadline
  | schedule deadline hdeadline hidle =>
      refine (h.afterClock C).saved_of rfl ⟨h.since.positive, fun deadline' hd => ?_⟩
      cases hd
      refine ⟨noHolds_of_activeHolds h.since.positive hidle, [], _, c.log, rfl, ?_,
        fun _ heffect => (List.not_mem_nil heffect).elim, fun n hn => (h.marks n hn).trans h.grown⟩
      rw [instant_of_addSeconds hdeadline, Context.idleMicros]
      omega
  | _ => exact h.same rfl rfl rfl

end IdleKept

end UltimateBBSBox.Supervisor

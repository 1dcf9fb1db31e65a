import UltimateBBSBox.Router.Steps

/-!
# The holds of the router's sessions

A session has a hold from the moment the supervisor returned a lifecycle
session until it is given back.  `HoldsAccounted` says that the supervisor holds
exactly what the router's sessions have, that a session which has ended has
nothing, and that every hold is given back once.  One lemma for each way a move
touches holds, one for the steps (`HoldsAccounted.of_step`), one for the runs.

Giving a hold back can raise although the supervisor has let the session go: the
idle deadline need not be a datetime.  The router then takes the hold for its
own for ever (`holds_lost_when_release_raises`).
-/

namespace UltimateBBSBox.Router

open Act

variable {σ : Type}

/-! ## Holds -/

/-- A session's hold: the service, the lifecycle session, and whether it has been
given back. -/
def Session.hold (current : Session) : Option (String × String × Bool) :=
  current.lifecycleSessionId.map fun lifecycleId =>
    (current.targetService, lifecycleId, current.holdReleased)

/-- The hold of the session with that id. -/
def State.hold (s : State σ) (id : String) : Option (String × String × Bool) :=
  (s.sessions.get? id).bind Session.hold

/-- A session that comes up has no hold yet, one that is up has its hold, and one
that has ended has given it back. -/
def Session.Coherent (current : Session) : Prop :=
  match current.state with
  | .created | .authorizing | .acquiring => current.lifecycleSessionId = none
  | .connecting | .active | .handingOff =>
      current.lifecycleSessionId ≠ none ∧ current.holdReleased = false
  | .closing | .closed | .failed =>
      current.lifecycleSessionId ≠ none → current.holdReleased = true

/-- The supervisor and the router's sessions agree about the holds. -/
structure HoldsAccounted (R : Setup σ) (s : State σ) : Prop where
  coherent : ∀ id current, s.sessions.get? id = some current → current.Coherent
  known : ∀ id serviceId lifecycleId given, s.hold id = some (serviceId, lifecycleId, given) →
    R.site.registry.find? serviceId ≠ none
  acquired : ∀ serviceId lifecycleId, (serviceId, lifecycleId) ∈ s.acquired ↔
    ∃ id given, s.hold id = some (serviceId, lifecycleId, given)
  distinct : ∀ id id' serviceId serviceId' lifecycleId given given',
    s.hold id = some (serviceId, lifecycleId, given) →
    s.hold id' = some (serviceId', lifecycleId, given') → id = id'
  held : ∀ id serviceId lifecycleId given, s.hold id = some (serviceId, lifecycleId, given) →
    (s.held serviceId lifecycleId ≠ none ↔ given = false)
  released : ∀ id serviceId lifecycleId given, s.hold id = some (serviceId, lifecycleId, given) →
    s.releases.count (serviceId, lifecycleId) = if given = true then 1 else 0
  releases : ∀ call ∈ s.releases, call ∈ s.acquired

theorem hold_of_get? {s : State σ} {id : String} {current : Session}
    (hget : s.sessions.get? id = some current) : s.hold id = current.hold := by
  rw [State.hold, hget, Option.bind_some]

theorem hold_of_set {s s' : State σ} {key : String} {new : Session}
    (hset : s'.sessions = s.sessions.set key new) (id : String) :
    s'.hold id = if id = key then new.hold else s.hold id := by
  unfold State.hold
  rw [hset, Dict.get?_set]
  split <;> rfl

theorem Session.hold_cleaned {current : Session} {serviceId lifecycleId : String}
    (h : current.hold = some (serviceId, lifecycleId, false)) :
    current.cleaned.hold = some (serviceId, lifecycleId, true) := by
  cases hlifecycle : current.lifecycleSessionId with
  | none => simp [Session.hold, hlifecycle] at h
  | some lifecycleId' =>
      simp only [Session.hold, hlifecycle, Option.map_some, Option.some.injEq,
        Prod.mk.injEq] at h
      simp [Session.hold, Session.cleaned, hlifecycle, h.1, h.2.1]

theorem Session.hold_ended (current : Session) (state : SessionState) (reason : String) :
    (current.ended state reason).hold = current.hold := rfl

/-- A session that has given its hold back may end. -/
theorem Session.coherent_ended {current : Session} {state : SessionState} {reason : String}
    (hstate : state ∈ [SessionState.closed, .failed]) :
    (current.cleaned.ended state reason).Coherent := by
  have hreleased : current.lifecycleSessionId ≠ none → current.cleaned.holdReleased = true :=
    fun h => by simp [Session.cleaned, Option.isSome_iff_ne_none.mpr h]
  simp only [List.mem_cons, List.not_mem_nil, or_false] at hstate
  rcases hstate with rfl | rfl <;> exact hreleased

namespace HoldsAccounted

variable {R : Setup σ} {answers : Answers σ} {s s' : State σ}

/-! ## What moves do to holds -/

/-- Only the holds, and what was called, count. -/
theorem of_same (h : HoldsAccounted R s)
    (hcoherent : ∀ id current, s'.sessions.get? id = some current → current.Coherent)
    (hhold : ∀ id, s'.hold id = s.hold id)
    (hheld : ∀ serviceId lifecycleId, (serviceId, lifecycleId) ∈ s.acquired →
      (s'.held serviceId lifecycleId ≠ none ↔ s.held serviceId lifecycleId ≠ none))
    (hreleases : s'.releases = s.releases) (hacquired : s'.acquired = s.acquired) :
    HoldsAccounted R s' where
  coherent := hcoherent
  known id serviceId lifecycleId given h' := h.known id _ _ _ (hhold id ▸ h')
  acquired serviceId lifecycleId := by simp only [hacquired, hhold, h.acquired]
  distinct id id' _ _ _ _ _ h₁ h₂ := h.distinct id id' _ _ _ _ _ (hhold id ▸ h₁) (hhold id' ▸ h₂)
  held id serviceId lifecycleId given h' := by
    rw [hhold] at h'
    rw [hheld _ _ ((h.acquired _ _).mpr ⟨_, _, h'⟩)]
    exact h.held id _ _ _ h'
  released id serviceId lifecycleId given h' := by
    rw [hreleases]
    exact h.released id _ _ _ (hhold id ▸ h')
  releases call hcall := by
    rw [hacquired]
    exact h.releases call (hreleases ▸ hcall)

/-- A session changes and keeps its hold, or has none. -/
theorem of_set (h : HoldsAccounted R s) {key : String} {new : Session}
    (hset : s'.sessions = s.sessions.set key new) (hhold : new.hold = s.hold key)
    (hcoherent : new.Coherent)
    (hheld : ∀ serviceId lifecycleId, s'.held serviceId lifecycleId = s.held serviceId lifecycleId)
    (hreleases : s'.releases = s.releases) (hacquired : s'.acquired = s.acquired) :
    HoldsAccounted R s' := by
  refine h.of_same (fun id current hget => ?_) (fun id => ?_) (fun _ _ _ => by rw [hheld])
    hreleases hacquired
  · rw [hset, Dict.get?_set] at hget
    split at hget
    · cases hget
      exact hcoherent
    · exact h.coherent id current hget
  · rw [hold_of_set hset]
    split
    · rename_i heq
      rw [heq, hhold]
    · rfl

/-- A session without a hold gets one that nobody had. -/
theorem of_acquired (h : HoldsAccounted R s) {key serviceId lifecycleId : String} {new : Session}
    {timestamp : DateTime} (hset : s'.sessions = s.sessions.set key new)
    (hhold : new.hold = some (serviceId, lifecycleId, false)) (hnone : s.hold key = none)
    (hcoherent : new.Coherent) (hknown : R.site.registry.find? serviceId ≠ none)
    (hfresh : lifecycleId ∉ s.acquired.map Prod.snd)
    (hheld : s.HeldExcept s' serviceId lifecycleId (some timestamp))
    (hreleases : s'.releases = s.releases)
    (hacquired : s'.acquired = (serviceId, lifecycleId) :: s.acquired) : HoldsAccounted R s' := by
  have hnew : ∀ id, s'.hold id = if id = key then some (serviceId, lifecycleId, false)
      else s.hold id := fun id => by rw [hold_of_set hset, hhold]
  -- no session had this lifecycle session
  have hunused : ∀ id serviceId' given, s.hold id ≠ some (serviceId', lifecycleId, given) :=
    fun id serviceId' given h' => hfresh <| List.mem_map_of_mem (f := Prod.snd)
      ((h.acquired serviceId' lifecycleId).mpr ⟨id, given, h'⟩)
  refine ⟨fun id current hget => ?_, fun id serviceId' lifecycleId' given h' => ?_,
    fun serviceId' lifecycleId' => ?_, fun id id' _ _ _ _ _ h₁ h₂ => ?_,
    fun id serviceId' lifecycleId' given h' => ?_, fun id serviceId' lifecycleId' given h' => ?_,
    fun call hcall => ?_⟩
  · rw [hset, Dict.get?_set] at hget
    split at hget
    · cases hget
      exact hcoherent
    · exact h.coherent id current hget
  · rw [hnew] at h'
    split at h'
    · cases h'
      exact hknown
    · exact h.known id _ _ _ h'
  · rw [hacquired, List.mem_cons, h.acquired]
    constructor
    · rintro (heq | ⟨id, given, h'⟩)
      · cases heq
        exact ⟨key, false, by rw [hnew, if_pos rfl]⟩
      · refine ⟨id, given, ?_⟩
        rw [hnew, if_neg fun heq => ?_]
        · exact h'
        · rw [heq, hnone] at h'
          cases h'
    · rintro ⟨id, given, h'⟩
      rw [hnew] at h'
      split at h'
      · cases h'
        exact .inl rfl
      · exact .inr ⟨id, given, h'⟩
  · rw [hnew] at h₁ h₂
    split at h₁ <;> split at h₂
    · rename_i hid hid'
      rw [hid, hid']
    · cases h₁
      exact absurd h₂ (hunused _ _ _)
    · cases h₂
      exact absurd h₁ (hunused _ _ _)
    · exact h.distinct _ _ _ _ _ _ _ h₁ h₂
  · rw [hnew] at h'
    rw [hheld]
    split at h'
    · cases h'
      simp
    · rw [if_neg fun heq => hunused _ _ _ (heq.2 ▸ h')]
      exact h.held id _ _ _ h'
  · rw [hnew] at h'
    rw [hreleases]
    split at h'
    · cases h'
      refine List.count_eq_zero.mpr fun hmem => hfresh ?_
      exact List.mem_map_of_mem (f := Prod.snd) (h.releases _ hmem)
    · exact h.released id _ _ _ h'
  · rw [hacquired]
    exact List.mem_cons_of_mem _ (h.releases call (hreleases ▸ hcall))

/-- A session gives its hold back. -/
theorem of_released (h : HoldsAccounted R s) {key serviceId lifecycleId : String} {new : Session}
    (hset : s'.sessions = s.sessions.set key new)
    (hold : s.hold key = some (serviceId, lifecycleId, false))
    (hhold : new.hold = some (serviceId, lifecycleId, true)) (hcoherent : new.Coherent)
    (hheld : s.HeldExcept s' serviceId lifecycleId none)
    (hreleases : s'.releases = (serviceId, lifecycleId) :: s.releases)
    (hacquired : s'.acquired = s.acquired) : HoldsAccounted R s' := by
  have hnew : ∀ id, s'.hold id = if id = key then some (serviceId, lifecycleId, true)
      else s.hold id := fun id => by rw [hold_of_set hset, hhold]
  -- only this session has this lifecycle session
  have hother : ∀ {id serviceId' given}, id ≠ key →
      s.hold id ≠ some (serviceId', lifecycleId, given) := fun hne h' =>
    hne (h.distinct _ _ _ _ _ _ _ h' hold)
  refine ⟨fun id current hget => ?_, fun id serviceId' lifecycleId' given h' => ?_,
    fun serviceId' lifecycleId' => ?_, fun id id' _ _ _ _ _ h₁ h₂ => ?_,
    fun id serviceId' lifecycleId' given h' => ?_, fun id serviceId' lifecycleId' given h' => ?_,
    fun call hcall => ?_⟩
  · rw [hset, Dict.get?_set] at hget
    split at hget
    · cases hget
      exact hcoherent
    · exact h.coherent id current hget
  · rw [hnew] at h'
    split at h'
    · cases h'
      exact h.known key _ _ _ hold
    · exact h.known id _ _ _ h'
  · rw [hacquired, h.acquired]
    constructor
    · rintro ⟨id, given, h'⟩
      by_cases hid : id = key
      · rw [hid, hold] at h'
        cases h'
        exact ⟨key, true, by rw [hnew, if_pos rfl]⟩
      · exact ⟨id, given, by rw [hnew, if_neg hid, h']⟩
    · rintro ⟨id, given, h'⟩
      rw [hnew] at h'
      split at h'
      · cases h'
        exact ⟨key, false, hold⟩
      · exact ⟨id, given, h'⟩
  · rw [hnew] at h₁ h₂
    split at h₁ <;> split at h₂
    · rename_i hid hid'
      rw [hid, hid']
    · rename_i hid hid'
      cases h₁
      exact absurd h₂ (hother hid')
    · rename_i hid hid'
      cases h₂
      exact absurd h₁ (hother hid)
    · exact h.distinct _ _ _ _ _ _ _ h₁ h₂
  · rw [hnew] at h'
    rw [hheld]
    split at h'
    · cases h'
      simp
    · rename_i hid
      rw [if_neg fun heq => hother hid (heq.2 ▸ h')]
      exact h.held id _ _ _ h'
  · rw [hnew] at h'
    rw [hreleases]
    split at h'
    · cases h'
      rw [List.count_cons_self, h.released key _ _ _ hold]
      rfl
    · rename_i hid
      have hne : (serviceId, lifecycleId) ≠ (serviceId', lifecycleId') := fun heq =>
        hother hid ((Prod.mk.injEq .. ▸ heq).2 ▸ h')
      rw [List.count_cons_of_ne hne]
      exact h.released id _ _ _ h'
  · rw [hacquired]
    rcases List.mem_cons.mp (hreleases ▸ hcall) with rfl | hcall
    · exact (h.acquired _ _).mpr ⟨key, false, hold⟩
    · exact h.releases call hcall

/-- A session ends; what it had is given back. -/
theorem of_cleaned (h : HoldsAccounted R s) {key reason : String} {current : Session}
    {state : SessionState} (hget : s.sessions.get? key = some current)
    (hset : s'.sessions = s.sessions.set key (current.cleaned.ended state reason))
    (hstate : state ∈ [SessionState.closed, .failed]) (hcleaned : Cleaned R answers s s' current true)
    (hacquired : s'.acquired = s.acquired) : HoldsAccounted R s' := by
  have hcoherent : (current.cleaned.ended state reason).Coherent := Session.coherent_ended hstate
  cases hcleaned with
  | nothing hdone hsupervisor hreleases =>
      refine h.of_set hset ?_ hcoherent (fun _ _ => by rw [State.held, hsupervisor]; rfl) hreleases
        hacquired
      rw [hold_of_get? hget, Session.hold_ended, Session.cleaned_eq_self hdone]
  | @released lifecycleId hlifecycle hdone _ hheld hreleases =>
      have hhold : current.hold = some (current.targetService, lifecycleId, false) := by
        rw [Session.hold, hlifecycle, Option.map_some, hdone]
      exact h.of_released hset (hold_of_get? hget ▸ hhold) (Session.hold_cleaned hhold) hcoherent
        hheld hreleases hacquired

/-- Giving the hold back does not raise, if the idle deadline fits. -/
theorem not_cleaned_false (h : HoldsAccounted R s) {key : String} {current : Session}
    (hget : s.sessions.get? key = some current) (hfits : s.ReleaseFits R answers current) :
    ¬ Cleaned R answers s s' current false := by
  intro hcleaned
  cases hcleaned with
  | @unknown lifecycleId hlifecycle hdone hunknown =>
      have hhold : s.hold key = some (current.targetService, lifecycleId, false) := by
        rw [hold_of_get? hget, Session.hold, hlifecycle, Option.map_some, hdone]
      rcases hunknown with hunknown | hunknown
      · exact h.known _ _ _ _ hhold hunknown
      · exact (h.held _ _ _ _ hhold).mpr rfl hunknown
  | unfit _ _ _ hunfit => exact hunfit hfits

/-! ## Moves -/

theorem held_of_quiet (hquiet : s.Quiet s') (serviceId lifecycleId : String) :
    s'.held serviceId lifecycleId = s.held serviceId lifecycleId := by
  rw [State.held, hquiet.1]
  rfl

/-- A move that leaves the outside alone and changes a session without its hold. -/
theorem of_quiet (h : HoldsAccounted R s) {key : String} {new : Session}
    (hset : s'.sessions = s.sessions.set key new) (hhold : new.hold = s.hold key)
    (hcoherent : new.Coherent) (hquiet : s.Quiet s') : HoldsAccounted R s' :=
  h.of_set hset hhold hcoherent (held_of_quiet hquiet) hquiet.2.1 (congrArg Prod.fst hquiet.2.2)

/-- Open sessions have their hold, whichever of the two states they are in. -/
theorem coherent_of_open (h : HoldsAccounted R s) {key : String} {current : Session}
    {state : SessionState} (hget : s.sessions.get? key = some current) (hopen : current.state.Open)
    (hstate : state.Open) : ({ current with state := state } : Session).Coherent := by
  have hcoherent := h.coherent key current hget
  simp only [SessionState.Open, List.mem_cons, List.not_mem_nil, or_false] at hopen hstate
  unfold Session.Coherent at hcoherent ⊢
  rcases hopen with hopen | hopen <;> rcases hstate with rfl | rfl <;>
    simpa only [hopen] using hcoherent

end HoldsAccounted

/-- The session whose hold the section gives back, if it gives one back. -/
def Task.releasing? (R : Setup σ) (answers : Answers σ) (s : State σ) (task : Task) :
    Option Session :=
  match task with
  | .connect o =>
      (s.sessions.get? o.sessionId).filter fun current => ¬ Connects R answers current
  | task =>
      (task.closing? answers).bind fun closing =>
        (s.sessions.get? closing.1).filter fun current => current.holdReleased = false

theorem releasing?_of_closing {R : Setup σ} {answers : Answers σ} {s : State σ} {task : Task}
    {closing : String × String × Option Exn} (h : task.closing? answers = some closing) :
    task.releasing? R answers s =
      (s.sessions.get? closing.1).filter fun current => current.holdReleased = false := by
  cases task with
  | connect => cases h
  | _ => rw [Task.releasing?, h, Option.bind_some]; simp

/-- Every move keeps the accounts, if the holds it gives back fit. -/
theorem HoldsAccounted.of_moves {R : Setup σ} {answers : Answers σ} {s s' : State σ} {task : Task}
    {next : List Task} (h : HoldsAccounted R s) (hmoves : Moves R answers s task next s')
    (hfresh : task.Fresh answers s)
    (hfits : ∀ current ∈ task.releasing? R answers s, s.ReleaseFits R answers current) :
    HoldsAccounted R s' := by
  have hactive : SessionState.active.Open := by simp [SessionState.Open]
  have hhandingOff : SessionState.handingOff.Open := by simp [SessionState.Open]
  have hnone : ∀ {key : String} {current : Session}, s.sessions.get? key = some current →
      current.lifecycleSessionId = none → s.hold key = none := fun hget hlifecycle => by
    rw [hold_of_get? hget, Session.hold, hlifecycle, Option.map_none]
  cases hmoves with
  | registered hunknown hset hquiet =>
      refine h.of_quiet hset ?_ rfl hquiet
      rw [State.hold, hunknown]
      rfl
  | @handedOff parentId _ childId _ parent _ _ o _ hparent hstate hunknown ho hset hquiet =>
      -- the parent's step, then the child's
      have hfirst : HoldsAccounted R
          { s with sessions := s.sessions.set parentId { parent with state := .handingOff } } :=
        h.of_set rfl (hold_of_get? hparent).symm
          (h.coherent_of_open hparent (hstate ▸ hactive) hhandingOff) (fun _ _ => rfl) rfl rfl
      refine hfirst.of_quiet hset ?_ rfl hquiet
      have hne : childId ≠ parentId := fun heq => by simp [heq, hparent] at hunknown
      rw [State.hold, Dict.get?_set_ne _ _ hne, hunknown, ho]
      rfl
  | rejected hparent hstate hset hquiet =>
      exact h.of_quiet hset (hold_of_get? hparent).symm
        (h.coherent_of_open hparent (hstate ▸ hactive) hhandingOff) hquiet
  | authorized hget _ _ hset hquiet => exact h.of_quiet hset (hnone hget rfl).symm rfl hquiet
  | denied hget hset hquiet =>
      exact h.of_quiet hset (hnone hget rfl).symm (fun hsome => absurd rfl hsome) hquiet
  | acquired hget hservice hset hheld hreleases hacquired =>
      exact h.of_acquired hset rfl (hnone hget rfl) ⟨by simp [Opening.connecting], rfl⟩ hservice
        hfresh.2 hheld hreleases hacquired
  | notAcquired hget hset hheld hreleases hacquired =>
      exact h.of_set hset (hnone hget rfl).symm (fun hsome => absurd rfl hsome) hheld hreleases
        hacquired
  | connected _ hget hset hsupervisor hreleases hacquired =>
      exact h.of_set hset (hold_of_get? hget).symm ⟨by simp [Opening.connecting], rfl⟩
        (fun _ _ => by rw [State.held, hsupervisor]; rfl) hreleases hacquired
  | notConnected hget _ hset hcleaned hacquired =>
      exact h.of_cleaned hget hset (by simp) hcleaned hacquired
  | stuck hget hraised _ hcleaned =>
      refine absurd hcleaned (h.not_cleaned_false hget (hfits _ ?_))
      simp [Task.releasing?, hget, hraised]
  | returned _ hparent hstate hset hquiet =>
      exact h.of_quiet hset (hold_of_get? hparent).symm
        (h.coherent_of_open hparent (hstate ▸ hhandingOff) hactive) hquiet
  | closed _ _ hget _ hset hcleaned houtgoing =>
      exact h.of_cleaned hget hset (by simp) hcleaned (congrArg Prod.fst houtgoing)
  | @closeFailed task sessionId reason exc current _ released _ _ hclosing hget _ hcurrent _ hset
      hcleaned houtgoing =>
      cases released with
      | true =>
          rw [if_pos rfl] at hcurrent
          exact h.of_cleaned hget (hcurrent ▸ hset) (by simp) hcleaned
            (congrArg Prod.fst houtgoing)
      | false =>
          have hdone : current.holdReleased = false := by
            cases hcleaned <;> assumption
          refine absurd hcleaned (h.not_cleaned_false hget (hfits _ ?_))
          simp [releasing?_of_closing hclosing, hget, hdone]
  | idle _ _ _ _ hset hquiet =>
      exact h.of_same (fun id current hget => h.coherent id current (hset ▸ hget))
        (fun id => by rw [State.hold, hset]; rfl)
        (fun _ _ _ => by rw [held_of_quiet hquiet]) hquiet.2.1 (congrArg Prod.fst hquiet.2.2)

/-! ## Runs -/

namespace World

variable (R : Setup σ) (w : World σ) (l : Label σ)

/-- Nobody else takes a session of the router from the supervisor. -/
def Undisturbed : Prop :=
  match l.action, w.step R l with
  | .supervisor _ _, some (_, w') => ∀ hold ∈ w.state.acquired,
      w.state.held hold.1 hold.2 ≠ none → w'.state.held hold.1 hold.2 ≠ none
  | _, _ => True

instance : Decidable (w.Undisturbed R l) :=
  show Decidable
    (match l.action, w.step R l with
      | .supervisor _ _, some (_, w') => ∀ hold ∈ w.state.acquired,
          w.state.held hold.1 hold.2 ≠ none → w'.state.held hold.1 hold.2 ≠ none
      | _, _ => True) from
  match l.action, w.step R l with
  | .supervisor _ _, some (_, w') =>
      inferInstanceAs (Decidable (∀ hold ∈ w.state.acquired,
        w.state.held hold.1 hold.2 ≠ none → w'.state.held hold.1 hold.2 ≠ none))
  | .supervisor _ _, none | .call _, _ | .resume _, _ => instDecidableTrue

/-- The idle deadline that giving a hold back sets, if the step gives one back and
sets one, is a datetime. -/
def ReleasesFit : Prop :=
  ∀ task ∈ taskOf l, ∀ current ∈ task.releasing? R l.answers w.state,
    w.state.ReleaseFits R l.answers current

instance : Decidable (w.ReleasesFit R l) := by
  unfold ReleasesFit State.ReleaseFits
  infer_instance

end World

/-- Step lemma: every step keeps the accounts. -/
theorem HoldsAccounted.of_step {R : Setup σ} {w w' : World σ} {l : Label σ} {r : Except Exn Unit}
    (h : HoldsAccounted R w.state) (hfresh : w.Fresh l) (hother : w.Undisturbed R l)
    (hfits : w.ReleasesFit R l) (hstep : w.step R l = some (r, w'))
    (hsteps : World.Steps R l w r w') : HoldsAccounted R w'.state := by
  cases hsteps with
  | moved htask hbegun _ hmoves =>
      exact h.of_moves hmoves (World.fresh_of_taskOf hfresh htask hbegun) (hfits _ htask)
  | @supervised serviceId label service result _ world haction hservice hstep' =>
      refine h.of_same h.coherent (fun _ => rfl) (fun serviceId' lifecycleId hmem => ?_) rfl rfl
      unfold World.Undisturbed at hother
      rw [haction, hstep] at hother
      refine ⟨fun hheld' hnone => hheld' ?_, hother _ hmem⟩
      -- the supervisor does not make up sessions
      unfold World.Fresh at hfresh
      rw [haction] at hfresh
      by_cases hid : serviceId' = serviceId
      · subst hid
        have hkept : world.cell.inst.sessions.get? lifecycleId = none :=
          Supervisor.get?_sessions_none_of_step hstep' hfresh.1 (fun hop => by
            have hnew := hfresh.2
            rw [hop] at hnew
            exact hnew (List.mem_map_of_mem (f := Prod.snd) hmem)) hnone
        simpa [State.held] using hkept
      · simpa [State.held, Function.update_of_ne hid] using hnone

theorem holdsAccounted_initial {R : Setup σ} {supervisor : String → Supervisor.World σ} :
    HoldsAccounted R (World.initial supervisor).state := by
  have hnone : ∀ id, (World.initial supervisor).state.hold id = none := fun _ => rfl
  have hacquired : (World.initial supervisor).state.acquired = [] := rfl
  have hreleases : (World.initial supervisor).state.releases = [] := rfl
  exact ⟨by simp [World.initial], by simp [hnone], by simp [hnone, hacquired], by simp [hnone],
    by simp [hnone], by simp [hnone], by simp [hreleases]⟩

/-- What the supervisor holds for the router is what the router's sessions hold;
a session that has ended holds nothing; and no hold is given back twice. -/
def HoldsConserved (s : State σ) : Prop :=
  (∀ serviceId lifecycleId,
    ((serviceId, lifecycleId) ∈ s.acquired ∧ s.held serviceId lifecycleId ≠ none) ↔
      ∃ id current, s.sessions.get? id = some current ∧ current.targetService = serviceId ∧
        current.lifecycleSessionId = some lifecycleId ∧ current.holdReleased = false) ∧
  (∀ id current, s.sessions.get? id = some current →
    (current.state = .closed ∨ current.state = .failed) → current.lifecycleSessionId ≠ none →
      current.holdReleased = true) ∧
  ∀ call, s.releases.count call ≤ 1

theorem HoldsAccounted.conserved {R : Setup σ} {s : State σ} (h : HoldsAccounted R s) :
    HoldsConserved s := by
  refine ⟨fun serviceId lifecycleId => ⟨fun ⟨hacquired, hheld⟩ => ?_, ?_⟩,
    fun id current hget hended => ?_, fun call => ?_⟩
  · obtain ⟨id, given, hhold⟩ := (h.acquired _ _).mp hacquired
    have hgiven : given = false := (h.held _ _ _ _ hhold).mp hheld
    obtain ⟨current, hget, hcurrent⟩ := Option.bind_eq_some_iff.mp hhold
    obtain ⟨lifecycleId', hlifecycle, heq⟩ := Option.map_eq_some_iff.mp hcurrent
    rw [Prod.mk.injEq, Prod.mk.injEq] at heq
    exact ⟨id, current, hget, heq.1, heq.2.1 ▸ hlifecycle, heq.2.2.trans hgiven⟩
  · rintro ⟨id, current, hget, rfl, hlifecycle, hdone⟩
    have hhold : s.hold id = some (current.targetService, lifecycleId, false) := by
      rw [hold_of_get? hget, Session.hold, hlifecycle, Option.map_some, hdone]
    exact ⟨(h.acquired _ _).mpr ⟨id, false, hhold⟩, (h.held _ _ _ _ hhold).mpr rfl⟩
  · have hcoherent := h.coherent id current hget
    unfold Session.Coherent at hcoherent
    rcases hended with hended | hended <;> simpa only [hended] using hcoherent
  · by_cases hcall : call ∈ s.releases
    · obtain ⟨id, given, hhold⟩ := (h.acquired call.1 call.2).mp (h.releases call hcall)
      rw [h.released _ _ _ _ hhold]
      split <;> simp
    · simp [List.count_eq_zero.mpr hcall]

/-- In every run in which nobody else takes the router's sessions away and every
hold that is given back fits, the holds are conserved. -/
theorem holds_conserved {R : Setup σ} {supervisor : String → Supervisor.World σ} {w : World σ}
    (hrun : Machine.Run (World.step R)
      (fun w l => w.Fresh l ∧ w.Undisturbed R l ∧ w.ReleasesFit R l)
      (World.initial supervisor) w) : HoldsConserved w.state := by
  have haccounted : w.WellFormed ∧ HoldsAccounted R w.state := hrun.invariant
    (P := fun w => w.WellFormed ∧ HoldsAccounted R w.state)
    ⟨World.wellFormed_initial, holdsAccounted_initial⟩ fun u l r u' hu hok hstep => by
      have hsteps := World.steps_of_step hu.1 hok.1 hstep
      exact ⟨hsteps.wellFormed hu.1, hu.2.of_step hok.1 hok.2.1 hok.2.2 hstep hsteps⟩
  exact haccounted.2.conserved

/-- A caller comes, and goes when the idle timeout is zero. -/
theorem holds_conserved_after_close :
    ∃ w, Machine.Run (World.step (scripted 0))
        (fun w l => w.Fresh l ∧ w.Undisturbed (scripted 0) l ∧ w.ReleasesFit (scripted 0) l)
        (World.initial scriptedSupervisor) w ∧
      w.state.releases = [("menu", "1")] ∧ HoldsConserved w.state := by
  have hexec : ((Machine.exec (World.step (scripted 0))
      (fun w l => w.Fresh l ∧ w.Undisturbed (scripted 0) l ∧ w.ReleasesFit (scripted 0) l)
      (World.initial scriptedSupervisor) (openMenu "p" "1" ++
        [⟨.call (.closeSession "p" "caller_closed"), scriptedAnswers "2" true true⟩])).map
      fun w => w.state.releases) = some [("menu", "1")] := by decide +kernel
  obtain ⟨w, hw, hreleases⟩ := Option.map_eq_some_iff.mp hexec
  have hrun := Machine.run_of_exec hw
  exact ⟨w, hrun, hreleases, holds_conserved hrun⟩

/-- With an idle timeout beyond every datetime, closing the last session raises
after the supervisor has let it go, and the router never learns of it. -/
theorem holds_lost_when_release_raises :
    ¬ ∀ (R : Setup Supervisor.Script) (supervisor : String → Supervisor.World Supervisor.Script)
        (w : World Supervisor.Script),
      Machine.Run (World.step R) (fun w l => w.Fresh l ∧ w.Undisturbed R l)
        (World.initial supervisor) w → HoldsConserved w.state := by
  intro hall
  have hexec : ((Machine.exec (World.step (scripted (10 ^ 15)))
      (fun w l => w.Fresh l ∧ w.Undisturbed (scripted (10 ^ 15)) l)
      (World.initial scriptedSupervisor) (openMenu "p" "1" ++
        [⟨.call (.closeSession "p" "caller_closed"), scriptedAnswers "2" true true⟩])).map
      fun w => (w.state.sessions.get? "p").map fun current =>
        (current.state, current.lifecycleSessionId, current.holdReleased)) =
      some (some (.failed, some "1", false)) := by decide +kernel
  obtain ⟨w, hw, hobserved⟩ := Option.map_eq_some_iff.mp hexec
  obtain ⟨current, hget, heq⟩ := Option.map_eq_some_iff.mp hobserved
  rw [Prod.mk.injEq, Prod.mk.injEq] at heq
  have hreleased := (hall _ _ w (Machine.run_of_exec hw)).2.1 "p" current hget (.inr heq.1)
    (by rw [heq.2.1]; simp)
  rw [heq.2.2] at hreleased
  cases hreleased

end UltimateBBSBox.Router

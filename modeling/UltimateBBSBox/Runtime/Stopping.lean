import UltimateBBSBox.Runtime.Adapter

/-!
# What a stop leaves behind

A stop that returns should leave no process behind, and one that raises should leave
what a later `status` needs.  A process that the adapter has started is polled and waited
for, and this holds of it.  Of a process that is known by its recorded identity it holds
but for two cases (`Abandoned`): the stop ends at a look that does not prove the identity
while the process runs, or SIGKILL was sent and the process is not gone at once, since
nothing waits for it (`stop_leaves_nothing_iff`).
-/

namespace UltimateBBSBox.Runtime

open Act

variable {s : State} {instanceId : Text} {config : Config} {world : StopWorld}

/-! ## Looking -/

/-- Whether `status` calls the process alive at a look; nothing where it raises. -/
def aliveAt (s : State) (instanceId : Text) (look : Look) : Option Bool :=
  (statusOf s instanceId look).toOption.map Status.alive

/-- What a later `status` needs is kept. -/
def Kept (instanceId : Text) (s s' : State) : Prop :=
  s'.runtime = s.runtime ∧ ∀ look, statusOf s' instanceId look = statusOf s instanceId look

/-- The rounds of the wait that begin before the deadline. -/
def roundsBefore (deadline : WithTop ℚ) (rounds : List Round) : List Round :=
  rounds.takeWhile fun round => (round.clock : WithTop ℚ) < deadline

/-- After SIGTERM the stop returns while the recorded process runs: a look of the wait is the
first that does not prove the identity, or all looks prove it, the wait ends, and SIGKILL
raises nothing. -/
def AbandonedLater (s : State) (instanceId : Text) (config : Config) (world : StopWorld) : Prop :=
  let before := roundsBefore (world.clock + config.timeout) world.rounds
  match before.find? fun round => aliveAt s instanceId round.look ≠ some true with
  | some round => aliveAt s instanceId round.look = some false ∧ round.look.runs = true
  | none => before.length < world.rounds.length ∧ (∃ there, killpg world.kill = .ok there) ∧
      world.last.runs = true

/-- The stop returns while the recorded process runs: it is known by its recorded identity
only, and the first look does not prove the identity, or it does, neither the graceful stop
command nor SIGTERM raises, and the process is abandoned after that. -/
def Abandoned (s : State) (instanceId : Text) (config : Config) (world : StopWorld) : Prop :=
  s.processes.get? instanceId = none ∧
    ((aliveAt s instanceId world.first = some false ∧ world.first.runs = true) ∨
      (aliveAt s instanceId world.first = some true ∧
        gracefulStop config world.graceful = .ok () ∧ (∃ there, killpg world.terminate = .ok there) ∧
        AbandonedLater s instanceId config world))

theorem wlp_status {look : Look} {Q : Status → State → Prop} {X : Exn → State → Prop} :
    wlp (status instanceId look) Q X s ↔
      (∀ current, statusOf s instanceId look = .ok current → Q current (s.seen look)) ∧
        ∀ e, statusOf s instanceId look = .error e → X e (s.seen look) := by
  unfold status
  rw [wlp_bind, wlp_modify, wlp_bind, wlp_get, wlp_ofExcept]
  exact Iff.rfl

/-- The status answers, or it raises. -/
theorem aliveAt_cases (s : State) (instanceId : Text) (look : Look) :
    (∃ current, statusOf s instanceId look = .ok current ∧
        aliveAt s instanceId look = some current.alive) ∨
      ∃ e, statusOf s instanceId look = .error e ∧ aliveAt s instanceId look = none := by
  unfold aliveAt
  cases statusOf s instanceId look with
  | ok current => exact .inl ⟨current, rfl, rfl⟩
  | error e => exact .inr ⟨e, rfl, rfl⟩

theorem kept_look (look : Look) : Kept instanceId s (s.seen look) := ⟨rfl, fun _ => rfl⟩

theorem Kept.trans {s' s'' : State} (h : Kept instanceId s s') (h' : Kept instanceId s' s'') :
    Kept instanceId s s'' := ⟨h'.1.trans h.1, fun look => (h'.2 look).trans (h.2 look)⟩

/-! ## The end of the wait -/

theorem total_status (look : Look) : Total (status instanceId look) :=
  total_bind (total_modify _) fun _ => total_bind total_get fun _ => total_ofExcept _

theorem total_grace {deadline : WithTop ℚ} {rounds : List Round}
    (h : ∃ round ∈ rounds, ¬ (round.clock : WithTop ℚ) < deadline) :
    Total (grace instanceId deadline rounds) := by
  induction rounds with
  | nil => simp at h
  | cons round rest ih =>
      rw [grace]
      refine total_ite (fun hbefore => ?_) fun _ => total_pure _
      have hrest : Total (grace instanceId deadline rest) := by
        apply ih
        obtain ⟨late, hmem, hlate⟩ := h
        rcases List.mem_cons.mp hmem with rfl | hmem
        · exact absurd hbefore hlate
        · exact ⟨late, hmem, hlate⟩
      have hended : ∀ ended : Option StopResult,
          Total (cleanup instanceId >>= fun _ => (pure ended : Act State Exn (Option StopResult))) :=
        fun ended => total_bind (total_modify _) fun _ => total_pure _
      refine total_bind total_get fun s => ?_
      -- a process that was started here is polled, any other is looked up
      split
      · exact total_bind (total_modify _) fun _ => total_ite (fun _ => hrest) fun _ => hended _
      · exact total_bind (total_status _) fun _ => total_ite (fun _ => hrest) fun _ => hended _

/-- A stop comes back once the clock has passed the deadline. -/
theorem total_stop (h : ∃ round ∈ world.rounds,
    ¬ (round.clock : WithTop ℚ) < world.clock + config.timeout) :
    Total (stop instanceId config world) := by
  have hforce : Total (forceStop instanceId world) := by
    refine total_bind (total_ofExcept _) fun _ => total_bind (total_modify _) fun _ => ?_
    refine total_bind total_get fun s => ?_
    split
    · refine total_ite (fun _ => total_throw _) fun _ => ?_
      exact total_bind (total_modify _) fun _ => total_pure _
    · exact total_bind (total_modify _) fun _ => total_pure _
  refine total_bind (total_status _) fun current => total_ite (fun _ => ?_) fun _ => ?_
  · refine total_bind (total_ofExcept _) fun _ => total_bind (total_ofExcept _) fun _ => ?_
    refine total_bind (total_grace h) fun ended => ?_
    cases ended with
    | some result => exact total_pure _
    | none => exact hforce
  · exact total_bind (total_modify _) fun _ => total_pure _

/-! ## A process that was started here -/

section Started

variable {process : Process}

theorem statusOf_of_started (h : s.processes.get? instanceId = some process) (look : Look) :
    statusOf s instanceId look =
      .ok ⟨look.runs, some process.pid, if look.runs then none else some look.exitCode, true, none⟩ := by
  unfold statusOf
  rw [h]

/-- The wait returns a result only when the process has ended. -/
theorem wlp_grace_of_started {deadline : WithTop ℚ} {rounds : List Round}
    (h : s.processes.get? instanceId = some process) :
    wlp (grace instanceId deadline rounds)
      (fun ended s' => match ended with
        | some _ => s'.now.runs = false
        | none => Kept instanceId s s' ∧ s'.processes.get? instanceId = some process)
      (fun _ s' => Kept instanceId s s') s := by
  induction rounds generalizing s with
  | nil => trivial
  | cons round rest ih =>
      rw [grace, wlp_ite]
      refine ⟨fun _ => ?_, fun _ => ⟨⟨rfl, fun _ => rfl⟩, h⟩⟩
      rw [wlp_bind, wlp_get, h]
      dsimp only
      rw [wlp_bind, wlp_modify, wlp_ite]
      -- still running: another round; not running: the wait is over
      constructor
      · intro _
        refine wlp_mono (ih h) (fun ended s' hended => ?_) fun _ s' hkept =>
          (kept_look round.look).trans hkept
        cases ended with
        | some result => exact hended
        | none => exact ⟨(kept_look round.look).trans hended.1, hended.2⟩
      · intro hruns
        exact Bool.eq_false_of_not_eq_true hruns

theorem wlp_forceStop_of_started (h : s.processes.get? instanceId = some process) :
    wlp (forceStop instanceId world) (fun _ s' => s'.now.runs = false)
      (fun _ s' => Kept instanceId s s') s := by
  have hseen : (s.seen world.last).processes.get? instanceId = some process := h
  unfold forceStop
  rw [wlp_bind, wlp_ofExcept]
  refine ⟨fun _ _ => ?_, fun _ _ => ⟨rfl, fun _ => rfl⟩⟩
  rw [wlp_bind, wlp_modify, wlp_bind, wlp_get, hseen]
  dsimp only
  rw [wlp_ite]
  exact ⟨fun _ => kept_look world.last, fun hruns => Bool.eq_false_of_not_eq_true hruns⟩

/-- A process that was started here is not left behind. -/
theorem wlp_stop_of_started (h : s.processes.get? instanceId = some process) :
    wlp (stop instanceId config world) (fun _ s' => s'.now.runs = false)
      (fun _ s' => Kept instanceId s s') s := by
  unfold stop
  rw [wlp_bind, wlp_status, statusOf_of_started h]
  refine ⟨fun current hcurrent => ?_, fun e he => by cases he⟩
  obtain rfl := Except.ok.inj hcurrent
  rw [wlp_ite]
  refine ⟨fun _ => ?_, fun hruns => Bool.eq_false_of_not_eq_true hruns⟩
  have hlook : Kept instanceId s (s.seen world.first) := kept_look world.first
  rw [wlp_bind, wlp_ofExcept]
  refine ⟨fun _ _ => ?_, fun _ _ => hlook⟩
  rw [wlp_bind, wlp_ofExcept]
  refine ⟨fun _ _ => ?_, fun _ _ => hlook⟩
  rw [wlp_bind]
  refine wlp_mono (wlp_grace_of_started h) (fun ended s' hended => ?_) fun _ _ => hlook.trans
  -- either the process has ended in time, or it is killed
  cases ended with
  | some result => exact hended
  | none =>
      obtain ⟨hkept, hprocess⟩ := hended
      exact wlp_mono (wlp_forceStop_of_started hprocess) (fun _ _ => id) fun _ _ =>
        (hlook.trans hkept).trans

end Started

/-! ## A process that is known by its identity -/

section Recovered

variable {Q : Option StopResult → State → Prop} {X : Exn → State → Prop}

/-- One round of the wait. -/
theorem wlp_grace_cons_of_recovered {deadline : WithTop ℚ} {round : Round} {rest : List Round}
    (h : s.processes.get? instanceId = none) (hbefore : (round.clock : WithTop ℚ) < deadline) :
    wlp (grace instanceId deadline (round :: rest)) Q X s ↔
      match statusOf s instanceId round.look with
      | .ok current =>
          if current.alive then wlp (grace instanceId deadline rest) Q X (s.seen round.look)
          else Q (some ⟨true, false, none⟩) (cleaned instanceId (s.seen round.look))
      | .error e => X e (s.seen round.look) := by
  rw [grace, if_pos hbefore, wlp_bind, wlp_get, h]
  dsimp only
  rw [wlp_bind, wlp_status]
  cases statusOf s instanceId round.look with
  | ok current => cases hcase : current.alive <;> simp [hcase, cleanup]
  | error e => simp

/-- The wait ends with a result at the first look that does not prove the identity. -/
theorem wlp_grace_of_recovered {deadline : WithTop ℚ} {rounds : List Round}
    (h : s.processes.get? instanceId = none) (hX : ∀ e look, X e (s.seen look)) :
    wlp (grace instanceId deadline rounds) Q X s ↔
      match (roundsBefore deadline rounds).find? fun round =>
        aliveAt s instanceId round.look ≠ some true with
      | some round => aliveAt s instanceId round.look = some false →
          Q (some ⟨true, false, none⟩) (cleaned instanceId (s.seen round.look))
      | none => (roundsBefore deadline rounds).length < rounds.length →
          Q none (s.seen (((roundsBefore deadline rounds).map Round.look).getLastD s.now)) := by
  induction rounds generalizing s with
  | nil => simp [grace, roundsBefore]
  | cons round rest ih =>
      by_cases hbefore : (round.clock : WithTop ℚ) < deadline
      · have hrounds : roundsBefore deadline (round :: rest) =
            round :: roundsBefore deadline rest := by
          simp [roundsBefore, hbefore]
        rw [wlp_grace_cons_of_recovered h hbefore, hrounds, List.find?_cons]
        rcases aliveAt_cases s instanceId round.look with ⟨current, hcurrent, halive⟩ | ⟨e, he, halive⟩
        · rw [hcurrent]
          cases hcase : current.alive with
          | true =>
              -- the identity is proved: the find goes on with the next round
              rw [hcase] at halive
              simp only [hcase, halive, if_true, ne_eq, not_true_eq_false, decide_false,
                List.map_cons, List.getLastD_cons, List.length_cons, Nat.add_lt_add_iff_right]
              exact ih h hX
          | false =>
              rw [hcase] at halive
              simp [hcase, halive]
        · rw [he]
          simp [hX, halive]
      · have hrounds : roundsBefore deadline (round :: rest) = [] := by
          simp [roundsBefore, hbefore]
        rw [grace, if_neg hbefore, hrounds]
        simp only [List.find?_nil, List.length_nil, List.length_cons, Nat.zero_lt_succ, List.map_nil,
          List.getLastD_nil, true_implies, wlp_pure]
        exact Iff.rfl

/-- SIGKILL is the end of it. -/
theorem wlp_forceStop_of_recovered {Q : StopResult → State → Prop}
    (h : s.processes.get? instanceId = none) :
    wlp (forceStop instanceId world) Q X s ↔
      (∀ there, killpg world.kill = .ok there →
        Q ⟨true, there, none⟩ (cleaned instanceId (s.seen world.last))) ∧
        ∀ e, killpg world.kill = .error e → X e s := by
  have hseen : (s.seen world.last).processes.get? instanceId = none := h
  unfold forceStop
  rw [wlp_bind, wlp_ofExcept]
  apply and_congr_left'
  refine forall₂_congr fun there _ => ?_
  rw [wlp_bind, wlp_modify, wlp_bind, wlp_get, hseen]
  exact Iff.rfl

/-- The wait with what comes after it. -/
theorem wlp_later_iff (h : s.processes.get? instanceId = none) :
    wlp (do
        let ended ← grace instanceId (world.clock + config.timeout) world.rounds
        match ended with
        | some result => return result
        | none => forceStop instanceId world)
      (fun _ s' => s'.now.runs = false) (fun _ s' => Kept instanceId s s') s ↔
      ¬ AbandonedLater s instanceId config world := by
  rw [wlp_bind, wlp_grace_of_recovered h fun _ look => kept_look look]
  unfold AbandonedLater
  dsimp only
  cases (roundsBefore (world.clock + config.timeout) world.rounds).find? fun round =>
      aliveAt s instanceId round.look ≠ some true with
  | some round =>
      rw [not_and, Bool.not_eq_true]
      exact Iff.rfl
  | none =>
      rw [not_and, not_and, Bool.not_eq_true]
      refine imp_congr_right fun _ => ?_
      -- what was seen last before the end of the wait does not matter
      generalize ((roundsBefore (world.clock + config.timeout) world.rounds).map
        Round.look).getLastD s.now = look
      have hseen : (s.seen look).processes.get? instanceId = none := h
      rw [wlp_forceStop_of_recovered hseen]
      constructor
      · rintro ⟨hok, _⟩ ⟨there, hthere⟩
        exact hok there hthere
      · exact fun hruns => ⟨fun there hthere => hruns ⟨there, hthere⟩, fun _ _ => kept_look look⟩

/-- A process that is known by its identity is left behind in the cases of `Abandoned`. -/
theorem wlp_stop_of_recovered_iff (h : s.processes.get? instanceId = none) :
    wlp (stop instanceId config world) (fun _ s' => s'.now.runs = false)
      (fun _ s' => Kept instanceId s s') s ↔ ¬ Abandoned s instanceId config world := by
  unfold stop
  rw [wlp_bind, wlp_status]
  rcases aliveAt_cases s instanceId world.first with ⟨current, hcurrent, halive⟩ | ⟨e, he, halive⟩
  · rw [hcurrent]
    cases hcase : current.alive with
    | false =>
        -- taken for ended: the call returns, whatever runs
        rw [hcase] at halive
        simp [hcase, Abandoned, h, halive, cleanup, cleaned, State.seen]
    | true =>
        rw [hcase] at halive
        have habandoned : Abandoned s instanceId config world ↔
            gracefulStop config world.graceful = .ok () ∧
              (∃ there, killpg world.terminate = .ok there) ∧
                AbandonedLater s instanceId config world := by
          simp [Abandoned, h, halive]
        have hlater := @wlp_later_iff (s.seen world.first) instanceId config world h
        rw [habandoned]
        constructor
        · -- the graceful stop and SIGTERM do not raise here, so the call comes to its wait
          rintro ⟨hok, _⟩ ⟨hgraceful, ⟨there, hterminate⟩, hleft⟩
          have hwlp := hok current rfl
          rw [if_pos hcase, wlp_bind, wlp_ofExcept] at hwlp
          have hwlp := hwlp.1 () hgraceful
          rw [wlp_bind, wlp_ofExcept] at hwlp
          exact hlater.mp (hwlp.1 there hterminate) hleft
        · intro hnot
          refine ⟨fun current' hcurrent' => ?_, fun e he => by cases he⟩
          obtain rfl := Except.ok.inj hcurrent'
          rw [if_pos hcase, wlp_bind, wlp_ofExcept]
          refine ⟨fun _ hgraceful => ?_, fun _ _ => kept_look world.first⟩
          rw [wlp_bind, wlp_ofExcept]
          refine ⟨fun there hterminate => ?_, fun _ _ => kept_look world.first⟩
          exact hlater.mpr fun hleft => hnot ⟨hgraceful, ⟨there, hterminate⟩, hleft⟩
  · have hnot : ¬ Abandoned s instanceId config world := by
      rintro ⟨_, ⟨hfirst, _⟩ | ⟨hfirst, _⟩⟩ <;> rw [halive] at hfirst <;> cases hfirst
    rw [he]
    refine iff_of_true ⟨?_, fun _ _ => kept_look world.first⟩ hnot
    intro _ hok
    cases hok

end Recovered

/-- A stop that returns leaves no process behind, and one that raises keeps what a later
`status` needs, if and only if the process is not abandoned. -/
theorem stop_leaves_nothing_iff :
    wlp (stop instanceId config world) (fun _ s' => s'.now.runs = false)
      (fun _ s' => Kept instanceId s s') s ↔ ¬ Abandoned s instanceId config world := by
  cases hprocess : s.processes.get? instanceId with
  | none => exact wlp_stop_of_recovered_iff hprocess
  | some process =>
      refine iff_of_true (wlp_stop_of_started hprocess) fun habandoned => ?_
      exact absurd (habandoned.1.symm.trans hprocess) (Option.some_ne_none _).symm

/-- A process that runs, and that `/proc` shows as it was recorded. -/
def runningLook : Look := ⟨true, 0, .ok (.of "/usr/bin/fs-uae", .of "4096")⟩

/-- An adapter that has started nothing, and an instance with a recorded process. -/
def recoveredState : State where
  processes := ∅
  ptyMasters := .empty
  terminals := []
  started := 0
  runtime := ⟨some "fs_uae", some 4711, some (.of "/usr/bin/fs-uae"), some (.of "4096")⟩
  now := runningLook

/-- The process ignores SIGTERM for the five seconds, and is not gone when SIGKILL was sent. -/
def slowWorld : StopWorld where
  first := runningLook
  graceful := none
  terminate := none
  clock := 0
  rounds := [⟨0, runningLook⟩, ⟨5, runningLook⟩]
  kill := none
  last := runningLook

/-- Its stop returns while it runs. -/
theorem stop_abandons_recovered :
    ¬ wlp (stop (.of "amiga") ⟨false, none, false, none⟩ slowWorld) (fun _ s' => s'.now.runs = false)
      (fun _ s' => Kept (.of "amiga") recoveredState s') recoveredState := by
  have hbefore : roundsBefore (slowWorld.clock + Config.timeout ⟨false, none, false, none⟩)
      slowWorld.rounds = [⟨0, runningLook⟩] := by
    have hfirst : ((0 : ℚ) : WithTop ℚ) < (0 : ℚ) + 5 := by decide +kernel
    have hsecond : ¬ ((5 : ℚ) : WithTop ℚ) < (0 : ℚ) + 5 := by decide +kernel
    unfold roundsBefore slowWorld Config.timeout
    dsimp only [Option.getD_none]
    rw [List.takeWhile_cons, if_pos (decide_eq_true hfirst), List.takeWhile_cons,
      if_neg fun h => hsecond (of_decide_eq_true h)]
  rw [wlp_stop_of_recovered_iff rfl, not_not]
  refine ⟨rfl, .inr ⟨rfl, rfl, ⟨true, rfl⟩, ?_⟩⟩
  unfold AbandonedLater
  rw [hbefore]
  exact ⟨by decide, ⟨true, rfl⟩, rfl⟩

end UltimateBBSBox.Runtime

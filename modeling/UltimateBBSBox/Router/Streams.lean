import UltimateBBSBox.Library.ByteSource
import UltimateBBSBox.Router.Steps

/-!
# Reading the stream of a session

`MemoryStream` of `transports.py` and `Router.read`.  The router takes an empty
result for the end of the stream and closes the session; the stream answers a
read of size zero with an empty result whatever is still inbound.

`read` takes the sections of the operation one after the other, as one caller
does; `reads` is a sequence of such calls.  The bytes that come back are those
of a reader that drains the chunks (`ByteSource.drain`).
-/

namespace UltimateBBSBox.Router

open Act

variable {σ α : Type}

/-! ## `MemoryStream` -/

/-- `MemoryStream`, as far as it is read; the chunks that come in are not empty. -/
structure MemoryStream where
  incoming : Chunks UInt8
  closed : Bool

namespace MemoryStream

/-- `read`. -/
def read (size : ℕ) (stream : MemoryStream) : List UInt8 × MemoryStream :=
  if stream.closed = true then ([], stream)
  else
    let (data, incoming) := stream.incoming.read size
    (data, { stream with incoming := incoming })

/-- The bytes that are still to be returned. -/
def inbound (stream : MemoryStream) : List UInt8 := Chunks.source.inbound stream.incoming

end MemoryStream

/-! ## `Router.read` -/

/-- A router and the stream of one of its sessions. -/
structure Line (σ : Type) where
  state : State σ
  stream : MemoryStream

/-- A section of the router; when it has called the stream's `close`, the stream is closed. -/
def Line.locked (sessionId : String) (act : Prog σ α) : Act (Line σ) Exn α := fun line =>
  (act.run line.state).map fun result =>
    (result.1,
      { state := result.2
        stream :=
          { line.stream with
            closed := line.stream.closed || Call.closeStream sessionId ∈ result.2.calls } })

/-- `stream.read(size)`. -/
def Line.take (size : ℕ) : Act (Line σ) Exn (List UInt8) := do
  let line ← get
  modify fun line => { line with stream := (line.stream.read size).2 }
  return (line.stream.read size).1

variable (R : Setup σ)

/-- `Router.read`: the session has to be active; a result that is empty closes it. -/
def read (sessionId : String) (answers : Answers σ) (size : ℕ) :
    Act (Line σ) Exn (List UInt8) := do
  Line.locked sessionId (requireActive sessionId)
  let data ← Line.take size
  let answers := { answers with transfer := .bytes data }
  let next ← Line.locked sessionId
    ((Task.awaitTransfer sessionId (.read size)).lockedSection R answers)
  forEach next fun task => do
    let _ ← Line.locked sessionId (task.lockedSection R answers)
  return data

/-- Calls of `read`, one after the other, each with its size and what the outside answers;
an exception does not keep the caller from reading again. -/
def reads (sessionId : String) :
    List (ℕ × Answers σ) → Line σ → Option (List (Except Exn (List UInt8)) × Line σ)
  | [], line => some ([], line)
  | (size, answers) :: rest, line =>
      match (read R sessionId answers size).run line with
      | none => none
      | some (result, line') =>
          (reads sessionId rest line').map fun later => (result :: later.1, later.2)

/-- The bytes that the calls returned. -/
def returned (results : List (Except Exn (List UInt8))) : List UInt8 :=
  (results.filterMap Except.toOption).flatten

/-! ## Sections that come back -/

section Total

variable (answers : Answers σ)

theorem total_session (sessionId : String) : Total (session (σ := σ) sessionId) := by
  refine total_bind total_get fun s => ?_
  cases s.sessions.get? sessionId with
  | none => exact total_throw _
  | some current => exact total_pure _

theorem total_transition (current : Session) (new : SessionState) (eventType : String)
    (reason : Option String) (error : Option Exn) :
    Total (transition (σ := σ) current new eventType reason error) :=
  total_bind (total_ofExcept _) fun _ => total_bind (total_modify _) fun _ =>
    total_bind (total_modify _) fun _ => total_pure _

theorem total_callSupervisor {serviceId : String}
    {act : Supervisor.Context σ → Supervisor.Prog σ α} (hact : ∀ C, Total (act C)) :
    Total (callSupervisor R answers serviceId act) := by
  refine total_bind total_get fun s => ?_
  cases R.site.registry.find? serviceId with
  | none => exact total_bind (total_modify _) fun _ => total_throw _
  | some service =>
      dsimp only
      have hback := hact (R.site.context service) ((s.supervisor service.id).cell.withEnv answers.env)
      unfold ComesBack at hback
      cases hrun : (act (R.site.context service)).run
          ((s.supervisor service.id).cell.withEnv answers.env) with
      | none => exact absurd hrun hback
      | some result => exact total_bind (total_modify _) fun _ => total_ofExcept _

theorem total_releaseHold (current : Session) : Total (releaseHold R answers current) := by
  unfold releaseHold
  cases current.lifecycleSessionId with
  | none => exact total_pure _
  | some lifecycleId =>
      refine total_ite (fun _ => total_pure _) fun _ => ?_
      refine total_bind (total_modify _) fun _ => ?_
      refine total_bind (total_callSupervisor R answers fun _ =>
        Supervisor.total_releaseSession _) fun _ => ?_
      exact total_bind (total_modify _) fun _ => total_pure _

theorem total_closeSession (sessionId reason : String) :
    Total (closeSession R answers sessionId reason) := by
  refine total_bind (total_session _) fun current => ?_
  refine total_ite (fun _ => total_pure _) fun _ => ?_
  refine total_bind (total_transition _ _ _ _ _) fun current => ?_
  refine total_bind (total_ite (fun _ => total_bind (total_modify _) fun _ => total_pure _)
    fun _ => total_pure _) fun closeError => ?_
  refine total_bind (total_tryCatch (total_bind (total_releaseHold R answers current)
    fun _ => total_pure _) fun _ => total_pure _) fun released => ?_
  refine total_bind (total_modify _) fun _ => ?_
  cases closeError.or released.2 with
  | none => exact total_bind (total_transition _ _ _ _ _) fun _ => total_pure _
  | some exc => exact total_bind (total_transition _ _ _ _ _) fun _ => total_throw _

theorem total_restoreParent (childId : String) : Total (restoreParent (σ := σ) childId) := by
  refine total_bind (total_session _) fun child => ?_
  split
  · refine total_bind total_get fun s => ?_
    split
    · exact total_pure _
    · exact total_whenever fun _ => total_bind (total_transition _ _ _ _ _) fun _ => total_pure _
  · exact total_pure _

end Total

/-! ## What closing and restoring leave -/

/-- Every session is kept under its id. -/
def State.Keyed (s : State σ) : Prop :=
  ∀ id current, s.sessions.get? id = some current → current.id = id

/-- The session has been closed, with or without an error, for this reason. -/
def State.Ended (s : State σ) (sessionId reason : String) : Prop :=
  ∃ current, s.sessions.get? sessionId = some current ∧
    current.state ∈ [SessionState.closed, .failed] ∧ current.terminationReason = some reason

section Ending

variable {R} {answers : Answers σ} {s : State σ} {sessionId reason : String}

theorem State.Keyed.set {s' : State σ} (h : s.Keyed) (current : Session)
    (hsessions : s'.sessions = s.sessions.set current.id current) : s'.Keyed := by
  intro id other hget
  rw [hsessions, Dict.get?_set] at hget
  split at hget
  · rename_i hid
    rw [← Option.some.inj hget, hid]
  · exact h id other hget

/-- Closing an open session ends it, and touches no other. -/
theorem closeSession_ends {current : Session} (hkeyed : s.Keyed)
    (hget : s.sessions.get? sessionId = some current) (hopen : current.state.Open)
    (hreason : reason ∈ terminationReasons) :
    wlp (closeSession R answers sessionId reason)
      (fun _ s' => s'.Keyed ∧ s'.Ended sessionId reason)
      (fun _ s' => s'.Keyed ∧ s'.Ended sessionId reason) s := by
  have hid : current.id = sessionId := hkeyed _ _ hget
  have hlast : ∀ (last : Session) (s' : State σ), last.id = sessionId →
      last.state ∈ [SessionState.closed, .failed] → last.terminationReason = some reason →
      s'.sessions = s.sessions.set sessionId last →
      s'.Keyed ∧ s'.Ended sessionId reason := by
    intro last s' hlastId hstate hlastReason hsessions
    refine ⟨hkeyed.set last (by rw [hlastId, hsessions]), last, ?_, hstate, hlastReason⟩
    rw [hsessions, Dict.get?_set_self]
  have hclosing : SessionState.closing ∈ transitions current.state := by
    simp only [SessionState.Open, List.mem_cons, List.not_mem_nil, or_false] at hopen
    rcases hopen with h | h <;> simp [h, transitions]
  have hnot : current.state ∉ [SessionState.closed, .closing] := by
    simp only [SessionState.Open, List.mem_cons, List.not_mem_nil, or_false] at hopen ⊢
    rcases hopen with h | h <;> simp [h]
  refine wlp_bind.mpr <| (wlp_session_of_some hget).mpr ?_
  refine wlp_ite.mpr ⟨fun hdone => absurd hdone hnot, fun _ => ?_⟩
  refine wlp_bind.mpr <| (wlp_transition_of_mem hclosing).mpr ?_
  refine wlp_bind.mpr <| wlp_mono closeStream_spec (fun closeError s₂ h₂ => ?_) fun _ _ h => h.elim
  obtain ⟨-, hsessions₂, -⟩ := h₂
  have hset₂ : ∀ last, s₂.sessions.set sessionId last = s.sessions.set sessionId last := by
    intro last
    rw [hsessions₂]
    change (s.sessions.set current.id _).set sessionId last = _
    rw [hid, Dict.set_set]
  -- releasing the hold leaves a session of the same id, still closing
  refine wlp_bind.mpr <| wlp_mono (Q := fun released s₃ => released.1.id = sessionId ∧
    released.1.state = .closing ∧
    ∀ last, s₃.sessions.set sessionId last = s.sessions.set sessionId last)
    (X := fun _ _ => False) ?_ (fun released s₃ h₃ => ?_) fun _ _ h => h.elim
  · refine wlp_tryCatch.mpr <| wlp_bind.mpr <| wlp_mono releaseHold_spec ?_ ?_
    · rintro released s₃ ⟨hreleased, _, _, hset₃⟩
      refine wlp_pure.mpr ⟨by rw [hreleased]; exact hid, by rw [hreleased]; rfl, fun last => ?_⟩
      have := hset₃ last
      rw [show ({ current with state := .closing } : Session).id = sessionId from hid] at this
      rw [this, hset₂]
    · rintro exc s₃ ⟨_, _, hsessions₃⟩
      exact wlp_pure.mpr ⟨hid, rfl, fun last => by rw [hsessions₃, hset₂]⟩
  · obtain ⟨hreleasedId, hstate, hset₃⟩ := h₃
    refine wlp_bind.mpr <| wlp_put.mpr ?_
    simp only [hreason, if_true]
    have hends : ∀ (state : SessionState) (s' : State σ), state ∈ [SessionState.closed, .failed] →
        s'.sessions = (s₃.sessions.set released.1.id
          { released.1 with terminationReason := some reason }).set released.1.id
          { released.1 with state := state, terminationReason := some reason } →
        s'.Keyed ∧ s'.Ended sessionId reason := by
      intro state s' hend hsessions
      refine hlast { released.1 with state := state, terminationReason := some reason } s'
        hreleasedId hend rfl ?_
      rw [hsessions, Dict.set_set, hreleasedId, hset₃]
    cases closeError.or released.2 with
    | none =>
        refine wlp_bind.mpr <| (wlp_transition_of_mem (by simp [hstate, transitions])).mpr ?_
        exact wlp_pure.mpr <| hends .closed _ (by simp) rfl
    | some exc =>
        refine wlp_bind.mpr <| (wlp_transition_of_mem (by simp [hstate, transitions])).mpr ?_
        exact wlp_throw.mpr <| hends .failed _ (by simp) rfl

/-- An ended session is not what a child returns to. -/
theorem restoreParent_ended {childId : String} (hkeyed : s.Keyed)
    (hended : s.Ended sessionId reason) :
    wlp (restoreParent childId) (fun _ s' => s'.Keyed ∧ s'.Ended sessionId reason)
      (fun _ s' => s'.Keyed ∧ s'.Ended sessionId reason) s := by
  have hsame : s.Keyed ∧ s.Ended sessionId reason := ⟨hkeyed, hended⟩
  refine wlp_bind.mpr <| wlp_session.mpr ⟨fun child _ => ?_, fun _ => hsame⟩
  split
  · rename_i parentId _ _
    refine wlp_bind.mpr <| wlp_get.mpr ?_
    split
    · exact wlp_pure.mpr hsame
    · rename_i parent hparent
      refine wlp_whenever.mpr ⟨fun hstate => ?_, fun _ => hsame⟩
      have hid : parent.id = parentId := hkeyed _ _ hparent
      refine wlp_bind.mpr <| (wlp_transition_of_mem (by simp [hstate, transitions])).mpr <|
        wlp_pure.mpr ⟨hkeyed.set { parent with state := .active } rfl, ?_⟩
      obtain ⟨current, hget, hcurrent, hreason⟩ := hended
      refine ⟨current, ?_, hcurrent, hreason⟩
      change (s.sessions.set parent.id _).get? sessionId = some current
      rw [Dict.get?_set_ne _ _ ?_, hget]
      rw [hid]
      rintro rfl
      rw [hparent, Option.some.injEq] at hget
      rw [← hget, hstate] at hcurrent
      simp at hcurrent
  · exact wlp_pure.mpr hsame

end Ending

/-! ## One call -/

/-- The session is active and its stream is open. -/
structure Line.Serving (line : Line σ) (sessionId : String) : Prop where
  keyed : line.state.Keyed
  active : ∃ current, line.state.sessions.get? sessionId = some current ∧ current.state = .active
  unclosed : Call.closeStream sessionId ∉ line.state.calls
  isOpen : line.stream.closed = false

/-- The session was closed because its stream had come to an end. -/
structure Line.Ended (line : Line σ) (sessionId : String) : Prop where
  keyed : line.state.Keyed
  ended : line.state.Ended sessionId "endpoint_eof"

section Call

variable {R} {answers : Answers σ} {line : Line σ} {sessionId : String} {size : ℕ}

theorem run_requireActive {s : State σ} {current : Session}
    (hget : s.sessions.get? sessionId = some current) (hactive : current.state = .active) :
    (requireActive sessionId).run s = some (.ok (), s) := by
  rw [requireActive, run_bind, session, run_bind, run_get]
  simp only [hget, run_pure]
  rw [whenever_of_not (not_not.mpr hactive), run_pure]

/-- A section under the lock, while the stream's `close` has not been called. -/
theorem run_locked {act : Prog σ α} {result : Except Exn α} {s s' : State σ}
    {stream : MemoryStream} (hrun : act.run s = some (result, s')) :
    (Line.locked sessionId act).run ⟨s, stream⟩ =
      some (result,
        ⟨s', { stream with closed := stream.closed || Call.closeStream sessionId ∈ s'.calls }⟩) := by
  change (act.run s).map _ = _
  rw [hrun]
  rfl

theorem run_locked_of_serving {act : Prog σ α} {result : Except Exn α}
    (hserving : line.Serving sessionId) (hrun : act.run line.state = some (result, line.state)) :
    (Line.locked sessionId act).run line = some (result, line) := by
  obtain ⟨s, stream⟩ := line
  rw [run_locked hrun]
  simp [show Call.closeStream sessionId ∉ s.calls from hserving.unclosed]

theorem read_eq_of_serving (hserving : line.Serving sessionId) (size : ℕ) :
    line.stream.read size =
      ((line.stream.incoming.read size).1,
        { line.stream with incoming := (line.stream.incoming.read size).2 }) := by
  simp [MemoryStream.read, hserving.isOpen]

/-- A read that returns bytes takes them from the stream and does nothing else. -/
theorem run_read_of_ne (hserving : line.Serving sessionId)
    (hdata : (line.stream.incoming.read size).1 ≠ []) :
    (read R sessionId answers size).run line =
      some (.ok (line.stream.incoming.read size).1,
        { line with
          stream := { line.stream with incoming := (line.stream.incoming.read size).2 } }) := by
  obtain ⟨current, hget, hactive⟩ := hserving.active
  have hread := read_eq_of_serving hserving size
  rw [read, run_bind, run_locked_of_serving hserving (run_requireActive hget hactive)]
  simp only [Line.take, run_bind, run_get, run_modify, run_pure, hread]
  have hreason : closingReason (.read size) (.bytes (line.stream.incoming.read size).1) = none := by
    unfold closingReason
    split <;> simp_all
  have hsection : ((Task.awaitTransfer sessionId (.read size)).lockedSection R
      { answers with transfer := .bytes (line.stream.incoming.read size).1 }).run line.state =
      some (.ok [], line.state) := by
    simp only [Task.lockedSection, hreason, transferError, Task.finish]
    rfl
  rw [run_locked hsection]
  simp [hserving.unclosed, forEach, run_pure]

/-- A section under the lock does what it does to the router, and leaves what is inbound. -/
theorem twp_locked {act : Prog σ α} {Q : α → State σ → Prop} {X : Exn → State σ → Prop}
    (h : twp act Q X line.state) :
    twp (Line.locked sessionId act)
      (fun a line' => Q a line'.state ∧ line'.stream.incoming = line.stream.incoming)
      (fun e line' => X e line'.state ∧ line'.stream.incoming = line.stream.incoming) line := by
  obtain ⟨s, stream⟩ := line
  obtain ⟨⟨result, s'⟩, hrun⟩ := Option.ne_none_iff_exists'.mp h.1
  refine ⟨by unfold ComesBack; rw [run_locked hrun]; simp, ?_⟩
  unfold wlp
  rw [run_locked hrun]
  cases result with
  | ok a => exact ⟨wlp_ok h.2 hrun, rfl⟩
  | error e => exact ⟨wlp_error h.2 hrun, rfl⟩

/-- A read that returns nothing ends the session, whether it returns or raises. -/
theorem read_ends (hserving : line.Serving sessionId)
    (hdata : (line.stream.incoming.read size).1 = []) :
    twp (read R sessionId answers size)
      (fun data line' => data = [] ∧ line'.Ended sessionId ∧
        line'.stream.incoming = (line.stream.incoming.read size).2)
      (fun _ line' => line'.Ended sessionId ∧
        line'.stream.incoming = (line.stream.incoming.read size).2) line := by
  obtain ⟨current, hget, hactive⟩ := hserving.active
  have hread := read_eq_of_serving hserving size
  refine twp_bind.mpr ?_
  have hrequire : (Line.locked sessionId (requireActive sessionId)).run line =
      (pure () : Act (Line σ) Exn Unit).run line :=
    run_locked_of_serving hserving (run_requireActive hget hactive)
  refine twp_of_run_eq hrequire (twp_pure.mpr ?_)
  refine twp_bind.mpr <| twp_bind.mpr <| twp_get.mpr <| twp_bind.mpr ?_
  refine (total_modify _).twp <| wlp_modify.mpr <| twp_pure.mpr ?_
  simp only [hread, hdata]
  -- the section that closes the session, and the one that restores its parent
  have hclose : twp ((Task.awaitTransfer sessionId (.read size)).lockedSection R
      { answers with transfer := .bytes [] })
      (fun next s' => (next = [] ∨ next = [.restoreParent sessionId none]) ∧ s'.Keyed ∧
        s'.Ended sessionId "endpoint_eof")
      (fun _ s' => s'.Keyed ∧ s'.Ended sessionId "endpoint_eof") line.state := by
    refine twp_bind.mpr <| twp_mono ((total_closeSession R _ sessionId "endpoint_eof").twp <|
      closeSession_ends hserving.keyed hget (by simp [hactive, SessionState.Open]) (by decide)) ?_
      fun _ _ h => h
    intro restore s' hended
    cases restore with
    | true => exact twp_pure.mpr ⟨.inr rfl, hended⟩
    | false => exact twp_pure.mpr ⟨.inl rfl, hended⟩
  refine twp_bind.mpr <| twp_mono (twp_locked hclose) ?_ ?_
  · rintro next line' ⟨⟨hnext, hkeyed, hended⟩, hincoming⟩
    rcases hnext with rfl | rfl
    · exact twp_bind.mpr <| twp_pure.mpr <| twp_pure.mpr ⟨rfl, ⟨hkeyed, hended⟩, hincoming⟩
    · have hrestore : twp ((Task.restoreParent sessionId none).lockedSection R
          { answers with transfer := .bytes [] })
          (fun _ s' => s'.Keyed ∧ s'.Ended sessionId "endpoint_eof")
          (fun _ s' => s'.Keyed ∧ s'.Ended sessionId "endpoint_eof") line'.state :=
        twp_bind.mpr <| twp_mono ((total_restoreParent sessionId).twp <|
          restoreParent_ended hkeyed hended) (fun _ _ h => twp_pure.mpr h) fun _ _ h => h
      refine twp_bind.mpr <| twp_bind.mpr <| twp_bind.mpr <| twp_mono (twp_locked hrestore) ?_ ?_
      · rintro _ line'' ⟨⟨hkeyed', hended'⟩, hincoming'⟩
        exact twp_pure.mpr <| twp_pure.mpr <| twp_pure.mpr
          ⟨rfl, ⟨hkeyed', hended'⟩, hincoming'.trans hincoming⟩
      · rintro _ line'' ⟨⟨hkeyed', hended'⟩, hincoming'⟩
        exact ⟨⟨hkeyed', hended'⟩, hincoming'.trans hincoming⟩
  · rintro _ line' ⟨⟨hkeyed, hended⟩, hincoming⟩
    exact ⟨⟨hkeyed, hended⟩, hincoming⟩

/-- An ended session refuses to be read. -/
theorem read_refused (hended : line.Ended sessionId) :
    twp (read R sessionId answers size) (fun _ _ => False)
      (fun _ line' => line'.Ended sessionId ∧ line'.stream.incoming = line.stream.incoming)
      line := by
  obtain ⟨current, hget, hstate, hreason⟩ := hended.ended
  have hnot : current.state ≠ .active := by
    intro hactive
    simp [hactive] at hstate
  have hrequire : twp (requireActive sessionId) (fun _ _ => False)
      (fun _ s' => s' = line.state) line.state := by
    have htotal : Total (requireActive (σ := σ) sessionId) :=
      total_bind (total_session _) fun _ => total_whenever fun _ => total_throw _
    refine htotal.twp <| wlp_bind.mpr <| (wlp_session_of_some hget).mpr ?_
    exact wlp_whenever.mpr ⟨fun _ => rfl, fun h => absurd hnot h⟩
  refine twp_bind.mpr <| twp_mono (twp_locked hrequire) (fun _ _ h => h.1.elim) ?_
  intro _ line' ⟨hsame, hincoming⟩
  exact ⟨⟨hsame ▸ hended.keyed, hsame ▸ hended.ended⟩, hincoming⟩

end Call

/-! ## A sequence of calls -/

section Sequence

variable {R} {sessionId : String}

theorem returned_cons (result : Except Exn (List UInt8)) (results : List (Except Exn (List UInt8))) :
    returned (result :: results) = result.toOption.getD [] ++ returned results := by
  cases result with
  | ok data => simp [returned, Except.toOption]
  | error e => rfl

/-- After the end every further call raises. -/
theorem reads_ended (script : List (ℕ × Answers σ)) {line : Line σ}
    (hended : line.Ended sessionId) :
    ∃ results line', reads R sessionId script line = some (results, line') ∧
      returned results = [] ∧ line'.Ended sessionId ∧
      line'.stream.incoming = line.stream.incoming := by
  induction script generalizing line with
  | nil => exact ⟨[], line, rfl, rfl, hended, rfl⟩
  | cons call rest ih =>
      obtain ⟨size, answers⟩ := call
      have hread := @read_refused _ R answers line sessionId size hended
      obtain ⟨⟨result, line₁⟩, hrun⟩ := Option.ne_none_iff_exists'.mp hread.1
      cases result with
      | ok data => exact (wlp_ok hread.2 hrun).elim
      | error e =>
          obtain ⟨hended₁, hincoming₁⟩ := wlp_error hread.2 hrun
          obtain ⟨results, line', hreads, hreturned, hended', hincoming'⟩ := ih hended₁
          refine ⟨.error e :: results, line', ?_, ?_, hended', hincoming'.trans hincoming₁⟩
          · simp [reads, hrun, hreads]
          · rw [returned_cons, hreturned]
            rfl

/-- **Reading a session drains its stream.**  The calls return what a reader of the chunks
gets, and the session ends when that reader takes the stream to have ended. -/
theorem reads_drain (script : List (ℕ × Answers σ)) {line : Line σ}
    (hserving : line.Serving sessionId) :
    ∃ results line', reads R sessionId script line = some (results, line') ∧
      returned results =
        (Chunks.source.drain (script.map Prod.fst) line.stream.incoming).data ∧
      line'.stream.incoming =
        (Chunks.source.drain (script.map Prod.fst) line.stream.incoming).rest ∧
      ((Chunks.source.drain (script.map Prod.fst) line.stream.incoming).ended = true →
        line'.Ended sessionId) ∧
      ((Chunks.source.drain (script.map Prod.fst) line.stream.incoming).ended = false →
        line'.Serving sessionId) := by
  induction script generalizing line with
  | nil =>
      refine ⟨[], line, rfl, rfl, rfl, fun hended => ?_, fun _ => hserving⟩
      cases hended
  | cons call rest ih =>
      obtain ⟨size, answers⟩ := call
      rw [List.map_cons]
      -- the first empty read ends the session, whatever is still inbound
      by_cases hdata : (Chunks.source.read size line.stream.incoming).1 = []
      · rw [Chunks.source.drain_cons_of_empty hdata]
        have hread := @read_ends _ R answers line sessionId size hserving hdata
        obtain ⟨⟨result, line₁⟩, hrun⟩ := Option.ne_none_iff_exists'.mp hread.1
        have hafter : result.toOption.getD [] = [] ∧ line₁.Ended sessionId ∧
            line₁.stream.incoming = (Chunks.source.read size line.stream.incoming).2 := by
          cases result with
          | ok data => exact wlp_ok hread.2 hrun
          | error e => exact ⟨rfl, wlp_error hread.2 hrun⟩
        obtain ⟨hnothing, hended₁, hincoming₁⟩ := hafter
        obtain ⟨results, line', hreads, hreturned, hended', hincoming'⟩ :=
          reads_ended (R := R) rest hended₁
        refine ⟨result :: results, line', by simp [reads, hrun, hreads], ?_,
          hincoming'.trans hincoming₁, fun _ => hended', fun h => by cases h⟩
        rw [returned_cons, hnothing, hreturned, List.append_nil]
      · rw [Chunks.source.drain_cons_of_ne hdata]
        have hrun := @run_read_of_ne _ R answers line sessionId size hserving hdata
        have hserving₁ : Line.Serving { line with
            stream := { line.stream with incoming := (line.stream.incoming.read size).2 } }
            sessionId := ⟨hserving.keyed, hserving.active, hserving.unclosed, hserving.isOpen⟩
        obtain ⟨results, line', hreads, hreturned, hincoming', hends⟩ := ih hserving₁
        refine ⟨.ok (line.stream.incoming.read size).1 :: results, line', ?_, ?_, hincoming', hends⟩
        · simp [reads, hrun, hreads]
        · rw [returned_cons, hreturned]
          rfl

/-- What the caller of a raw stream relies on: the bytes come in the order in which they
came in, and a session that has ended for the end of its stream has returned all of them. -/
def Transparent (R : Setup σ) (sessionId : String) (line : Line σ)
    (script : List (ℕ × Answers σ)) : Prop :=
  ∃ results line', reads R sessionId script line = some (results, line') ∧
    returned results <+: line.stream.inbound ∧
    (line'.state.Ended sessionId "endpoint_eof" →
      returned results = line.stream.inbound ∧ line'.stream.inbound = [])

/-- **Raw streams are transparent** exactly if the first read of size zero, should there be
one, comes after reads that have used up every chunk. -/
theorem raw_stream_transparent_iff (R : Setup σ) (sessionId : String) (line : Line σ)
    (script : List (ℕ × Answers σ)) (hserving : line.Serving sessionId) :
    Transparent R sessionId line script ↔
      ∀ before after, script.map Prod.fst = before ++ 0 :: after → 0 ∉ before →
        Chunks.leftover (line.stream.incoming.pieces.map List.length) before = [] := by
  obtain ⟨results, line', hreads, hreturned, hincoming, hends, hgoesOn⟩ :=
    reads_drain (R := R) script hserving
  rw [← Chunks.asksInTime_iff, ← Chunks.source.drain_sound_iff]
  have hsplit := Chunks.source.drain_split (script.map Prod.fst) line.stream.incoming
  constructor
  · intro ⟨results', line'', hreads', _, hcomplete⟩ hended
    rw [hreads, Option.some.injEq, Prod.mk.injEq] at hreads'
    obtain ⟨rfl, rfl⟩ := hreads'
    have hrest := (hcomplete (hends hended).ended).2
    rwa [MemoryStream.inbound, hincoming] at hrest
  · intro hsound
    refine ⟨results, line', hreads, ⟨_, by rw [hreturned]; exact hsplit⟩, ?_⟩
    intro hended
    have hdrained : (Chunks.source.drain (script.map Prod.fst) line.stream.incoming).ended =
        true := by
      by_contra hopen
      obtain ⟨current, hget, hactive⟩ := (hgoesOn (by simpa using hopen)).active
      obtain ⟨current', hget', hstate, _⟩ := hended
      rw [hget, Option.some.injEq] at hget'
      rw [← hget', hactive] at hstate
      simp at hstate
    have hrest := hsound hdrained
    rw [MemoryStream.inbound, MemoryStream.inbound, hincoming, hreturned]
    refine ⟨?_, hrest⟩
    rw [← hsplit, hrest, List.append_nil]

end Sequence

/-! ## A session of `menu` -/

/-- A stream in which `hi` has come in. -/
def greeting : MemoryStream := ⟨⟨[[104, 105]], by decide⟩, false⟩

/-- A direct session of `menu` is served as soon as it is open. -/
theorem serving_menu :
    ∃ w, Machine.Run (World.step (scripted 0)) World.Fresh (World.initial scriptedSupervisor) w ∧
      Line.Serving ⟨w.state, greeting⟩ "p" := by
  have hexec : ((Machine.exec (World.step (scripted 0)) World.Fresh
      (World.initial scriptedSupervisor) (openMenu "p" "1")).map fun w =>
        ((w.state.sessions.get? "p").map Session.state,
          decide (Call.closeStream "p" ∈ w.state.calls))) =
      some (some .active, false) := by decide +kernel
  obtain ⟨w, hw, hobserved⟩ := Option.map_eq_some_iff.mp hexec
  rw [Prod.mk.injEq] at hobserved
  have hrun := Machine.run_of_exec hw
  have hwell : w.WellFormed := World.wellFormed_of_run World.wellFormed_initial (fun _ _ h => h) hrun
  exact ⟨w, hrun, hwell.keys, Option.map_eq_some_iff.mp hobserved.1,
    of_decide_eq_false hobserved.2, rfl⟩

/-- One byte, the other one and the end. -/
theorem raw_stream_transparent_of_menu :
    ∃ line : Line Supervisor.Script, line.stream = greeting ∧
      Transparent (scripted 0) "p" line
        [(1, scriptedAnswers "" true true), (65536, scriptedAnswers "" true true),
          (65536, scriptedAnswers "" true true)] := by
  obtain ⟨w, _, hserving⟩ := serving_menu
  refine ⟨⟨w.state, greeting⟩, rfl, (raw_stream_transparent_iff _ _ _ _ hserving).mpr ?_⟩
  intro before after hsizes
  have hzero : 0 ∈ before ++ 0 :: after := List.mem_append_right _ List.mem_cons_self
  rw [← hsizes] at hzero
  exact absurd hzero (by decide)

/-- A read of size zero closes the session while both bytes are inbound. -/
theorem raw_stream_closed_by_empty_read :
    ¬ ∀ (R : Setup Supervisor.Script) (sessionId : String) (line : Line Supervisor.Script)
        (script : List (ℕ × Answers Supervisor.Script)), line.Serving sessionId →
        Transparent R sessionId line script := by
  intro hall
  obtain ⟨w, _, hserving⟩ := serving_menu
  have hscript := hall (scripted 0) "p" ⟨w.state, greeting⟩
    [(0, scriptedAnswers "" true true)] hserving
  obtain ⟨results, line', hreads, _, hcomplete⟩ := hscript
  obtain ⟨results', line'', hreads', _, hincoming, hends, _⟩ :=
    reads_drain (R := scripted 0) [(0, scriptedAnswers "" true true)] hserving
  rw [hreads, Option.some.injEq, Prod.mk.injEq] at hreads'
  obtain ⟨rfl, rfl⟩ := hreads'
  have hended : (Chunks.source.drain [0] greeting.incoming).ended = true := by decide
  have hleft : Chunks.source.inbound (Chunks.source.drain [0] greeting.incoming).rest ≠ [] := by
    decide
  have hrest := (hcomplete (hends hended).ended).2
  rw [MemoryStream.inbound, hincoming] at hrest
  exact hleft hrest

end UltimateBBSBox.Router

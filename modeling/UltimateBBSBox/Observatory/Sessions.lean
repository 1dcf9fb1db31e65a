import UltimateBBSBox.Router.Logged

/-!
# The sessions that the observatory shows

`Observatory.sessions` of `collector.py`, over the journal that the router
writes.  It keeps the last event of every session, also of one that has ended,
and reads up to the first line that does not parse.
-/

namespace UltimateBBSBox.Observatory

open Router (Event SessionState World)

deriving instance DecidableEq for Event

/-- A line of `events.jsonl`: an event that is complete, or something else.  An object that no
router wrote and that names a session is not among them. -/
inductive Line
  | event (event : Event)
  /-- An object without a session, such as the empty one: its `session_id` is missing or false. -/
  | noSession
  /-- An object whose `session_id` is an array or an object, and not empty: it is no key. -/
  | unhashable
  /-- `json.loads` raises `JSONDecodeError`, as it does on the part of an event that was torn. -/
  | notJson
  /-- It parses and is not an object, so that it has no `get`. -/
  | notObject
  /-- It is not UTF-8. -/
  | undecodable
deriving DecidableEq

/-- What a journal raises that is not caught. -/
inductive Failure | attributeError | typeError | unicodeDecodeError
deriving DecidableEq

/-- The event of a complete line. -/
def Line.event? : Line → Option Event
  | .event item => some item
  | _ => none

/-- The files in the directory of the router; `none` for one that is missing. -/
structure RouterFiles where
  /-- `sessions.json`, if it parses. -/
  sessions : Option (List Event)
  /-- `events.jsonl`. -/
  events : Option (List Line)

/-- The loop over the lines: the sessions so far, and whether the source is degraded. -/
def readLines : Dict String Event → List Line → Except Failure (Dict String Event × Bool)
  | active, [] => .ok (active, false)
  | active, .event event :: rest =>
      readLines (if event.sessionId ≠ "" then active.set event.sessionId event else active) rest
  | active, .noSession :: rest => readLines active rest
  | _, .unhashable :: _ => .error .typeError
  | _, .notObject :: _ => .error .attributeError
  | active, .notJson :: _ | active, .undecodable :: _ => .ok (active, true)

/-- `Observatory.sessions`, and whether it marks the router as degraded.  The file is decoded
before the first line is looked at. -/
def sessions (router : Option RouterFiles) : Except Failure (List Event × Bool) :=
  match router with
  | none => .ok ([], false)
  | some files =>
      match files.sessions, files.events with
      | some data, _ => .ok (data, false)
      | none, none => .ok ([], false)
      | none, some lines =>
          if Line.undecodable ∈ lines then .error .unicodeDecodeError
          else do
            let (active, degraded) ← readLines ∅ lines
            return (active.values, degraded)

/-! ## What is read -/

/-- The events of the complete lines. -/
def events (lines : List Line) : List Event := lines.filterMap Line.event?

/-- The events up to the first line that ends the loop. -/
def firstEvents : List Line → List Event
  | .event event :: rest => event :: firstEvents rest
  | .noSession :: rest => firstEvents rest
  | _ => []

/-- The first line that ends the loop. -/
def firstBroken : List Line → Option Line
  | [] => none
  | .event _ :: rest | .noSession :: rest => firstBroken rest
  | line :: _ => some line

/-- The last event of every session, sessions with an empty id apart. -/
def remembered (events : List Event) : Dict String Event :=
  Dict.ofList ((events.filter fun event => event.sessionId ≠ "").map fun event =>
    (event.sessionId, event))

section Reading

variable {lines : List Line}

theorem get?_remembered (events : List Event) (id : String) :
    (remembered events).get? id =
      if id = "" then none else events.reverse.find? fun event => event.sessionId = id := by
  rw [remembered, Dict.ofList, Dict.get?_foldl_set, Dict.get?_empty, Option.or_none,
    ← List.map_reverse, List.find?_map, Option.map_map, ← List.filter_reverse, List.find?_filter]
  by_cases hid : id = ""
  · rw [if_pos hid, Option.map_eq_none_iff, List.find?_eq_none]
    intro event _
    simp [hid]
  · rw [if_neg hid]
    have hsame : (fun event : Event => decide (decide (event.sessionId ≠ "") = true ∧
        ((fun entry : String × Event => decide (entry.1 = id)) ∘
          fun event => (event.sessionId, event)) event = true)) =
        fun event => decide (event.sessionId = id) := by
      funext event
      by_cases hevent : event.sessionId = id <;> simp [hevent, hid]
    rw [hsame]
    exact Option.map_id'

theorem sessionId_of_remembered {events : List Event} {id : String} {event : Event}
    (h : (remembered events).get? id = some event) : event.sessionId = id := by
  rw [get?_remembered] at h
  split at h
  · cases h
  · simpa using List.find?_some h

/-- The loop remembers what comes before the line that ends it. -/
theorem readLines_eq (lines : List Line) (active : Dict String Event) :
    readLines active lines =
      match firstBroken lines with
      | some .unhashable => .error .typeError
      | some .notObject => .error .attributeError
      | broken =>
          .ok (((firstEvents lines).filter fun event => event.sessionId ≠ "").foldl
            (fun active event => active.set event.sessionId event) active, broken.isSome) := by
  induction lines generalizing active with
  | nil => rfl
  | cons line rest ih =>
      cases line with
      | event event =>
          rw [readLines, ih, firstBroken, firstEvents]
          by_cases hid : event.sessionId = ""
          · simp [hid]
          · simp [hid]
      | noSession => rw [readLines, ih, firstBroken, firstEvents]
      | _ => rfl

/-- Where no line ends the loop, all that was written is remembered. -/
theorem firstEvents_eq_events (h : firstBroken lines = none) : firstEvents lines = events lines := by
  induction lines with
  | nil => rfl
  | cons line rest ih =>
      cases line with
      | event event =>
          rw [firstEvents, ih h]
          rfl
      | noSession =>
          rw [firstEvents, ih h]
          rfl
      | _ => cases h

/-- All lines are events. -/
def Whole (lines : List Line) : Prop := ∀ line ∈ lines, line.event? ≠ none

theorem firstBroken_of_whole (h : Whole lines) : firstBroken lines = none := by
  induction lines with
  | nil => rfl
  | cons line rest ih =>
      have hrest := ih fun line' hline' => h line' (List.mem_cons_of_mem _ hline')
      cases line with
      | event event => exact hrest
      | _ => exact absurd rfl (h _ List.mem_cons_self)

theorem of_firstBroken {line : Line} (h : firstBroken lines = some line) :
    line ∈ lines ∧ line.event? = none ∧ line ≠ .noSession := by
  induction lines with
  | nil => cases h
  | cons first rest ih =>
      cases first with
      | event event => exact ⟨List.mem_cons_of_mem _ (ih h).1, (ih h).2⟩
      | noSession => exact ⟨List.mem_cons_of_mem _ (ih h).1, (ih h).2⟩
      | _ =>
          cases h
          exact ⟨List.mem_cons_self, rfl, Line.noConfusion⟩

theorem events_append (written : List Event) (rest : List Line) :
    events (written.map Line.event ++ rest) = written ++ events rest := by
  rw [events, List.filterMap_append, List.filterMap_map]
  exact congrArg (· ++ events rest) List.filterMap_some

theorem firstEvents_append (written : List Event) (rest : List Line) :
    firstEvents (written.map Line.event ++ rest) = written ++ firstEvents rest := by
  induction written with
  | nil => rfl
  | cons event written ih => rw [List.map_cons, List.cons_append, firstEvents, ih, List.cons_append]

theorem firstBroken_append (written : List Event) (rest : List Line) :
    firstBroken (written.map Line.event ++ rest) = firstBroken rest := by
  induction written with
  | nil => rfl
  | cons event written ih => rw [List.map_cons, List.cons_append, firstBroken, ih]

/-- **What is shown** of a journal, and when nothing can be. -/
theorem sessions_eq (lines : List Line) :
    sessions (some ⟨none, some lines⟩) =
      if Line.undecodable ∈ lines then .error .unicodeDecodeError
      else
        match firstBroken lines with
        | some .unhashable => .error .typeError
        | some .notObject => .error .attributeError
        | broken => .ok ((remembered (firstEvents lines)).values, broken.isSome) := by
  have hfold : ∀ entries : List Event,
      entries.foldl (fun active event => active.set event.sessionId event) (∅ : Dict String Event) =
        Dict.ofList (entries.map fun event => (event.sessionId, event)) := by
    intro entries
    rw [Dict.ofList, List.foldl_map]
  simp only [sessions, readLines_eq, hfold, remembered]
  split
  · rfl
  · split <;> rfl

/-- A view is shown where the loop ends at no line but one that does not parse. -/
theorem sessions_of_broken (hdecodable : .undecodable ∉ lines)
    (hbroken : ∀ line ∈ firstBroken lines, line = .notJson) :
    sessions (some ⟨none, some lines⟩) =
      .ok ((remembered (firstEvents lines)).values, (firstBroken lines).isSome) := by
  rw [sessions_eq, if_neg hdecodable]
  cases hfirst : firstBroken lines with
  | none => rfl
  | some line =>
      obtain rfl := hbroken line hfirst
      rfl

theorem sessions_eq_ok {view : List Event} {degraded : Bool}
    (h : sessions (some ⟨none, some lines⟩) = .ok (view, degraded)) :
    .undecodable ∉ lines ∧ (∀ line ∈ firstBroken lines, line = .notJson) ∧
      view = (remembered (firstEvents lines)).values := by
  rw [sessions_eq] at h
  split at h
  · cases h
  · rename_i hdecodable
    cases hfirst : firstBroken lines with
    | none =>
        rw [hfirst] at h
        refine ⟨hdecodable, ?_, (Prod.mk.inj (Except.ok.inj h)).1.symm⟩
        intro line hline
        cases hline
    | some line =>
        obtain ⟨hmem, hnone, hsession⟩ := of_firstBroken hfirst
        rw [hfirst] at h
        cases line with
        | event event => cases hnone
        | noSession => exact absurd rfl hsession
        | undecodable => exact absurd hmem hdecodable
        | unhashable => cases h
        | notObject => cases h
        | notJson =>
            refine ⟨hdecodable, fun line hline => (Option.some.inj hline).symm, ?_⟩
            exact (Prod.mk.inj (Except.ok.inj h)).1.symm

end Reading

/-! ## The router's sessions -/

section Agreement

variable {σ : Type}

/-- The session is neither closed nor failed. -/
def Live (w : World σ) (id : String) (state : SessionState) : Prop :=
  state ∉ [SessionState.closed, .failed] ∧
    ∃ current, w.state.sessions.get? id = some current ∧ current.state = state

/-- The view has each live session once, in its state, and no other. -/
structure Lists (view : List Event) (w : World σ) : Prop where
  once : (view.map Event.sessionId).Nodup
  states : ∀ id state,
    (∃ event ∈ view, event.sessionId = id ∧ event.newState = some state) ↔ Live w id state

/-- The lines of a journal: all of its events, or, where there are broken lines, perhaps not
all of them. -/
structure WrittenBy (lines : List Line) (w : World σ) : Prop where
  sublist : (events lines).Sublist w.state.journal.reverse
  complete : Whole lines → events lines = w.state.journal.reverse

/-- What the observatory is to show: the live sessions and, where there are broken lines, at
least those of them that a complete line is about. -/
def AgreesWith (lines : List Line) (w : World σ) : Prop :=
  ∃ view degraded, sessions (some ⟨none, some lines⟩) = .ok (view, degraded) ∧
    (Whole lines → Lists view w) ∧
    ∀ event ∈ events lines, ∀ state, Live w event.sessionId state →
      event.sessionId ∈ view.map Event.sessionId

/-- If all lines are events, no session has ended; a session with an empty id is passed over.
The loop ends at no line but one that does not parse, and behind a line of every live session. -/
structure ReadsRightly (lines : List Line) (w : World σ) : Prop where
  live : Whole lines → ∀ id current, w.state.sessions.get? id = some current →
    (id ≠ "" ↔ current.state ∉ [SessionState.closed, .failed])
  decodable : .undecodable ∉ lines
  broken : ∀ line ∈ firstBroken lines, line = .notJson
  named : ∀ event ∈ events lines, ∀ state, Live w event.sessionId state →
    event.sessionId ≠ "" ∧ event.sessionId ∈ (firstEvents lines).map Event.sessionId

variable {w : World σ} {lines : List Line}

/-- What is remembered of a whole journal are the states of all sessions. -/
theorem exists_remembered_iff (hlogged : w.state.Logged) {id : String} {state : SessionState} :
    (∃ event ∈ (remembered w.state.journal.reverse).values,
        event.sessionId = id ∧ event.newState = some state) ↔
      id ≠ "" ∧ ∃ current, w.state.sessions.get? id = some current ∧ current.state = state := by
  have hlast : (∃ event, (remembered w.state.journal.reverse).get? id = some event ∧
      event.newState = some state) ↔ id ≠ "" ∧ w.state.lastState id = some state := by
    rw [get?_remembered, List.reverse_reverse, Router.State.lastState, Option.bind_eq_some_iff]
    by_cases hid : id = "" <;> simp [hid]
  rw [hlogged.states, Option.map_eq_some_iff] at hlast
  rw [← hlast]
  constructor
  · rintro ⟨event, hmem, hid, hstate⟩
    obtain ⟨key, hget⟩ := Dict.mem_values_iff.mp hmem
    rw [sessionId_of_remembered hget] at hid
    exact ⟨event, hid ▸ hget, hstate⟩
  · rintro ⟨event, hget, hstate⟩
    exact ⟨event, Dict.mem_values_iff.mpr ⟨id, hget⟩, sessionId_of_remembered hget, hstate⟩

/-- A whole journal shows the live sessions exactly if no session has ended. -/
theorem lists_remembered_iff (hlogged : w.state.Logged) :
    Lists (remembered w.state.journal.reverse).values w ↔
      ∀ id current, w.state.sessions.get? id = some current →
        (id ≠ "" ↔ current.state ∉ [SessionState.closed, .failed]) := by
  constructor
  · intro hlists id current hget
    have hstates := hlists.states id current.state
    rw [exists_remembered_iff hlogged] at hstates
    constructor
    · intro hid
      exact (hstates.mp ⟨hid, current, hget, rfl⟩).1
    · intro hlive
      exact (hstates.mpr ⟨hlive, current, hget, rfl⟩).1
  · intro hall
    refine ⟨Dict.nodup_map_values fun _ _ => sessionId_of_remembered, fun id state => ?_⟩
    rw [exists_remembered_iff hlogged]
    constructor
    · rintro ⟨hid, current, hget, hstate⟩
      exact ⟨hstate ▸ (hall id current hget).mp hid, current, hget, hstate⟩
    · rintro ⟨hlive, current, hget, hstate⟩
      exact ⟨(hall id current hget).mpr (hstate ▸ hlive), current, hget, hstate⟩

/-- Whose events are remembered. -/
theorem mem_sessionIds_remembered_iff {written : List Event} {id : String} :
    id ∈ (remembered written).values.map Event.sessionId ↔
      id ≠ "" ∧ id ∈ written.map Event.sessionId := by
  constructor
  · intro hmem
    obtain ⟨event, hevent, rfl⟩ := List.mem_map.mp hmem
    obtain ⟨key, hget⟩ := Dict.mem_values_iff.mp hevent
    have hid := sessionId_of_remembered hget
    rw [get?_remembered] at hget
    split at hget
    · cases hget
    · rename_i hkey
      exact ⟨hid ▸ hkey, List.mem_map_of_mem (List.mem_reverse.mp (List.mem_of_find?_eq_some hget))⟩
  · intro ⟨hid, hmem⟩
    obtain ⟨event, hevent, heq⟩ := List.mem_map.mp hmem
    have hget := get?_remembered written id
    rw [if_neg hid] at hget
    cases hfind : written.reverse.find? fun event => event.sessionId = id with
    | none =>
        have hnone := List.find?_eq_none.mp hfind event (List.mem_reverse.mpr hevent)
        exact absurd (decide_eq_true heq) hnone
    | some last =>
        rw [hfind] at hget
        exact List.mem_map.mpr
          ⟨last, Dict.mem_values_iff.mpr ⟨id, hget⟩, sessionId_of_remembered hget⟩

/-- **The view of the sessions agrees with the router** exactly if no session has ended, and no
broken line comes before the lines of a live one. -/
theorem sessions_agree_iff {R : Router.Setup σ} {ok : World σ → Router.Label σ → Prop}
    {supervisor : String → Supervisor.World σ}
    (hrun : Machine.Run (World.step R) ok (World.initial supervisor) w)
    (hlines : WrittenBy lines w) : AgreesWith lines w ↔ ReadsRightly lines w := by
  have hlogged := Router.logged_of_run hrun
  have hlists : Whole lines → (Lists (remembered (firstEvents lines)).values w ↔
      ∀ id current, w.state.sessions.get? id = some current →
        (id ≠ "" ↔ current.state ∉ [SessionState.closed, .failed])) := by
    intro hwhole
    rw [firstEvents_eq_events (firstBroken_of_whole hwhole), hlines.complete hwhole]
    exact lists_remembered_iff hlogged
  constructor
  · rintro ⟨view, degraded, hview, hwhole, hshown⟩
    obtain ⟨hdecodable, hbroken, rfl⟩ := sessions_eq_ok hview
    exact ⟨fun h => (hlists h).mp (hwhole h), hdecodable, hbroken, fun event hevent state hlive =>
      mem_sessionIds_remembered_iff.mp (hshown event hevent state hlive)⟩
  · intro h
    refine ⟨_, _, sessions_of_broken h.decodable h.broken, fun hwhole => ?_, ?_⟩
    · exact (hlists hwhole).mpr (h.live hwhole)
    · intro event hevent state hlive
      exact mem_sessionIds_remembered_iff.mpr (h.named event hevent state hlive)

/-- An open session, with a line behind its events that has no session, and one that was torn. -/
theorem sessions_agree_of_menu :
    ∃ w : World Supervisor.Script,
      Machine.Run (World.step (Router.scripted 0)) World.Fresh
        (World.initial Router.scriptedSupervisor) w ∧
      AgreesWith (w.state.journal.reverse.map Line.event ++ [.noSession, .notJson]) w := by
  have hexec : ((Machine.exec (World.step (Router.scripted 0)) World.Fresh
      (World.initial Router.scriptedSupervisor) (Router.openMenu "p" "1")).map fun w =>
        w.state.journal.all fun event => event.sessionId = "p") = some true := by decide +kernel
  obtain ⟨w, hw, hall⟩ := Option.map_eq_some_iff.mp hexec
  have hrun := Machine.run_of_exec hw
  refine ⟨w, hrun, (sessions_agree_iff hrun ⟨?_, fun hwhole => ?_⟩).mpr ?_⟩
  · rw [events_append]
    exact (List.append_nil _).symm ▸ List.Sublist.refl _
  · exact absurd rfl (hwhole .notJson (by simp))
  · refine ⟨fun hwhole => absurd rfl (hwhole .notJson (by simp)), by simp, ?_, ?_⟩
    · rw [firstBroken_append]
      exact fun line hline => (Option.some.inj hline).symm
    · intro event hevent state _
      rw [events_append, show events [Line.noSession, .notJson] = [] from rfl, List.append_nil] at hevent
      rw [firstEvents_append, show firstEvents [Line.noSession, .notJson] = [] from rfl, List.append_nil]
      have hid := List.all_eq_true.mp hall event (List.mem_reverse.mp hevent)
      refine ⟨?_, List.mem_map_of_mem hevent⟩
      rw [of_decide_eq_true hid]
      decide

/-- After its session was closed, the journal still shows it. -/
theorem sessions_show_closed :
    ¬ ∀ (R : Router.Setup Supervisor.Script)
        (supervisor : String → Supervisor.World Supervisor.Script) (w : World Supervisor.Script)
        (lines : List Line),
        Machine.Run (World.step R) World.Fresh (World.initial supervisor) w → WrittenBy lines w →
        AgreesWith lines w := by
  intro hall
  have hexec : ((Machine.exec (World.step (Router.scripted 0)) World.Fresh
      (World.initial Router.scriptedSupervisor) (Router.openMenu "p" "1" ++
        [⟨.call (.closeSession "p" "caller_closed"), Router.scriptedAnswers "2" true true⟩])).map
      fun w => (w.state.sessions.get? "p").map Router.Session.state) =
      some (some .closed) := by decide +kernel
  obtain ⟨w, hw, hobserved⟩ := Option.map_eq_some_iff.mp hexec
  obtain ⟨current, hget, hclosed⟩ := Option.map_eq_some_iff.mp hobserved
  have hrun := Machine.run_of_exec hw
  have hevents : events (w.state.journal.reverse.map Line.event) = w.state.journal.reverse := by
    simpa [events] using events_append w.state.journal.reverse []
  have hwhole : Whole (w.state.journal.reverse.map Line.event) := by
    intro line hline
    obtain ⟨event, _, rfl⟩ := List.mem_map.mp hline
    exact Option.some_ne_none event
  have hbroken := firstBroken_of_whole hwhole
  obtain ⟨view, degraded, hview, hlists, _⟩ := hall _ _ w _ hrun ⟨by rw [hevents], fun _ => hevents⟩
  rw [sessions_eq, if_neg fun hmem => hwhole _ hmem rfl, hbroken, firstEvents_eq_events hbroken,
    hevents, Except.ok.injEq, Prod.mk.injEq] at hview
  have hlive := (lists_remembered_iff (Router.logged_of_run hrun)).mp (hview.1 ▸ hlists hwhole)
  exact (hlive "p" current hget).mp (by decide) (by rw [hclosed]; decide)

end Agreement

end UltimateBBSBox.Observatory

import UltimateBBSBox.Archive.Values
import UltimateBBSBox.Observatory.Collector

/-!
# Readiness

`readiness_summary` of `hardening.py` and `Observatory._qualification` each make one
readiness of the statuses of a qualification.  A status is whatever the document has in
its place: only the texts of the five names count, and what is no text is none of them.
-/

namespace UltimateBBSBox.Integrations

open Archive

/-! ## Statuses -/

/-- `name in statuses`. -/
def listed (name : String) (statuses : List Value) : Bool :=
  statuses.any fun status => status.isText (.of name)

/-- `[item.get("status") for item in items]`. -/
def statusesOf (items : List Value) : Except Archive.Exn (List Value) :=
  items.mapM fun item => item.get "status" .null

/-- The status of a result that is an object. -/
def status (result : Fields) : Value := (result.get? "status").getD .null

theorem statusesOf_objects (results : List Fields) :
    statusesOf (results.map .object) = .ok (results.map status) := by
  induction results with
  | nil => rfl
  | cons result rest ih =>
      unfold statusesOf at ih ⊢
      rw [List.map_cons, List.mapM_cons, ih]
      rfl

theorem listed_eq_true_iff {name : String} {statuses : List Value} :
    listed name statuses = true ↔ ∃ value ∈ statuses, value.isText (.of name) = true := List.any_eq_true

/-! ## `readiness_summary` -/

/-- What `readiness_summary` returns. -/
structure Summary where
  integration : Text
  release : Text
  readiness : Observatory.Readiness
  checks : ℕ
  humanRequired : ℕ
  failed : ℕ
  evidence : List Value

/-- `statuses.count(name)`. -/
def count (name : String) (statuses : List Value) : ℕ :=
  statuses.countP fun status => status.isText (.of name)

/-- The readiness of `readiness_summary`. -/
def summarized (statuses : List Value) : Observatory.Readiness :=
  if statuses = [] then .blocked
  else if listed "FAIL" statuses ∨ listed "BLOCKED" statuses then .notReady
  else if listed "HUMAN_REQUIRED" statuses then .readyWithHumanRequirements
  else if listed "PASS" statuses then .ready
  else .notReady

/-- `readiness_summary`. -/
def readinessSummary (evidence : List Value) (integration release : Text) :
    Except Archive.Exn Summary := do
  let statuses ← statusesOf evidence
  return {
    integration := integration
    release := release
    readiness := summarized statuses
    checks := evidence.length
    humanRequired := count "HUMAN_REQUIRED" statuses
    failed := count "FAIL" statuses + count "BLOCKED" statuses
    evidence := evidence }

/-! ## `_qualification` -/

/-- The readiness of `_qualification`. -/
def qualified (statuses : List Value) : Observatory.Readiness :=
  if listed "FAIL" statuses then .notReady
  else if listed "BLOCKED" statuses then .blocked
  else if listed "HUMAN_REQUIRED" statuses then .readyWithHumanRequirements
  else if statuses ≠ [] ∧ ∀ status ∈ statuses,
      status.isText (.of "PASS") ∨ status.isText (.of "SKIP") then .ready
  else .unknown

/-- `_qualification`; `files` is what `_read_json` returns for the files in `qualification`
of the install root, if there is one. -/
def qualification (files : Option (Text → Option Value)) (artifactId : Text) :
    Except Archive.Exn (Observatory.Readiness × Option Value) :=
  match files with
  | none => return (.unknown, none)
  | some files =>
      match (files artifactId).or (files (.of "latest")) with
      | none => return (.unknown, none)
      | some document => do
          if document.truthy = false then return (.unknown, none)
          let results ← document.get "results" (.array [])
          let statuses ← statusesOf (← results.elements)
          return (qualified statuses, some document)

/-- The name of a status, if it is one. -/
def nameOf (status : Value) : Option String :=
  ["PASS", "FAIL", "HUMAN_REQUIRED", "SKIP", "BLOCKED"].find? fun name => status.isText (.of name)

theorem isText_iff_nameOf {name : String}
    (h : name ∈ ["PASS", "FAIL", "HUMAN_REQUIRED", "SKIP", "BLOCKED"]) (value : Value) :
    value.isText (.of name) = true ↔ nameOf value = some name := by
  unfold nameOf
  cases value with
  | text value =>
      have hne : ∀ other : String, other ≠ name → Text.of name ≠ Text.of other := by
        intro other hother heq
        exact hother (Text.of_inj.mp heq).symm
      constructor
      · intro htext
        obtain rfl : value = Text.of name := by simpa [Value.isText] using htext
        simp only [List.mem_cons, List.not_mem_nil, or_false] at h
        rcases h with rfl | rfl | rfl | rfl | rfl
        all_goals simp [Value.isText]
      · intro hfind
        have hfound := @List.find?_some _ (fun name => (Value.text value).isText (.of name)) name _ hfind
        exact hfound
  | null => simp [Value.isText]
  | bool _ => simp [Value.isText]
  | number _ => simp [Value.isText]
  | array _ => simp [Value.isText]
  | object _ => simp [Value.isText]

/-- It is the readiness that the observatory's summaries have. -/
theorem qualified_eq (statuses : List Value) :
    qualified statuses = Observatory.qualificationState (statuses.map nameOf) := by
  have hlisted : ∀ name ∈ ["PASS", "FAIL", "HUMAN_REQUIRED", "SKIP", "BLOCKED"],
      listed name statuses = (statuses.map nameOf).any (· == some name) := by
    intro name hname
    unfold listed
    rw [List.any_map]
    congr 1
    funext value
    rw [Bool.eq_iff_iff, isText_iff_nameOf hname value]
    simp
  have hall : (∀ status ∈ statuses, status.isText (.of "PASS") ∨ status.isText (.of "SKIP")) ↔
      (statuses.map nameOf).all (fun status => status == some "PASS" || status == some "SKIP") = true := by
    rw [List.all_map, List.all_eq_true]
    refine forall₂_congr fun value _ => ?_
    rw [isText_iff_nameOf (by decide) value, isText_iff_nameOf (by decide) value]
    simp
  unfold qualified Observatory.qualificationState
  simp only [hlisted "FAIL" (by decide), hlisted "BLOCKED" (by decide),
    hlisted "HUMAN_REQUIRED" (by decide), hall, ne_eq, List.map_eq_nil_iff]

/-! ## The two of them compared -/

/-- What the documentation says of a readiness. -/
structure Documented (statuses : List Value) (readiness : Observatory.Readiness) : Prop where
  fail : listed "FAIL" statuses → readiness = .notReady
  blocked : ¬listed "FAIL" statuses → statuses = [] ∨ listed "BLOCKED" statuses → readiness = .blocked
  human : ¬listed "FAIL" statuses → ¬(statuses = [] ∨ listed "BLOCKED" statuses) →
    listed "HUMAN_REQUIRED" statuses → listed "PASS" statuses →
    readiness = .readyWithHumanRequirements
  ready : readiness = .ready → ∀ status ∈ statuses, status.isText (.of "PASS")

/-- A check failed; or none is blocked, and one needs a person or there are some and all passed. -/
def Unambiguous (statuses : List Value) : Prop :=
  listed "FAIL" statuses ∨ ¬listed "BLOCKED" statuses ∧
    (listed "HUMAN_REQUIRED" statuses ∨
      statuses ≠ [] ∧ ∀ status ∈ statuses, status.isText (.of "PASS"))

section Comparison

variable {statuses : List Value}

theorem ne_nil_of_listed {name : String} (h : listed name statuses = true) : statuses ≠ [] := by
  intro hnil
  rw [hnil] at h
  cases h

/-- A status is one text only. -/
theorem listed_of_all {name other : String} (hne : statuses ≠ [])
    (hall : ∀ status ∈ statuses, status.isText (.of name) = true) :
    listed other statuses = true ↔ other = name := by
  rw [listed_eq_true_iff]
  constructor
  · intro ⟨value, hvalue, hother⟩
    have hname := hall value hvalue
    cases value with
    | text value =>
        simp only [Value.isText, decide_eq_true_eq] at hname hother
        rw [hname, Text.of_inj] at hother
        exact hother.symm
    | null => cases hname
    | bool _ => cases hname
    | number _ => cases hname
    | array _ => cases hname
    | object _ => cases hname
  · intro hother
    subst hother
    obtain ⟨value, hvalue⟩ := List.exists_mem_of_ne_nil statuses hne
    exact ⟨value, hvalue, hall value hvalue⟩

/-- The two folds agree with each other and with the documentation exactly on these. -/
theorem qualified_eq_summarized_iff :
    qualified statuses = summarized statuses ∧ Documented statuses (qualified statuses) ↔
      Unambiguous statuses := by
  unfold Unambiguous
  -- the cases are those of `qualified`, in its order
  by_cases hfail : listed "FAIL" statuses = true
  · have hne : statuses ≠ [] := ne_nil_of_listed hfail
    have hqualified : qualified statuses = .notReady := by simp [qualified, hfail]
    have hsummarized : summarized statuses = .notReady := by simp [summarized, hfail, hne]
    rw [hqualified, hsummarized]
    refine iff_of_true ⟨rfl, fun _ => rfl, ?_, ?_, ?_⟩ (.inl hfail)
    · exact fun hnot => absurd hfail hnot
    · exact fun hnot => absurd hfail hnot
    · intro hready
      cases hready
  rw [or_iff_right hfail]
  by_cases hblocked : listed "BLOCKED" statuses = true
  · have hne : statuses ≠ [] := ne_nil_of_listed hblocked
    have hqualified : qualified statuses = .blocked := by simp [qualified, hfail, hblocked]
    have hsummarized : summarized statuses = .notReady := by simp [summarized, hblocked, hne]
    -- a blocked check makes the integration not ready and the qualification blocked
    refine iff_of_false ?_ fun h => h.1 hblocked
    intro ⟨heq, _⟩
    rw [hqualified, hsummarized] at heq
    cases heq
  rw [and_iff_right hblocked]
  by_cases hhuman : listed "HUMAN_REQUIRED" statuses = true
  · have hne : statuses ≠ [] := ne_nil_of_listed hhuman
    have hqualified : qualified statuses = .readyWithHumanRequirements := by
      simp [qualified, hfail, hblocked, hhuman]
    have hsummarized : summarized statuses = .readyWithHumanRequirements := by
      simp [summarized, hfail, hblocked, hhuman, hne]
    rw [hqualified, hsummarized]
    refine iff_of_true ⟨rfl, fun h => absurd h hfail, ?_, fun _ _ _ _ => rfl, ?_⟩ (.inl hhuman)
    · intro _ hempty
      exact (not_or.mpr ⟨hne, hblocked⟩ hempty).elim
    · intro hready
      cases hready
  rw [or_iff_right hhuman]
  have hqualified : qualified statuses = if statuses ≠ [] ∧ ∀ status ∈ statuses,
      status.isText (.of "PASS") ∨ status.isText (.of "SKIP") then .ready else .unknown := by
    simp only [qualified, hfail, hblocked, hhuman, Bool.false_eq_true, if_false]
  constructor
  · intro ⟨heq, hdocumented⟩
    -- the summary is never unknown, so the two agree on ready only
    have hready : qualified statuses = .ready := by
      by_contra hnot
      rw [hqualified] at hnot heq
      rw [if_neg (fun h => hnot (if_pos h))] at heq
      unfold summarized at heq
      split_ifs at heq
    have hcond : statuses ≠ [] := by
      intro hnil
      rw [hqualified, if_neg (fun h => h.1 hnil)] at hready
      cases hready
    exact ⟨hcond, hdocumented.ready hready⟩
  · intro ⟨hne, hall⟩
    have hpass : listed "PASS" statuses = true := (listed_of_all hne hall).mpr rfl
    have hready : qualified statuses = .ready := by
      rw [hqualified]
      exact if_pos ⟨hne, fun status hstatus => .inl (hall status hstatus)⟩
    have hsummarized : summarized statuses = .ready := by
      simp [summarized, hne, hfail, hblocked, hhuman, hpass]
    rw [hready, hsummarized]
    refine ⟨rfl, fun h => absurd h hfail, ?_, fun _ _ h => absurd h hhuman, fun _ => hall⟩
    intro _ hempty
    exact (not_or.mpr ⟨hne, hblocked⟩ hempty).elim

end Comparison

/-- A document whose results are objects has their statuses. -/
theorem qualification_of_results {files : Text → Option Value} {artifactId : Text} {document : Value}
    {results : List Fields} (hdocument : (files artifactId).or (files (.of "latest")) = some document)
    (hresults : document.get "results" (.array []) = .ok (.array (results.map .object))) :
    ∃ stored, qualification (some files) artifactId = .ok (qualified (results.map status), stored) := by
  unfold qualification
  simp only [hdocument]
  by_cases hfalsy : document.truthy = false
  · -- an empty document has no results
    have hnone : results = [] := by
      cases document with
      | object fields =>
          obtain rfl : fields = [] := by simpa [Value.truthy] using hfalsy
          have hempty : results.map Value.object = [] := by
            simp only [Value.get, Fields.get?_nil, Option.getD_none, Except.ok.injEq,
              Value.array.injEq] at hresults
            exact hresults.symm
          exact List.map_eq_nil_iff.mp hempty
      | null => cases hresults
      | bool _ => cases hresults
      | number _ => cases hresults
      | text _ => cases hresults
      | array _ => cases hresults
    subst hnone
    refine ⟨none, ?_⟩
    rw [if_pos hfalsy]
    rfl
  · refine ⟨some document, ?_⟩
    rw [if_neg hfalsy, hresults]
    simp only [bind, Except.bind, Value.elements, statusesOf_objects]
    rfl

/-- **When the two readiness aggregators agree as documented.** -/
theorem readiness_agrees_iff (files : Text → Option Value) (artifactId : Text) (document : Value)
    (results : List Fields) (integration release : Text)
    (hdocument : (files artifactId).or (files (.of "latest")) = some document)
    (hresults : document.get "results" (.array []) = .ok (.array (results.map .object))) :
    (∃ readiness stored summary, qualification (some files) artifactId = .ok (readiness, stored) ∧
        readinessSummary (results.map .object) integration release = .ok summary ∧
        summary.readiness = readiness ∧ Documented (results.map status) readiness) ↔
      Unambiguous (results.map status) := by
  obtain ⟨stored, hstored⟩ := qualification_of_results hdocument hresults
  have hsummary : ∃ summary, readinessSummary (results.map .object) integration release = .ok summary ∧
      summary.readiness = summarized (results.map status) := by
    unfold readinessSummary
    rw [statusesOf_objects]
    exact ⟨_, rfl, rfl⟩
  obtain ⟨summary, hsummary, hreadiness⟩ := hsummary
  rw [← qualified_eq_summarized_iff]
  constructor
  · intro ⟨readiness, stored', summary', hstored', hsummary', heq, hdocumented⟩
    obtain ⟨rfl, rfl⟩ : qualified (results.map status) = readiness ∧ stored = stored' := by
      rw [hstored, Except.ok.injEq, Prod.mk.injEq] at hstored'
      exact hstored'
    obtain rfl := Except.ok.inj (hsummary.symm.trans hsummary')
    exact ⟨heq.symm.trans hreadiness, hdocumented⟩
  · intro ⟨heq, hdocumented⟩
    exact ⟨_, stored, summary, hstored, hsummary, hreadiness.trans heq.symm, hdocumented⟩

/-- A qualification of four checks, of which one was skipped and one is for a human, is stored as
the latest only. -/
theorem readiness_agrees_with_human :
    let results : List Fields := ["PASS", "SKIP", "HUMAN_REQUIRED", "PASS"].map fun name =>
      [(.of "check", .text (.of "login")), (.of "status", .text (.of name))]
    let document := Value.object [(.of "schema_version", .number (.int 1)),
      (.of "results", .array (results.map .object))]
    let files : Text → Option Value := fun name => if name = .of "latest" then some document else none
    ∃ readiness stored summary, qualification (some files) (.of "mystic") = .ok (readiness, stored) ∧
      readinessSummary (results.map .object) (.of "mystic-linux") (.of "mystic") = .ok summary ∧
      summary.readiness = readiness ∧ Documented (results.map status) readiness := by
  intro results document files
  have hresults : document.get "results" (.array []) = .ok (.array (results.map .object)) := by
    simp [document, Value.get]
  refine (readiness_agrees_iff files (.of "mystic") document results (.of "mystic-linux")
    (.of "mystic") (by simp [files]) hresults).mpr (.inr ⟨?_, .inl ?_⟩)
  · simp [results, status, listed, Value.isText]
  · simp [results, status, listed, Value.isText]

/-- A blocked check is `BLOCKED` in one and `NOT_READY` in the other. -/
theorem readiness_differs_blocked :
    let results : List Fields := [[(.of "status", .text (.of "BLOCKED"))]]
    let document := Value.object [(.of "results", .array (results.map .object))]
    (∃ stored, qualification (some fun _ => some document) (.of "mystic") = .ok (.blocked, stored)) ∧
      ∃ summary, readinessSummary (results.map .object) (.of "mystic-linux") (.of "mystic") =
        .ok summary ∧ summary.readiness = .notReady := by
  intro results document
  have hresults : document.get "results" (.array []) = .ok (.array (results.map .object)) := by
    simp [document, Value.get]
  obtain ⟨stored, hstored⟩ := @qualification_of_results (fun _ => some document) (.of "mystic") _ _ rfl
    hresults
  have hqualified : qualified (results.map status) = .blocked := by
    simp [results, status, qualified, listed, Value.isText]
  rw [hqualified] at hstored
  have hsummarized : summarized (results.map status) = .notReady := by
    simp [results, status, summarized, listed, Value.isText]
  refine ⟨⟨stored, hstored⟩, ?_⟩
  unfold readinessSummary
  rw [statusesOf_objects]
  exact ⟨_, rfl, hsummarized⟩

end UltimateBBSBox.Integrations

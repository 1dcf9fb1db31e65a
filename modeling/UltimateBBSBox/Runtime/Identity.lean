import UltimateBBSBox.Library.Address
import UltimateBBSBox.Library.Check
import UltimateBBSBox.Library.Words
import UltimateBBSBox.Runtime.Adapter

/-!
# The identity of a process

What `_proc_identity` reads of an entry in `/proc`, and what `status` makes of it later.  The
start time is taken by its place among the words of the `stat` line, whose second field is a
name of the program's choice.  White space in the name moves the place, and a name that is
no UTF-8 raises what is not caught (`keepsIdentity_iff`).

A name is given as `os.fsdecode` shows it: bytes that are no UTF-8 are surrogates.  The line
is written as the kernel does it, which escapes newlines and backslashes in names.
-/

namespace UltimateBBSBox.Runtime

open Act
open CodePoint (ofChar)
open Address (decimal)

/-! ## The line of a process -/

/-- A name of up to 15 bytes. -/
structure Comm where
  text : Text
  length_le : text.length ≤ 15

/-- A character of a name, as it stands in the line. -/
def escaped (c : CodePoint) : Text :=
  if c = ofChar '\n' then .of "\\n" else if c = ofChar '\\' then .of "\\\\" else [c]

/-- The second field of the line. -/
def Comm.field (comm : Comm) : Text := ofChar '(' :: comm.text.flatMap escaped ++ [ofChar ')']

/-- A field of the line other than the name. -/
def IsField (field : Text) : Prop :=
  field ≠ [] ∧ ∀ c ∈ field, c.isAscii = true ∧ c.isSpace = false

/-- What the `stat` line says: the name, the fields 3 to 21, the start time, and the fields
after it. -/
structure Stat where
  comm : Comm
  before : List Text
  start : ℕ
  after : List Text
  length_before : before.length = 19
  fields : ∀ field ∈ before ++ after, IsField field

/-- `/proc/<pid>/stat`. -/
def Stat.line (stat : Stat) (pid : ℕ) : Text :=
  decimal pid ++ ofChar ' ' :: stat.comm.field ++
    ofChar ' ' :: (Text.of " ").intercalate (stat.before ++ decimal stat.start :: stat.after) ++
    [ofChar '\n']

/-- The entry of a process: the link to its executable, if it can be read, and the line. -/
structure Entry where
  exe : Option {link : Text // link ≠ []}
  stat : Stat

/-- What `_proc_identity` meets at a pid that some process holds, or none. -/
def readProc (pid : ℕ) : Option Entry → Except Foreign (Text × Text)
  | none => .error .osError
  | some entry =>
      match entry.exe with
      | none => .error .osError
      | some executable =>
          if (entry.stat.line pid).Encodable then
            match (entry.stat.line pid).words[21]? with
            | some ticks => .ok (executable.1, ticks)
            | none => .error .indexError
          else .error .unicodeDecodeError

/-! ## What is recorded, and what is seen later -/

/-- What `start` records of a process. -/
def recordIdentity (runtimeName : String) (pid : ℤ) (proc : Except Foreign (Text × Text)) :
    Except Exn Metadata := do
  let identity ← procIdentity proc
  return {
    adapter := some runtimeName
    pid := some pid
    processExecutable := identity.map Prod.fst
    processStartTicks := identity.map Prod.snd }

/-- A launch that returns has recorded the identity of its process. -/
theorem wlp_launch_records (runtimeName : String) (instanceId : Text) (config : Config)
    (world : StartWorld) (command : List Text) (s : State) :
    wlp (launch runtimeName instanceId config world command)
      (fun result s' => ∃ pid, result.pid = some pid ∧
        recordIdentity runtimeName pid world.proc = .ok s'.runtime) (fun _ _ => True) s := by
  unfold launch
  refine wlp_bind.mpr <| wlp_mono wlp_true (fun master s₁ _ => ?_) fun _ _ h => h
  refine wlp_bind.mpr <| wlp_mono wlp_true (fun process s₂ _ => ?_) fun _ _ h => h
  refine wlp_bind.mpr <| wlp_modify.mpr <| wlp_bind.mpr <| wlp_ofExcept.mpr ⟨?_, fun _ _ => trivial⟩
  intro identity hread
  refine wlp_bind.mpr <| wlp_modify.mpr ?_
  refine ⟨process.pid, rfl, ?_⟩
  unfold recordIdentity
  rw [hread]
  rfl

/-- The process that has the pid is the one that was started. -/
def IsSame (started : Entry) (later : Option Entry) : Prop :=
  ∃ entry ∈ later, entry.exe = started.exe ∧ entry.stat.start = started.stat.start

/-- The identity of a started process is recorded, and an adapter without a handle of the
process says later, and without raising, that it is alive if and only if the process that
has the pid is the one that was started. -/
def KeepsIdentity (pid : ℕ) (started : Entry) (later : Option Entry) : Prop :=
  ∀ runtimeName, ∃ runtime, recordIdentity runtimeName pid (readProc pid (some started)) = .ok runtime ∧
    ∀ (s : State) (instanceId : Text) (look : Look), s.processes.get? instanceId = none →
      s.runtime = runtime → look.proc = readProc pid later →
        ∃ status, statusOf s instanceId look = .ok status ∧ (status.alive = true ↔ IsSame started later)

/-- The identity of the processes with a name is kept before all that may have the pid later, if
these have a name, too. -/
def NamesKeepIdentity (started later : Comm) : Prop :=
  ∀ (pid : ℕ) (process : Entry) (table : Option Entry), 1 < pid → process.exe ≠ none →
    process.stat.comm = started → (∀ entry ∈ table, entry.stat.comm = later) →
      KeepsIdentity pid process table

/-- The name is UTF-8, and no white space in it but newlines, which are escaped. -/
def Comm.IsPlain (comm : Comm) : Prop :=
  ∀ c ∈ comm.text, c.isSurrogate = false ∧ (c.isSpace = true → c = ofChar '\n')

/-! ## Words of the line -/

section Escapes

variable {c d : CodePoint} {comm : Comm}

theorem escaped_of_ne (hnewline : c ≠ ofChar '\n') (hbackslash : c ≠ ofChar '\\') : escaped c = [c] := by
  unfold escaped
  rw [if_neg hnewline, if_neg hbackslash]

/-- A character that is written for another one is neither white space nor a surrogate. -/
theorem escaped_cases (c : CodePoint) : escaped c = [c] ∧ c ≠ ofChar '\n' ∨
    (c = ofChar '\n' ∨ c.isSpace = false ∧ c.isSurrogate = false) ∧
      ∀ d ∈ escaped c, d.isSpace = false ∧ d.isSurrogate = false := by
  by_cases hnewline : c = ofChar '\n'
  · rw [hnewline]
    exact .inr ⟨.inl rfl, by decide⟩
  · by_cases hbackslash : c = ofChar '\\'
    · rw [hbackslash]
      exact .inr ⟨.inr (by decide), by decide⟩
    · exact .inl ⟨escaped_of_ne hnewline hbackslash, hnewline⟩

/-- White space in the field is white space in the name, but no newline. -/
theorem isSpace_field_iff : (∀ d ∈ comm.field, d.isSpace = false) ↔
    ∀ c ∈ comm.text, c.isSpace = true → c = ofChar '\n' := by
  have hfield : (∀ d ∈ comm.field, d.isSpace = false) ↔
      ∀ c ∈ comm.text, ∀ d ∈ escaped c, d.isSpace = false := by
    unfold Comm.field
    rw [List.forall_mem_append, List.forall_mem_cons, List.forall_mem_singleton,
      and_iff_left (by decide), and_iff_right (by decide)]
    simp only [List.mem_flatMap, forall_exists_index, and_imp]
    exact forall_comm.trans (forall_congr' fun c => forall_comm)
  rw [hfield]
  refine forall₂_congr fun c _ => ?_
  rcases escaped_cases c with ⟨heq, hne⟩ | ⟨hc, hall⟩
  · rw [heq, List.forall_mem_singleton]
    cases c.isSpace with
    | false => exact iff_of_true rfl fun h => absurd h Bool.false_ne_true
    | true => exact iff_of_false (Ne.symm Bool.false_ne_true) fun h => hne (h rfl)
  · refine iff_of_true (fun d hd => (hall d hd).1) fun hspace => ?_
    rcases hc with hnewline | ⟨hnot, -⟩
    · exact hnewline
    · rw [hnot] at hspace
      cases hspace

theorem encodable_field_iff : comm.field.Encodable ↔ ∀ c ∈ comm.text, c.isSurrogate = false := by
  have hfield : comm.field.Encodable ↔ ∀ c ∈ comm.text, ∀ d ∈ escaped c, d.isSurrogate = false := by
    unfold Comm.field Text.Encodable
    rw [List.forall_mem_append, List.forall_mem_cons, List.forall_mem_singleton,
      and_iff_left (by decide), and_iff_right (by decide)]
    simp only [List.mem_flatMap, forall_exists_index, and_imp]
    exact forall_comm.trans (forall_congr' fun c => forall_comm)
  rw [hfield]
  refine forall₂_congr fun c _ => ?_
  rcases escaped_cases c with ⟨heq, -⟩ | ⟨hc, hall⟩
  · rw [heq, List.forall_mem_singleton]
  · refine iff_of_true (fun d hd => (hall d hd).2) ?_
    rcases hc with rfl | ⟨-, hnot⟩
    · decide
    · exact hnot

/-- Each character of a name gives one piece of white space, at most. -/
theorem length_words_field_le (comm : Comm) : comm.field.words.length ≤ 16 := by
  have hcount : ∀ text : Text, (text.flatMap escaped).countP CodePoint.isSpace ≤ text.length := by
    intro text
    induction text with
    | nil => exact Nat.le_refl _
    | cons c text ih =>
        have hc : (escaped c).countP CodePoint.isSpace ≤ 1 := by
          rcases escaped_cases c with ⟨heq, -⟩ | ⟨-, hall⟩
          · rw [heq]
            exact List.countP_le_length
          · rw [List.countP_eq_zero.mpr fun d hd => Bool.not_eq_true _ ▸ (hall d hd).1]
            exact Nat.zero_le _
        rw [List.flatMap_cons, List.countP_append, List.length_cons]
        omega
  have hwords := Text.length_words_le comm.field
  have hspaces : comm.field.countP CodePoint.isSpace = (comm.text.flatMap escaped).countP CodePoint.isSpace := by
    unfold Comm.field
    rw [List.countP_append, List.countP_cons_of_neg (by decide)]
    rfl
  have hlength := comm.length_le
  have htext := hcount comm.text
  omega

/-- White space splits the field: there are characters at both ends of it. -/
theorem two_le_length_words_field (h : ¬ ∀ d ∈ comm.field, d.isSpace = false) :
    2 ≤ comm.field.words.length := by
  simp only [not_forall, Bool.not_eq_false] at h
  obtain ⟨d, hd, hspace⟩ := h
  have hinside : d ∈ comm.text.flatMap escaped := by
    unfold Comm.field at hd
    rw [List.mem_append, List.mem_cons, List.mem_singleton] at hd
    rcases hd with (rfl | hd) | rfl
    · exact absurd hspace (by decide)
    · exact hd
    · exact absurd hspace (by decide)
  obtain ⟨front, back, hparts⟩ := List.append_of_mem hinside
  have hfield : comm.field = (ofChar '(' :: front) ++ d :: (back ++ [ofChar ')']) := by
    unfold Comm.field
    rw [hparts]
    simp
  rw [hfield, Text.words_append_cons hspace, List.length_append]
  have hopen : (Text.words (ofChar '(' :: front)).length ≠ 0 := fun h =>
    Text.words_ne_nil List.mem_cons_self (by decide) (List.eq_nil_of_length_eq_zero h)
  have hclose : (Text.words (back ++ [ofChar ')'])).length ≠ 0 := fun h =>
    Text.words_ne_nil (List.mem_append_right _ (List.mem_singleton.mpr rfl)) (by decide)
      (List.eq_nil_of_length_eq_zero h)
  omega

end Escapes

section Line

variable (stat : Stat) (pid : ℕ)

theorem isField_decimal (n : ℕ) : IsField (decimal n) := by
  refine ⟨Address.decimal_ne_nil n, fun c hc => ?_⟩
  have hdigit := Address.isDigit_of_mem_decimal hc
  refine ⟨CodePoint.isAscii_of_isHex (CodePoint.isHex_of_isDigit hdigit), ?_⟩
  simp only [CodePoint.isDigit, CodePoint.isSpace, ofChar, Fin.le_def, decide_eq_true_eq,
    decide_eq_false_iff_not, List.mem_cons, List.not_mem_nil, or_false] at hdigit ⊢
  simp only [Char.reduceToNat] at hdigit
  omega

theorem isField_of_mem (stat : Stat) :
    ∀ field ∈ stat.before ++ decimal stat.start :: stat.after, IsField field := by
  intro field hfield
  rcases List.mem_append.mp hfield with hbefore | hafter
  · exact stat.fields field (List.mem_append_left _ hbefore)
  · rcases List.mem_cons.mp hafter with rfl | hafter
    · exact isField_decimal stat.start
    · exact stat.fields field (List.mem_append_right _ hafter)

/-- The line has the words of the name between the pid and the other fields. -/
theorem words_line : (stat.line pid).words =
    decimal pid :: (stat.comm.field.words ++ (stat.before ++ decimal stat.start :: stat.after)) := by
  have hsolid : ∀ {field : Text}, IsField field → field ≠ [] ∧ ∀ c ∈ field, c.isSpace = false :=
    fun h => ⟨h.1, fun c hc => (h.2 c hc).2⟩
  have hpid := hsolid (isField_decimal pid)
  unfold Stat.line
  rw [List.append_assoc, List.append_assoc, List.cons_append, List.cons_append,
    Text.words_append_cons (by decide), Text.words_of_solid hpid.1 hpid.2,
    Text.words_append_cons (by decide), Text.words_append_cons (by decide), Text.words_nil,
    List.append_nil, Text.words_intercalate fun field hfield => hsolid (isField_of_mem stat field hfield)]
  rfl

theorem encodable_line_iff : (stat.line pid).Encodable ↔ stat.comm.field.Encodable := by
  have hfield : ∀ {field : Text}, IsField field → field.Encodable := fun h =>
    Text.encodable_of_ascii fun c hc => (h.2 c hc).1
  have hrest : Text.Encodable
      ((Text.of " ").intercalate (stat.before ++ decimal stat.start :: stat.after)) :=
    Text.encodable_intercalate (by decide) fun field h => hfield (isField_of_mem stat field h)
  have hcons : ∀ {text : Text}, Text.Encodable (ofChar ' ' :: text) ↔ text.Encodable := by
    intro text
    unfold Text.Encodable
    rw [List.forall_mem_cons]
    exact and_iff_right (by decide)
  unfold Stat.line
  rw [Text.encodable_append, Text.encodable_append, Text.encodable_append, hcons, hcons,
    and_iff_left (by decide), and_iff_left hrest, and_iff_right (hfield (isField_decimal pid))]

/-- With a solid name the start time is in its place. -/
theorem ticks_of_solid (h : ∀ d ∈ stat.comm.field, d.isSpace = false) :
    (stat.line pid).words[21]? = some (decimal stat.start) := by
  have hne : stat.comm.field ≠ [] := by
    unfold Comm.field
    exact List.cons_ne_nil _ _
  rw [words_line, Text.words_of_solid hne h, List.getElem?_cons_succ, List.singleton_append,
    List.getElem?_cons_succ, List.getElem?_append_right (by rw [stat.length_before]),
    stat.length_before]
  rfl

/-- White space in the name moves an earlier field into the place of the start time. -/
theorem ticks_of_spaced (h : ¬ ∀ d ∈ stat.comm.field, d.isSpace = false) :
    ∃ i, 4 ≤ i ∧ i ≤ 18 ∧ (stat.line pid).words[21]? = stat.before[i]? := by
  have htwo := two_le_length_words_field h
  have hle := length_words_field_le stat.comm
  refine ⟨20 - stat.comm.field.words.length, by omega, by omega, ?_⟩
  rw [words_line, List.getElem?_cons_succ, List.getElem?_append_right (by omega),
    List.getElem?_append_left (by rw [stat.length_before]; omega)]

end Line

/-! ## What is kept -/

section Keeping

variable {pid : ℕ} {entry : Entry} {executable : {link : Text // link ≠ []}}

theorem readProc_of_ticks {ticks : Text} (hexe : entry.exe = some executable)
    (hname : entry.stat.comm.field.Encodable) (hticks : (entry.stat.line pid).words[21]? = some ticks) :
    readProc pid (some entry) = .ok (executable.1, ticks) := by
  unfold readProc
  dsimp only
  rw [hexe]
  dsimp only
  rw [if_pos ((encodable_line_iff _ _).mpr hname), hticks]

/-- A name that is no UTF-8 raises. -/
theorem readProc_of_not_encodable (hexe : entry.exe = some executable)
    (hname : ¬ entry.stat.comm.field.Encodable) :
    readProc pid (some entry) = .error .unicodeDecodeError := by
  unfold readProc
  dsimp only
  rw [hexe]
  dsimp only
  rw [if_neg (mt (encodable_line_iff _ _).mp hname)]

theorem verifies_iff {runtime : Metadata} {identity : Text × Text} {found : Option (Text × Text)}
    (hexecutable : runtime.processExecutable = some identity.1)
    (hticks : runtime.processStartTicks = some identity.2) (hne : identity.1 ≠ [] ∧ identity.2 ≠ []) :
    runtime.verifies found = true ↔ found = some identity := by
  unfold Metadata.verifies
  cases found with
  | none => exact iff_of_false Bool.false_ne_true (Option.some_ne_none _).symm
  | some found =>
      obtain ⟨executable, ticks⟩ := found
      dsimp only
      rw [hexecutable, hticks, decide_eq_true_iff]
      constructor
      · rintro ⟨-, -, hexe, hticks⟩
        rw [← Option.some.inj hexe, ← Option.some.inj hticks]
      · rintro h
        cases h
        exact ⟨hne.1, hne.2, rfl, rfl⟩

/-- The identity is kept if and only if what is read later does not raise, and is what was
recorded for the same process and for no other. -/
theorem keepsIdentity_iff {started : Entry} {later : Option Entry} {identity : Text × Text}
    (hpid : 1 < pid) (hread : readProc pid (some started) = .ok identity)
    (hne : identity.1 ≠ [] ∧ identity.2 ≠ []) :
    KeepsIdentity pid started later ↔ ∃ found, procIdentity (readProc pid later) = .ok found ∧
      (found = some identity ↔ IsSame started later) := by
  have hrecord : ∀ runtimeName, recordIdentity runtimeName pid (readProc pid (some started)) =
      .ok ⟨some runtimeName, some pid, some identity.1, some identity.2⟩ := by
    intro runtimeName
    rw [hread]
    rfl
  have hstatus : ∀ (s : State) (instanceId : Text) (look : Look) (runtimeName : String),
      s.processes.get? instanceId = none →
      s.runtime = ⟨some runtimeName, some pid, some identity.1, some identity.2⟩ →
      statusOf s instanceId look = (do
        let found ← procIdentity look.proc
        return ⟨s.runtime.verifies found, some pid, none, s.runtime.verifies found,
          if s.runtime.verifies found then none
          else some "recorded process identity cannot be proven"⟩) := by
    intro s instanceId look runtimeName hnone hruntime
    unfold statusOf
    rw [hnone]
    dsimp only
    rw [hruntime]
    dsimp only
    rw [if_neg (by omega)]
  constructor
  · intro hkeeps
    obtain ⟨runtime, hruntime, hall⟩ := hkeeps "process"
    rw [hrecord "process"] at hruntime
    cases hruntime
    obtain ⟨status, hok, halive⟩ := hall
      ⟨∅, .empty, [], 0, ⟨some "process", some pid, some identity.1, some identity.2⟩,
        ⟨true, 0, readProc pid later⟩⟩ [] ⟨true, 0, readProc pid later⟩ rfl rfl rfl
    rw [hstatus _ _ _ "process" rfl rfl] at hok
    obtain ⟨found, hfound, hstatus⟩ := Except.bind_eq_ok.mp hok
    cases Except.pure_eq_ok.mp hstatus
    exact ⟨found, hfound, (verifies_iff rfl rfl hne).symm.trans halive⟩
  · rintro ⟨found, hfound, hsame⟩ runtimeName
    refine ⟨_, hrecord runtimeName, fun s instanceId look hnone hruntime hlook => ?_⟩
    rw [hstatus s instanceId look runtimeName hnone hruntime, hlook, hfound]
    refine ⟨_, rfl, ?_⟩
    exact (verifies_iff (by rw [hruntime]) (by rw [hruntime]) hne).trans hsame

theorem decimal_injective : Function.Injective decimal := by
  intro m n h
  rw [← Address.decimalValue_decimal m, ← Address.decimalValue_decimal n, h]

/-- Of a name that is not plain something is no UTF-8, or the field has white space. -/
theorem Comm.isPlain_iff {comm : Comm} :
    comm.IsPlain ↔ comm.field.Encodable ∧ ∀ d ∈ comm.field, d.isSpace = false := by
  rw [encodable_field_iff, isSpace_field_iff]
  exact forall₂_and

end Keeping

/-! ## Names that keep identities -/

theorem isField_sample : ∀ field ∈ (Text.of "S" :: List.replicate 18 (.of "0")) ++ [], IsField field := by
  intro field hfield
  rw [List.append_nil] at hfield
  unfold IsField
  rcases List.mem_cons.mp hfield with rfl | hfield
  · decide
  · rw [List.eq_of_mem_replicate hfield]
    decide

/-- The executable of the processes below. -/
def sampleLink : {link : Text // link ≠ []} := ⟨ofChar '/' :: Text.of "bin/bbs", List.cons_ne_nil _ _⟩

/-- A process with a name that was started at a time, and has `0` in its other fields. -/
def sampleEntry (comm : Comm) (start : ℕ) : Entry where
  exe := some sampleLink
  stat := ⟨comm, .of "S" :: List.replicate 18 (.of "0"), start, [], rfl, isField_sample⟩

/-- The word that is read of it: the start time, or `0` where the name has white space. -/
def sampleTicks (comm : Comm) (start : ℕ) : Text :=
  if ∀ d ∈ comm.field, d.isSpace = false then decimal start else .of "0"

theorem readProc_sampleEntry {comm : Comm} (pid start : ℕ) (hname : comm.field.Encodable) :
    readProc pid (some (sampleEntry comm start)) = .ok (sampleLink.1, sampleTicks comm start) := by
  have hticks : ((sampleEntry comm start).stat.line pid).words[21]? = some (sampleTicks comm start) := by
    unfold sampleTicks
    split
    · rename_i hsolid
      exact ticks_of_solid (sampleEntry comm start).stat pid hsolid
    · rename_i hspaced
      obtain ⟨i, hlow, hhigh, hticks⟩ := ticks_of_spaced (sampleEntry comm start).stat pid hspaced
      rw [hticks]
      obtain ⟨j, rfl⟩ := Nat.exists_eq_add_of_le' (Nat.le_of_succ_le hlow)
      change (Text.of "S" :: List.replicate 18 (Text.of "0"))[j + 3]? = _
      rw [List.getElem?_cons_succ, List.getElem?_replicate, if_pos (by omega)]
  exact readProc_of_ticks rfl hname hticks

theorem isSame_sampleEntry {started later : Comm} {start : ℕ} :
    IsSame (sampleEntry started 1) (some (sampleEntry later start)) ↔ start = 1 := by
  constructor
  · rintro ⟨entry, hentry, -, hstart⟩
    rw [← Option.some.inj hentry] at hstart
    exact hstart
  · rintro rfl
    exact ⟨_, rfl, rfl, rfl⟩

/-- **Which names keep identities**: those that are UTF-8 and have no white space but newlines. -/
theorem namesKeepIdentity_iff (started later : Comm) :
    NamesKeepIdentity started later ↔ started.IsPlain ∧ later.IsPlain := by
  constructor
  · intro hkeeps
    have hsample : ∀ start, KeepsIdentity 2 (sampleEntry started 1) (some (sampleEntry later start)) := by
      intro start
      refine hkeeps 2 _ _ (by decide) (Option.some_ne_none _) rfl fun entry hentry => ?_
      rw [← Option.some.inj hentry]
      rfl
    have hstarted : started.field.Encodable := by
      by_contra hname
      obtain ⟨runtime, hrecord, -⟩ := hsample 1 "process"
      have hread : readProc 2 (some (sampleEntry started 1)) = .error .unicodeDecodeError :=
        readProc_of_not_encodable rfl hname
      rw [hread] at hrecord
      cases hrecord
    have hne : sampleTicks started 1 ≠ [] := by
      unfold sampleTicks
      split
      · exact Address.decimal_ne_nil 1
      · decide
    have hfound := fun start => (keepsIdentity_iff (by decide) (readProc_sampleEntry 2 1 hstarted)
      ⟨sampleLink.2, hne⟩).mp (hsample start)
    have hlater : later.field.Encodable := by
      by_contra hname
      obtain ⟨found, hok, -⟩ := hfound 1
      have hread : readProc 2 (some (sampleEntry later 1)) = .error .unicodeDecodeError :=
        readProc_of_not_encodable rfl hname
      rw [hread] at hok
      cases hok
    -- what is read later is what was recorded for the same start time and for no other
    have hticks : ∀ start, sampleTicks later start = sampleTicks started 1 ↔ start = 1 := by
      intro start
      obtain ⟨found, hok, hsame⟩ := hfound start
      rw [readProc_sampleEntry 2 start hlater] at hok
      cases hok
      rw [isSame_sampleEntry, Option.some.injEq, Prod.mk.injEq] at hsame
      exact (and_iff_right rfl).symm.trans hsame
    have hone := (hticks 1).mpr rfl
    have htwo := mt (hticks 2).mp (by decide)
    unfold sampleTicks at hone htwo
    rw [Comm.isPlain_iff, Comm.isPlain_iff]
    by_cases hsolid : ∀ d ∈ started.field, d.isSpace = false
    · by_cases hsolid' : ∀ d ∈ later.field, d.isSpace = false
      · exact ⟨⟨hstarted, hsolid⟩, hlater, hsolid'⟩
      · rw [if_neg hsolid', if_pos hsolid] at hone
        exact absurd hone (by decide)
    · by_cases hsolid' : ∀ d ∈ later.field, d.isSpace = false
      · rw [if_pos hsolid', if_neg hsolid] at hone
        exact absurd hone (by decide)
      · rw [if_neg hsolid', if_neg hsolid] at htwo
        exact absurd rfl htwo
  · rintro ⟨hstarted, hlater⟩ pid process table hpid hexe rfl htable
    rw [Comm.isPlain_iff] at hstarted hlater
    obtain ⟨executable, hexe⟩ := Option.ne_none_iff_exists'.mp hexe
    have hread := readProc_of_ticks hexe hstarted.1 (ticks_of_solid process.stat pid hstarted.2)
    refine (keepsIdentity_iff hpid hread ⟨executable.2, Address.decimal_ne_nil _⟩).mpr ?_
    cases table with
    | none =>
        refine ⟨none, rfl, iff_of_false (Option.some_ne_none _).symm ?_⟩
        rintro ⟨entry, hentry, -⟩
        cases hentry
    | some entry =>
        have hname := htable entry rfl
        have hsame : IsSame process (some entry) ↔
            entry.exe = process.exe ∧ entry.stat.start = process.stat.start := by
          constructor
          · rintro ⟨other, hother, hsame⟩
            rwa [← Option.some.inj hother] at hsame
          · exact fun hsame => ⟨entry, rfl, hsame⟩
        rw [hsame, hexe]
        cases hlink : entry.exe with
        | none =>
            have hread' : readProc pid (some entry) = .error .osError := by
              unfold readProc
              dsimp only
              rw [hlink]
            rw [hread']
            exact ⟨none, rfl, iff_of_false (Option.some_ne_none _).symm fun h =>
              Option.some_ne_none _ h.1.symm⟩
        | some link =>
            rw [← hname] at hlater
            rw [readProc_of_ticks hlink hlater.1 (ticks_of_solid entry.stat pid hlater.2)]
            refine ⟨_, rfl, ?_⟩
            rw [Option.some.injEq, Prod.mk.injEq, Option.some.injEq, Subtype.ext_iff,
              decimal_injective.eq_iff]

/-- A name with a blank in it. -/
def spacedName : Comm := ⟨.of "bbs door", by decide⟩

/-- The surrogate that a byte `E9` is shown as. -/
def latinByte : CodePoint := ⟨0xDCE9, by decide⟩

/-- A name with a byte that is no UTF-8. -/
def latinName : Comm := ⟨Text.of "bbs" ++ [latinByte], by decide⟩

/-- A process that has the pid of an earlier one is taken for it, and of the other one nothing is
recorded. -/
theorem not_keepsIdentity_spaced :
    ¬ KeepsIdentity 4711 (sampleEntry spacedName 1) (some (sampleEntry spacedName 2)) ∧
      ¬ KeepsIdentity 4711 (sampleEntry latinName 1) none := by
  constructor
  · intro hkeeps
    have hname : spacedName.field.Encodable := by decide
    have hticks : ∀ start, sampleTicks spacedName start = .of "0" := fun start => if_neg (by decide)
    have hread := readProc_sampleEntry 4711 1 hname
    have hread' := readProc_sampleEntry 4711 2 hname
    rw [hticks] at hread hread'
    obtain ⟨found, hok, hsame⟩ :=
      (keepsIdentity_iff (by decide) hread ⟨sampleLink.2, by decide⟩).mp hkeeps
    rw [hread'] at hok
    cases hok
    exact absurd (isSame_sampleEntry.mp (hsame.mp rfl)) (by decide)
  · intro hkeeps
    obtain ⟨runtime, hrecord, -⟩ := hkeeps "process"
    have hread : readProc 4711 (some (sampleEntry latinName 1)) = .error .unicodeDecodeError :=
      readProc_of_not_encodable rfl (by decide)
    rw [hread] at hrecord
    cases hrecord

end UltimateBBSBox.Runtime

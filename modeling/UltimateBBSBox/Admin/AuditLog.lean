import UltimateBBSBox.Archive.JsonText
import UltimateBBSBox.Library.LineLog

/-!
# The audit log

`AuditLog` of `audit.py`: `append` writes one line, which an error or the end of the process
may cut short, and `read` decodes the last lines.  The records that `read` returns are the
last ones that were written as long as no line among them, or right before them, is torn
(`read_of_untorn`).

All that is written is ASCII, so that a byte of the file is a character.
-/

namespace UltimateBBSBox.Admin.AuditLog

open Archive Archive.JsonText LineLog Text

/-! ## `append` -/

/-- A record: its keys and texts in the order of the keys. -/
abbrev Record : Type := List (Text × Text)

/-- The arguments of `append`. -/
structure Arguments where
  actor : Text
  role : Text
  action : Text
  target : Text
  result : Text
  source : Text
  message : Text
  requestId : Option Text
  remote : Option Text

/-- How an operation ends that does not come to its end. -/
inductive Ended | raised | crashed
deriving DecidableEq

/-- A call of `append`: what it is given, and what becomes of its operations.  The process is gone
when there are no more answers to its writes. -/
structure Attempt where
  arguments : Arguments
  timestamp : Text
  token : Text
  opening : Option Ended
  writes : List (Except Ended ℕ)
  syncing : Option Ended

/-- `text or default`. -/
def orElse (text : Option Text) (default : Text) : Text :=
  match text with
  | none | some [] => default
  | some text => text

/-- `while offset < len(payload): offset += os.write(fd, payload[offset:])`. -/
def writeAll (length : ℕ) : ℕ → List (Except Ended ℕ) → ℕ × Option Ended
  | offset, [] => (offset, if length ≤ offset then none else some .crashed)
  | offset, answer :: rest =>
      if length ≤ offset then (offset, none)
      else
        match answer with
        | .ok count => writeAll length (offset + min count (length - offset)) rest
        | .error ended => (offset, some ended)

namespace Attempt

variable (attempt : Attempt)

/-- `record`, sorted. -/
def record : Record :=
  [(.of "action", attempt.arguments.action), (.of "actor", attempt.arguments.actor),
    (.of "message", attempt.arguments.message.take 500)] ++
  (match attempt.arguments.remote with
    | none | some [] => []
    | some remote => [(.of "remote", remote)]) ++
  [(.of "request_id", orElse attempt.arguments.requestId attempt.token),
    (.of "result", attempt.arguments.result), (.of "role", attempt.arguments.role),
    (.of "source", attempt.arguments.source), (.of "target", attempt.arguments.target),
    (.of "timestamp", attempt.timestamp)]

/-- `payload`. -/
def payload : Text := dumps attempt.record ++ [newline]

/-- How far the loop comes, and how it ends. -/
def writing : ℕ × Option Ended := writeAll attempt.payload.length 0 attempt.writes

/-- What `append` returns. -/
def outcome : Except Ended Record :=
  match attempt.opening.or (attempt.writing.2.or attempt.syncing) with
  | some ended => .error ended
  | none => .ok attempt.record

/-- The characters that are written. -/
def written : ℕ := if attempt.opening.isSome then 0 else attempt.writing.1

/-- The file after the call. -/
def append (file : Option Text) : Option Text :=
  if attempt.opening.isSome then file
  else some (file.getD [] ++ attempt.payload.take attempt.writing.1)

end Attempt

/-- The file after some calls, the first one first; before them it is missing. -/
def fileAfter (attempts : List Attempt) : Option Text :=
  attempts.foldl (fun file attempt => attempt.append file) none

/-- `read`; the file that is missing has no records. -/
def read (float : Text → Number) (limit : ℕ) (file : Option Text) : Except Archive.Exn (List Archive.Value) :=
  match file with
  | none => .ok []
  | some text => ((lastLines limit (splitlines text)).reverse.filter (· ≠ [])).mapM (loads float)

/-! ## What is in the file -/

/-- The pieces that the calls write. -/
def pieces (attempts : List Attempt) : List (Piece Record) :=
  attempts.map fun attempt => ⟨attempt.record, attempt.written⟩

section File

variable {attempt : Attempt} {attempts : List Attempt} {float : Text → Number} {n : ℕ}

/-- A line is not empty, and has no breaks in it. -/
theorem dumps_line (record : Record) :
    dumps record ≠ [] ∧ ∀ c ∈ dumps record, isLineBreak c = false := by
  refine ⟨List.cons_ne_nil _ _, fun c hc => ?_⟩
  have hprintable := printable_dumps record c hc
  unfold Printable at hprintable
  unfold isLineBreak
  simp only [List.mem_cons, List.not_mem_nil, or_false, decide_eq_false_iff_not]
  omega

theorem getD_append (file : Option Text) :
    (attempt.append file).getD [] = file.getD [] ++ attempt.payload.take attempt.written := by
  unfold Attempt.append Attempt.written
  split_ifs with hopening
  · rw [List.take_zero, List.append_nil]
  · rfl

/-- The file holds the pieces of all calls. -/
theorem getD_fileAfter (attempts : List Attempt) :
    (fileAfter attempts).getD [] = LineLog.content dumps (pieces attempts) := by
  have hfold : ∀ (file : Option Text), (attempts.foldl (fun file attempt => attempt.append file) file).getD [] =
      file.getD [] ++ LineLog.content dumps (pieces attempts) := by
    induction attempts with
    | nil => exact fun file => (List.append_nil _).symm
    | cons attempt attempts ih =>
        intro file
        rw [List.foldl_cons, ih, getD_append, List.append_assoc]
        rfl
  exact (hfold none).trans (List.nil_append _)

/-- The loop that ends well has written everything. -/
theorem le_writeAll {length offset : ℕ} {answers : List (Except Ended ℕ)}
    (h : (writeAll length offset answers).2 = none) : length ≤ (writeAll length offset answers).1 := by
  induction answers generalizing offset with
  | nil =>
      unfold writeAll at h ⊢
      split_ifs at h with hdone
      exact hdone
  | cons answer rest ih =>
      unfold writeAll at h ⊢
      split_ifs at h ⊢ with hdone
      · exact hdone
      · cases answer with
        | ok count => exact ih h
        | error ended => cases h

/-- A call that returns has written its line. -/
theorem complete_of_returned {record : Record} (h : attempt.outcome = .ok record) :
    (⟨attempt.record, attempt.written⟩ : Piece Record).Complete dumps := by
  unfold Attempt.outcome at h
  cases hopening : attempt.opening with
  | some ended =>
      rw [hopening] at h
      cases h
  | none =>
      -- the loop goes on until the whole payload is written, newline included
      have hwriting : attempt.writing.2 = none := by
        cases hended : attempt.writing.2 with
        | none => rfl
        | some ended =>
            rw [hopening, hended] at h
            cases h
      have hlength : attempt.payload.length = (dumps attempt.record).length + 1 := List.length_append
      have hall : attempt.payload.length ≤ attempt.writing.1 := le_writeAll hwriting
      have hwritten : attempt.written = attempt.writing.1 := by
        unfold Attempt.written
        rw [hopening]
        rfl
      show (dumps attempt.record).length ≤ attempt.written
      omega

/-- The records that were written are those of calls. -/
theorem exists_of_mem_records {record : Record} (h : record ∈ records dumps (pieces attempts)) :
    ∃ attempt ∈ attempts, attempt.record = record := by
  obtain ⟨piece, hmem, rfl⟩ := List.mem_map.mp h
  obtain ⟨attempt, hattempt, rfl⟩ := List.mem_map.mp (List.mem_filter.mp (List.mem_reverse.mp hmem)).1
  exact ⟨attempt, hattempt, rfl⟩

/-- The keys of a record are different texts without surrogates. -/
theorem keys_record (attempt : Attempt) :
    (attempt.record.map Prod.fst).Nodup ∧ ∀ key ∈ attempt.record.map Prod.fst, Unpaired key := by
  have hnames : ∃ names : List String, names.Nodup ∧ attempt.record.map Prod.fst = names.map Text.of := by
    unfold Attempt.record
    split
    · exact ⟨["action", "actor", "message", "request_id", "result", "role", "source", "target",
        "timestamp"], by decide, rfl⟩
    · exact ⟨["action", "actor", "message", "request_id", "result", "role", "source", "target",
        "timestamp"], by decide, rfl⟩
    · exact ⟨["action", "actor", "message", "remote", "request_id", "result", "role", "source", "target",
        "timestamp"], by decide, rfl⟩
  obtain ⟨names, hnodup, hkeys⟩ := hnames
  rw [hkeys]
  refine ⟨hnodup.map fun _ _ => Text.of_inj.mp, fun key hkey => ?_⟩
  obtain ⟨name, -, rfl⟩ := List.mem_map.mp hkey
  exact unpaired_of_encodable (Text.encodable_of name)

/-- A record that was written reads back. -/
theorem loads_record (float : Text → Number) (h : ∀ field ∈ attempt.record, Unpaired field.2) :
    loads float (dumps attempt.record) = .ok (.object (valuesOf attempt.record)) := by
  obtain ⟨hnodup, hkeys⟩ := keys_record attempt
  exact loads_dumps float attempt.record
    (fun field hfield => ⟨hkeys field.1 (List.mem_map_of_mem hfield), h field hfield⟩) hnodup

end File

/-- **The last records are read as long as nothing among them is torn.** -/
theorem read_of_untorn (float : Text → Number) (attempts : List Attempt) (n : ℕ)
    (huntorn : Untorn dumps n (pieces attempts))
    (hunpaired : ∀ record ∈ (records dumps (pieces attempts)).take n, ∀ field ∈ record, Unpaired field.2) :
    read float n (fileAfter attempts) =
        .ok (((records dumps (pieces attempts)).take n).map fun record => .object (valuesOf record)) ∧
      ∀ attempt ∈ attempts, ∀ record, attempt.outcome = .ok record →
        record ∈ records dumps (pieces attempts) := by
  constructor
  · have hcontent : read float n (fileAfter attempts) =
        ((lastLines n (splitlines (LineLog.content dumps (pieces attempts)))).reverse.filter (· ≠ [])).mapM
          (loads float) := by
      rw [← getD_fileAfter]
      unfold read
      cases fileAfter attempts with
      | none =>
          -- a log that does not exist is read like an empty one
          have hempty : lastLines n (splitlines []) = [] := by
            unfold lastLines
            split_ifs
            · rfl
            · exact List.drop_nil
          simp only [Option.getD_none, hempty]
          rfl
      | some text => rfl
    have hnonempty : (((records dumps (pieces attempts)).take n).map dumps).filter (· ≠ []) =
        ((records dumps (pieces attempts)).take n).map dumps := by
      refine List.filter_eq_self.mpr fun line hline => ?_
      obtain ⟨record, -, rfl⟩ := List.mem_map.mp hline
      exact decide_eq_true (dumps_line record).1
    rw [hcontent, lastLines_content dumps_line huntorn, List.reverse_reverse, hnonempty]
    rw [List.mapM_map]
    refine Except.mapM_eq_ok fun record hrecord => ?_
    obtain ⟨attempt, -, rfl⟩ := exists_of_mem_records (List.mem_of_mem_take hrecord)
    exact loads_record float (hunpaired _ hrecord)
  · intro attempt hmem record hreturned
    have hcomplete := complete_of_returned hreturned
    have hsame : attempt.record = record := by
      unfold Attempt.outcome at hreturned
      split at hreturned
      · cases hreturned
      · exact Except.ok.inj hreturned
    rw [← hsame]
    refine List.mem_map.mpr ⟨⟨attempt.record, attempt.written⟩, List.mem_reverse.mpr ?_, rfl⟩
    exact List.mem_filter.mpr ⟨List.mem_map_of_mem hmem, decide_eq_true hcomplete⟩

/-- A start of a service, of whose line so much is written. -/
def startOf (writes : List (Except Ended ℕ)) : Attempt where
  arguments :=
    { actor := .of "olga"
      role := .of "operator"
      action := .of "start"
      target := .of "demo"
      result := .of "success"
      source := .of "web"
      message := []
      requestId := none
      remote := none }
  timestamp := .of "2026-01-01T00:00:00+00:00"
  token := .of "q7pXl0"
  opening := none
  writes := writes
  syncing := none

/-- A torn line, and two whole ones after it: the last record is read. -/
theorem read_last_of_three :
    read (fun _ => .nan) 1 (fileAfter [startOf [.ok 5], startOf [.ok 1000], startOf [.ok 40, .ok 1000]]) =
      .ok [.object (valuesOf (startOf []).record)] := by
  have hlast : ∀ piece ∈ (started (pieces
      [startOf [.ok 5], startOf [.ok 1000], startOf [.ok 40, .ok 1000]])).head?,
        piece.Complete dumps := by decide +kernel
  have hwhole : ∀ piece ∈ ((started (pieces
      [startOf [.ok 5], startOf [.ok 1000], startOf [.ok 40, .ok 1000]])).take 2).tail,
        (dumps piece.record).length < piece.written := by decide +kernel
  have hrecords : (records dumps (pieces
      [startOf [.ok 5], startOf [.ok 1000], startOf [.ok 40, .ok 1000]])).take 1 =
        [(startOf []).record] := by decide +kernel
  have hencodable : ∀ field ∈ (startOf []).record, field.2.Encodable := by decide
  have hread := (read_of_untorn (fun _ => .nan)
    [startOf [.ok 5], startOf [.ok 1000], startOf [.ok 40, .ok 1000]] 1
    ⟨fun h => absurd h (by decide), hlast, hwhole⟩ ?_).1
  · rw [hread, hrecords]
    rfl
  · rw [hrecords, List.forall_mem_singleton]
    exact fun field hfield => unpaired_of_encodable (hencodable field hfield)

/-- A torn line runs into the one after it: the file is not read. -/
theorem read_torn :
    (read (fun _ => .nan) 100 (fileAfter [startOf [.ok 5], startOf [.ok 1000]])).isOk = false := by
  decide +kernel

end UltimateBBSBox.Admin.AuditLog

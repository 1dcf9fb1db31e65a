import UltimateBBSBox.Library.DateTime
import UltimateBBSBox.Supervisor.Lifecycle

/-!
# Interval and daily schedules

`scheduler.py`.  The two patterns `^every\s+(\d+)\s*([mhd])$` and
`^daily(?:\s+at)?\s+(\d{1,2}):(\d{2})$`, both case-insensitive and matched
against the stripped schedule, are read by hand-written scanners over the same
character classes: the letters, digits and blanks of the two patterns never
overlap, so neither ever has to give characters back.

A timestamp is kept as the datetime it spells; `parse_timestamp` undoes
`isoformat`.
-/

namespace UltimateBBSBox.Supervisor

/-- `parse_timestamp`, on the datetime a timestamp spells. -/
def parseTimestamp (value : Option DateTime) : Option DateTime := value

namespace Scheduler

/-! ## Character classes -/

/-- The characters of `\s`, which are also the ones `str.strip` removes. -/
def isBlank (c : Char) : Bool :=
  c.toNat ∈ [0x9, 0xa, 0xb, 0xc, 0xd, 0x1c, 0x1d, 0x1e, 0x1f, 0x20, 0x85, 0xa0, 0x1680, 0x2028,
    0x2029, 0x202f, 0x205f, 0x3000] ∨ (0x2000 ≤ c.toNat ∧ c.toNat ≤ 0x200a)

/-- The zeros of the decimal digits `\d` matches; nine more digits follow each. -/
def digitZeros : List ℕ :=
  [0x30, 0x660, 0x6f0, 0x7c0, 0x966, 0x9e6, 0xa66, 0xae6, 0xb66, 0xbe6, 0xc66, 0xce6, 0xd66,
    0xde6, 0xe50, 0xed0, 0xf20, 0x1040, 0x1090, 0x17e0, 0x1810, 0x1946, 0x19d0, 0x1a80, 0x1a90,
    0x1b50, 0x1bb0, 0x1c40, 0x1c50, 0xa620, 0xa8d0, 0xa900, 0xa9d0, 0xa9f0, 0xaa50, 0xabf0,
    0xff10, 0x104a0, 0x10d30, 0x11066, 0x110f0, 0x11136, 0x111d0, 0x112f0, 0x11450, 0x114d0,
    0x11650, 0x116c0, 0x11730, 0x118e0, 0x11950, 0x11c50, 0x11d50, 0x11da0, 0x16a60, 0x16ac0,
    0x16b50, 0x1d7ce, 0x1d7d8, 0x1d7e2, 0x1d7ec, 0x1d7f6, 0x1e140, 0x1e2f0, 0x1e950, 0x1fbf0]

/-- The value of a decimal digit. -/
def digitValue (c : Char) : Option ℕ :=
  (digitZeros.find? fun first => first ≤ c.toNat ∧ c.toNat < first + 10).map (c.toNat - ·)

/-- `re.I` equality with a lower-case letter of the patterns; besides the two
cases, `i` also matches the dotted capital and the dotless small i. -/
def sameLetter (letter c : Char) : Bool :=
  c = letter ∨ c = letter.toUpper ∨ (letter = 'i' ∧ c.toNat ∈ [0x130, 0x131])

/-! ## Scanners -/

/-- `str.strip`. -/
def strip (chars : List Char) : List Char :=
  ((chars.dropWhile isBlank).reverse.dropWhile isBlank).reverse

/-- Read a word of a pattern. -/
def word : List Char → List Char → Option (List Char)
  | [], rest => some rest
  | letter :: letters, c :: rest => if sameLetter letter c then word letters rest else none
  | _ :: _, [] => none

/-- Read `\s+`. -/
def blanks : List Char → Option (List Char)
  | c :: rest => if isBlank c then some (rest.dropWhile isBlank) else none
  | [] => none

/-- Read `\d+`, as many digits as there are. -/
def digits : List Char → List ℕ × List Char
  | [] => ([], [])
  | c :: rest =>
      match digitValue c with
      | none => ([], c :: rest)
      | some d => (d :: (digits rest).1, (digits rest).2)

/-- The number a row of digits spells. -/
def number (ds : List ℕ) : ℕ := ds.foldl (fun n d => 10 * n + d) 0

/-- The longest digit string `int` converts. -/
def maxIntDigits : ℕ := 4300

/-- `INTERVAL.fullmatch`: the digits of the count and the unit in seconds. -/
def matchInterval (chars : List Char) : Option (List ℕ × ℕ) := do
  let rest ← word "every".toList chars
  let rest ← blanks rest
  match digits rest with
  | ([], _) => none
  | (ds, rest) =>
      match rest.dropWhile isBlank with
      | [c] =>
          if sameLetter 'm' c then some (ds, 60)
          else if sameLetter 'h' c then some (ds, 3600)
          else if sameLetter 'd' c then some (ds, 86400)
          else none
      | _ => none

/-- `DAILY.fullmatch`: the hour and the minute. -/
def matchDaily (chars : List Char) : Option (ℕ × ℕ) := do
  let rest ← word "daily".toList chars
  let rest ← blanks rest
  let rest ← match word "at".toList rest with
    | some rest => blanks rest
    | none => some rest
  match digits rest with
  | (ds, ':' :: rest) =>
      match digits rest with
      | (ds', []) =>
          if (ds.length = 1 ∨ ds.length = 2) ∧ ds'.length = 2 then some (number ds, number ds')
          else none
      | _ => none
  | _ => none

/-! ## Due times -/

/-- `now.replace(hour=hour, minute=minute, second=0, microsecond=0)`. -/
def replaceTime (now : DateTime) (hour minute : ℕ) (h : hour ≤ 23 ∧ minute ≤ 59) : DateTime where
  wall := now.wall / microsPerDay * microsPerDay + (hour * 3600 + minute * 60) * microsPerSecond
  offset := now.offset
  inRange := by
    have := now.inRange
    simp only [maxWall, microsPerDay, microsPerSecond] at *
    omega

/-- `is_due`. -/
def isDue (schedule : String) (now : DateTime) (lastRun : Option DateTime) : Except Exn Bool :=
  let previous := parseTimestamp lastRun
  let chars := strip schedule.toList
  match matchInterval chars with
  | some (ds, unit) =>
      if maxIntDigits < ds.length then
        .error ⟨.valueError, s!"Exceeds the limit ({maxIntDigits} digits) for integer string " ++
          s!"conversion: value has {ds.length} digits"⟩
      else if number ds < 1 then
        .error ⟨.supervisorError, s!"invalid interval schedule: {schedule}"⟩
      else
        match previous with
        | none => .ok true
        | some previous =>
            match (timedelta (number ds * unit : ℕ)).bind previous.add with
            | none => .error ⟨.overflowError, "date value out of range"⟩
            | some due => .ok (due.instant ≤ now.instant)
  | none =>
      match matchDaily chars with
      | some (hour, minute) =>
          if h : hour ≤ 23 ∧ minute ≤ 59 then
            let scheduled := replaceTime now hour minute h
            .ok (decide (scheduled.instant ≤ now.instant) &&
              match previous with
              | none => true
              | some previous => decide (previous.instant < scheduled.instant))
          else .error ⟨.supervisorError, s!"invalid daily schedule: {schedule}"⟩
      | none =>
          .error ⟨.supervisorError, s!"unsupported maintenance schedule: '{schedule}'"⟩

/-- A schedule of neither pattern is refused. -/
theorem isDue_of_unsupported {schedule : String} {now : DateTime} {lastRun : Option DateTime}
    (h : matchInterval (strip schedule.toList) = none)
    (hdaily : matchDaily (strip schedule.toList) = none) :
    ∃ message, isDue schedule now lastRun = .error ⟨.supervisorError, message⟩ := by
  simp only [isDue, h, hdaily]
  exact ⟨_, rfl⟩

example : matchInterval (strip " Every 6H ".toList) = some ([6], 3600) := by decide

example : matchDaily "daily at 03:00".toList = some (3, 0) := by decide

end Scheduler

end UltimateBBSBox.Supervisor

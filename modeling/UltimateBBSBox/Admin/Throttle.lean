import Mathlib.Data.Rat.Floor
import UltimateBBSBox.Library.Dict

/-!
# The login throttle

`LoginThrottle` counts the failed logins of a user name and of a source.  From the
fourth failure on an entry carries a deadline, and an attempt before it is refused.
The table stays within `max_entries`; the entries that were updated longest ago go
first.

The clock readings, which the source holds as floating point numbers, are rationals.
-/

namespace UltimateBBSBox.Admin

/-- What a backoff entry is about. -/
inductive Kind
  | user
  | source
deriving DecidableEq

/-- Failures and deadline of each user name and source, the last updated one last. -/
abbrev Entries := Dict (Kind × String) (ℕ × ℚ)

namespace LoginThrottle

/-- The seconds to wait after a number of failures in a row. -/
def delay (failures : ℕ) : ℕ :=
  if failures < 4 then 0 else min 60 (5 * 2 ^ (failures - 4))

/-- The keys whose deadline has passed. -/
def expired (now : ℚ) (entries : Entries) : List (Kind × String) :=
  (entries.entries.filter fun entry => 4 ≤ entry.2.1 ∧ entry.2.2 ≤ now).map Prod.fst

/-- Drop what has expired, and then the oldest entries beyond the bound. -/
def cleanup (maxEntries : ℕ) (now : ℚ) (entries : Entries) : Entries :=
  let kept := entries.popAll (expired now entries)
  kept.popOldest (kept.size - maxEntries)

theorem size_cleanup_le (maxEntries : ℕ) (now : ℚ) (entries : Entries) :
    (cleanup maxEntries now entries).size ≤ maxEntries := by
  unfold cleanup
  rw [Dict.size_popOldest]
  omega

/-- One more failure of a key, which becomes the last updated one. -/
def count (now : ℚ) (key : Kind × String) (entries : Entries) : ℕ × Entries :=
  let failures := (entries.getD key (0, now)).1 + 1
  (delay failures, (entries.pop key).set key (failures, now + delay failures))

/-- Python's `int`: towards zero. -/
def truncate (x : ℚ) : ℤ := if 0 ≤ x then ⌊x⌋ else ⌈x⌉

end LoginThrottle

/-- The throttle; between two calls the table is within its bound. -/
structure LoginThrottle where
  maxEntries : ℕ
  entries : Entries
  bounded : entries.size ≤ maxEntries

namespace LoginThrottle

/-- The table when the dashboard starts. -/
def fresh (maxEntries : ℕ) : LoginThrottle := ⟨maxEntries, ∅, Nat.zero_le _⟩

/-- The table after the sweep every call starts with. -/
def swept (throttle : LoginThrottle) (now : ℚ) : LoginThrottle where
  maxEntries := throttle.maxEntries
  entries := cleanup throttle.maxEntries now throttle.entries
  bounded := size_cleanup_le _ _ _

/-- The seconds an attempt of a user from a source still has to wait. -/
def retryAfter (throttle : LoginThrottle) (now : ℚ) (username source : String) :
    ℤ × LoginThrottle :=
  let entries := (throttle.swept now).entries
  let deadline := max (entries.getD (.user, username) (0, 0)).2
    (entries.getD (.source, source) (0, 0)).2
  (max 0 (truncate (deadline - now + 999 / 1000)), throttle.swept now)

/-- A failed login: both entries count it, and the longer delay is the answer. -/
def failure (throttle : LoginThrottle) (now : ℚ) (username source : String) :
    ℕ × LoginThrottle :=
  let (userDelay, entries) := count now (.user, username) (throttle.swept now).entries
  let (sourceDelay, entries) := count now (.source, source) entries
  (max userDelay sourceDelay,
    { maxEntries := throttle.maxEntries
      entries := cleanup throttle.maxEntries now entries
      bounded := size_cleanup_le _ _ _ })

/-- A successful login forgets both entries. -/
def success (throttle : LoginThrottle) (username source : String) : LoginThrottle where
  maxEntries := throttle.maxEntries
  entries := (throttle.entries.pop (.user, username)).pop (.source, source)
  bounded := ((Dict.size_pop_le _ _).trans (Dict.size_pop_le _ _)).trans throttle.bounded

end LoginThrottle

end UltimateBBSBox.Admin

import Mathlib.Data.Rat.Defs
import Mathlib.Algebra.Order.Ring.Rat
import UltimateBBSBox.Library.Dict

/-!
# Admin accounts, roles and web sessions

`AuthStore` keeps the accounts in a file of its own; `SessionStore` keeps the web
sessions in memory.  A session copies the role of the account it was opened for, and
nothing connects it to the account afterwards.

What the standard library computes of texts and bytes is given by `Python`; the random
salt of a password hash is an argument.
-/

namespace UltimateBBSBox.Admin

/-! ## Exceptions -/

/-- Python exceptions, as far as the handlers tell them apart.  `exit` stands for those
that are no `Exception`, such as `KeyboardInterrupt` and `SystemExit`. -/
inductive Exn
  | permissionError (message : String)
  | valueError (message : String)
  | notImplementedError (message : String)
  | backupError (message : String)
  | other (message : String)
  | exit
deriving DecidableEq

/-! ## Roles -/

/-- `ROLES.get(role, -1)`. -/
def rank (role : String) : ℤ :=
  if role = "viewer" then 0
  else if role = "operator" then 1
  else if role = "administrator" then 2
  else -1

/-! ## Random tokens -/

/-- Whether a text consists of ASCII characters only. -/
def isAscii (text : String) : Bool := text.toList.all fun c => c.toNat < 128

/-- What `secrets.token_urlsafe` returns. -/
structure Token where
  text : String
  ascii : isAscii text
deriving DecidableEq

/-! ## The standard library -/

/-- The fields of a form: one value or more each. -/
abbrev Form := Dict String (String × List String)

/-- The standard library's functions that the dashboard uses: on the target, the length and
the body of a request, and for password hashes.  `maxRead` is the largest size that can be
asked of `read`; `pbkdf2` is `pbkdf2_hmac` with SHA-256. -/
structure Python where
  urlPath : String → Except Exn String
  int : String → Except Exn ℤ
  maxRead : ℕ
  decode : List UInt8 → Except Exn String
  parseQs : String → Form
  pbkdf2 : String → List UInt8 → ℤ → Except Exn (List UInt8)
  b64encode : List UInt8 → String
  b64decode : String → Except Exn (List UInt8)

/-- `text.split(sep, n)`. -/
def splitAtMost (sep : Char) : ℕ → List Char → List (List Char)
  | 0, text => [text]
  | n + 1, text =>
      match text.dropWhile (· ≠ sep) with
      | [] => [text]
      | _ :: rest => text.takeWhile (· ≠ sep) :: splitAtMost sep n rest

/-! ## Accounts -/

/-- The record of an account. -/
structure Account where
  hash : String
  role : String
  enabled : Bool
deriving DecidableEq

/-- The accounts by user name. -/
abbrev Users := Dict String Account

namespace AuthStore

/-- The hash of a password, with the salt that was drawn for it. -/
def hashPassword (python : Python) (salt : List UInt8) (password : String) :
    Except Exn String := do
  let digest ← python.pbkdf2 password salt 240000
  .ok ("pbkdf2_sha256$240000$" ++ python.b64encode salt ++ "$" ++ python.b64encode digest)

/-- Whether a password has the digest of an encoded hash; what cannot be read as a hash,
no password has. -/
def verify (python : Python) (password encoded : String) : Bool :=
  match splitAtMost '$' 3 encoded.toList with
  | [_, iterations, salt, expected] =>
      let digest := do
        let salt ← python.b64decode (String.ofList salt)
        let iterations ← python.int (String.ofList iterations)
        python.pbkdf2 password salt iterations
      match digest, python.b64decode (String.ofList expected) with
      | .ok digest, .ok expected => digest == expected
      | _, _ => false
  | _ => false

/-- Create or replace an account. -/
def add (python : Python) (username password : String) (salt : List UInt8) (role : String)
    (users : Users) : Except Exn Users :=
  if rank role < 0 then .error (.valueError "invalid role")
  else do
    let hashed ← hashPassword python salt password
    .ok (users.set username { hash := hashed, role := role, enabled := true })

/-- Switch an account off. -/
def disable (username : String) (users : Users) : Except Exn Users :=
  match users.get? username with
  | none => .error (.other username)
  | some record => .ok (users.set username { record with enabled := false })

/-- The hash an unknown user's password is checked against. -/
def dummyHash : String := "pbkdf2_sha256$240000$ZHVtbXlzYWx0MTIzNDU2Nzg5MA==$ZHVtbXl2YWx1ZQ=="

/-- The record of a user whose password is right and whose account is switched on. -/
def authenticate (python : Python) (users : Users) (username password : String) :
    Option Account :=
  let record := users.get? username
  let encoded := (record.map Account.hash).getD dummyHash
  let valid := verify python password encoded
  record.filter fun record => record.enabled && valid

theorem authenticate_eq_some {python : Python} {users : Users} {username password : String}
    {account : Account} (h : authenticate python users username password = some account) :
    users.get? username = some account ∧ account.enabled ∧
      verify python password account.hash := by
  obtain ⟨hget, hvalid⟩ := Option.filter_eq_some_iff.mp h
  rw [hget, Bool.and_eq_true] at hvalid
  exact ⟨hget, hvalid⟩

end AuthStore

/-! ## Sessions -/

/-- A web session. -/
structure Session where
  username : String
  role : String
  csrf : Token
  expires : ℚ
deriving DecidableEq

/-- The sessions by their token. -/
abbrev Sessions := Dict String Session

namespace SessionStore

/-- The session of a token, if it has not expired. -/
def live? (now : ℚ) (token : String) (sessions : Sessions) : Option Session :=
  (sessions.get? token).filter fun session => now ≤ session.expires

theorem live?_eq_some {now : ℚ} {token : String} {sessions : Sessions} {session : Session} :
    live? now token sessions = some session ↔
      sessions.get? token = some session ∧ now ≤ session.expires := by
  unfold live?
  rw [Option.filter_eq_some_iff, decide_eq_true_eq]

end SessionStore

end UltimateBBSBox.Admin

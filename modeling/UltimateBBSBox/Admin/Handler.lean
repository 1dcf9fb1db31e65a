import UltimateBBSBox.Admin.Actions
import UltimateBBSBox.Admin.Throttle

/-!
# The dashboard's request handler

`DashboardApp` and `Handler` as programs over what the dashboard process keeps: the
accounts file, the throttle, the sessions and the audit log.  A request is handled as
a whole before the next one; an exception that leaves the handler ends the connection
without a response.

What one request meets outside the process, the clock readings, the random tokens, the
results of the delegates and of the read-only pages, is given by an `Environment`.
-/

namespace UltimateBBSBox.Admin

/-! ## Requests and responses -/

/-- `form.get(name, [default])[0]`. -/
def Form.first (form : Form) (name default : String) : String :=
  ((form.get? name).map Prod.fst).getD default

/-- A request, its header block parsed. -/
structure Request where
  method : String
  target : String
  headers : List (String × String)
  body : List UInt8
  remote : String
deriving DecidableEq

/-- The result of an audited request. -/
inductive Result
  | success
  | denied
  | failure
deriving DecidableEq

/-- An audit record. -/
structure AuditRecord where
  timestamp : String
  actor : String
  role : String
  action : String
  target : String
  result : Result
  source : String
  message : String
  requestId : String
  remote : Option String
deriving DecidableEq

/-- What a response carries. -/
inductive Body
  | html (text : String)
  | errorPage (message : Option String)
  | error (message : String)
  | value (value : Value)
  | delegated (value : Value)
  | records (records : List AuditRecord)

/-- A response; the headers that are the same in all of them are left out. -/
structure Response where
  status : ℕ
  headers : List (String × String)
  body : Body

/-- `self._send`. -/
def send (code : ℕ) (body : Body) (headers : List (String × String)) : Response :=
  { status := code, headers := headers, body := body }

/-- `self.send_error`. -/
def sendError (code : ℕ) (message : Option String) : Response :=
  send code (.errorPage message) []

/-- How an action request ends: status, result, message of the record, and payload. -/
structure Ending where
  status : ℕ
  result : Result
  message : String
  body : Body

/-! ## Text -/

/-- Whitespace, as `str.strip` takes it. -/
def isSpace (c : Char) : Bool :=
  c.toNat ∈ [9, 10, 11, 12, 13, 28, 29, 30, 31, 32, 133, 160, 5760, 8232, 8233, 8239, 8287, 12288] ∨
    (8192 ≤ c.toNat ∧ c.toNat ≤ 8202)

/-- `str.strip`. -/
def strip (text : List Char) : List Char :=
  ((text.dropWhile isSpace).reverse.dropWhile isSpace).reverse

/-- `text.startswith(start)`. -/
def startsWith (start text : String) : Bool := start.toList.isPrefixOf text.toList

/-- `[x for x in path.split('/') if x]`. -/
def pathParts (path : String) : List String :=
  ((path.toList.splitOn '/').filter (· ≠ [])).map String.ofList

/-- `parts[-2] if len(parts) > 4 else default`. -/
def targetOf (parts : List String) (default : String) : String :=
  if 4 < parts.length then parts.dropLast.getLastD "" else default

namespace Request

/-- `self.headers.get(name)`: names are compared without case, the first one counts. -/
def header? (request : Request) (name : String) : Option String :=
  (request.headers.find? fun header =>
    header.1.toList.map Char.toLower = name.toList.map Char.toLower).map Prod.snd

/-- `_cookie`. -/
def cookie (request : Request) (name : String) : Option String :=
  let bits := (((request.header? "Cookie").getD "").toList.splitOn ';').map strip
  (bits.find? (name.toList ++ ['=']).isPrefixOf).map fun bit =>
    String.ofList ((bit.dropWhile (· ≠ '=')).drop 1)

end Request

/-- `secrets.compare_digest` on two texts. -/
def compareDigest (first second : String) : Except Exn Bool :=
  if isAscii first && isAscii second then .ok (first == second)
  else .error (.other "comparing strings with non-ASCII characters is not supported")

/-! ## What the process keeps -/

/-- What happened to accounts and sessions. -/
inductive Event
  | stored (users : Users)
  | opened (token : String) (session : Session) (time : ℚ)
  | removed (token : String)
deriving DecidableEq

/-- The state the dashboard works on.  `invoked` are the delegates called so far, and
`history` what happened to accounts and sessions, the latest first; no definition reads
these two. -/
structure World where
  users : Users
  throttle : LoginThrottle
  sessions : Sessions
  audit : List AuditRecord
  invoked : List Delegate
  history : List Event

namespace World

/-- A dashboard that has just been started. -/
def fresh (users : Users) (maxEntries : ℕ) : World where
  users := users
  throttle := .fresh maxEntries
  sessions := ∅
  audit := []
  invoked := []
  history := []

/-- The accounts file is replaced. -/
def store (w : World) (users : Users) : World :=
  { w with users := users, history := .stored users :: w.history }

/-- A session is entered into the table. -/
def create (w : World) (token : String) (session : Session) (time : ℚ) : World :=
  { w with
    sessions := w.sessions.set token session
    history := .opened token session time :: w.history }

/-- A session is taken out of the table. -/
def remove (w : World) (token : String) : World :=
  { w with sessions := w.sessions.pop token, history := .removed token :: w.history }

end World

/-! ## The application -/

/-- How the dashboard is set up. -/
structure DashboardApp where
  python : Python
  auth : Bool
  audit : Bool
  actions : Option AdminActionService
  requireAuth : Bool
  secureCookies : Bool
  lifetime : ℚ

/-- What one request meets.  The clock is read when the handler asks the throttle, when
`login` asks it again, when a failure is counted, when a session is opened, when the
session of a request is looked up, and once more for a page. -/
structure Environment where
  offered : ℚ
  checked : ℚ
  failed : ℚ
  opened : ℚ
  seen : ℚ
  shown : ℚ
  timestamp : String
  token : Token
  csrf : Token
  requestId : Token
  logging : Except Exn Unit
  reply : Delegate → Except Exn Value
  jobs : String → Except Exn (List (Option String))
  api : Except Exn (Option Value)
  page : Option Session → Except Exn (Option String)

namespace DashboardApp

variable (app : DashboardApp) (env : Environment)

/-- `self.audit.append`. -/
def append (record : AuditRecord) : Act World Exn Unit :=
  if app.audit then do
    Act.ofExcept env.logging
    modify fun w => { w with audit := w.audit ++ [record] }
  else pure ()

/-- The record an `append` makes of its arguments. -/
def recordOf (actor role action target : String) (result : Result) (remote message : String) :
    AuditRecord where
  timestamp := env.timestamp
  actor := actor
  role := role
  action := action
  target := target
  result := result
  source := "web"
  message := String.ofList (message.toList.take 500)
  requestId := env.requestId.text
  remote := given (some remote)

/-- `LoginThrottle.retry_after`, at a reading of its clock. -/
def retryAfter (now : ℚ) (user source : String) : Act World Exn ℤ := do
  let w ← get
  modify fun w => { w with throttle := (w.throttle.retryAfter now user source).2 }
  pure (w.throttle.retryAfter now user source).1

/-- `SessionStore.get`: a session that has expired is taken out. -/
def getSession (now : ℚ) (token : String) : Act World Exn (Option Session) := do
  let w ← get
  match SessionStore.live? now token w.sessions with
  | some session => pure (some session)
  | none => do
      modify fun w => w.remove token
      pure none

/-- `DashboardApp.authenticate`. -/
def authenticate (now : ℚ) (token : Option String) : Act World Exn (Option Session) :=
  match given token with
  | none => pure none
  | some token => getSession now token

/-- `SessionStore.create`. -/
def createSession (username role : String) : Act World Exn String := do
  let session : Session :=
    { username := username, role := role, csrf := env.csrf, expires := env.opened + app.lifetime }
  modify fun w => w.create env.token.text session env.opened
  pure env.token.text

/-- `DashboardApp.login`. -/
def login (user password remote : String) : Act World Exn (Option String) := do
  let source := if remote = "" then "unknown" else remote
  let wait ← retryAfter env.checked user source
  if wait ≠ 0 then pure none
  else do
    let w ← get
    match if app.auth then AuthStore.authenticate app.python w.users user password else none with
    | none => do
        modify fun w => { w with throttle := (w.throttle.failure env.failed user source).2 }
        pure none
    | some record => do
        modify fun w => { w with throttle := w.throttle.success user source }
        let token ← app.createSession env user record.role
        pure (some token)

/-! ## Actions -/

/-- The delegates, as the action service calls them while a request is handled. -/
def others : Collaborators World where
  call delegate := do
    modify fun w => { w with invoked := w.invoked ++ [delegate] }
    Act.ofExcept (env.reply delegate)
  jobs := env.jobs

/-- The call of the action service that an action of a form stands for. -/
def dispatch (service : AdminActionService) (action target : String) (form : Form)
    (role : String) : Act World Exn Value :=
  if action = "start" then service.start (others env) target role
  else if action = "stop" then service.stop (others env) target role
  else if action = "restart" then service.restart (others env) target role
  else if action = "maintenance" then
    service.job (others env) target (form.first "job_id" "") role
  else if action = "backup" then service.backup (others env) target role
  else if action = "qualify" then
    service.qualify (others env) (form.first "integration" target) (form.first "release" "") role
  else if action = "promote" then
    service.promote (others env) (form.first "integration" "amiexpress-amiga")
      (form.first "release" "") role
  else if action = "rollback" then
    service.rollback (others env) (form.first "integration" "amiexpress-amiga") role
  else if action = "lifecycle" then
    service.lifecycle (others env) target (form.first "mode" "") role
  else throw (.valueError "unsupported action")

/-- The exception handlers of `_action`, entered with the `result` that was assigned when the
exception was raised; `exit` passes them all. -/
def refusal (result : Result) : Exn → Option Ending
  | .permissionError message => some ⟨403, .denied, message, .error message⟩
  | .valueError message => some ⟨422, result, message, .error message⟩
  | .notImplementedError message | .backupError message =>
      some ⟨409, result, message, .error (if message = "" then "action unavailable" else message)⟩
  | .other _ => some ⟨500, result, "action failed", .error "action failed"⟩
  | .exit => none

/-- What follows the handlers.  Each of them sets a status, so the branch of the source for
another result with a status that is still 200 is never reached. -/
def settleStatus (ending : Ending) : Ending :=
  if ending.result = .success then { ending with status := 200 } else ending

/-- The handlers of `_action` around a part of its `try` body. -/
def handling (result : Result) (act : Act World Exn Ending) : Act World Exn Ending :=
  tryCatch act fun exn =>
    match refusal result exn with
    | some ending => pure (settleStatus ending)
    | none => throw exn

/-- The `try` statement of `_action`: the result is a success before the value is converted. -/
def attempt (action target : String) (form : Form) (role : String) : Act World Exn Ending :=
  handling .failure
    (match app.actions with
    | none => throw (.other "action service unavailable")
    | some service => do
        let value ← dispatch env service action target form role
        handling .success do
          let payload ← Act.ofExcept (jsonable value)
          pure ⟨200, .success, "action delegated", .delegated payload⟩)

/-- `json.dumps` of a payload. -/
def dumps (body : Body) : Except Exn Unit :=
  match body with
  | .delegated value | .value value =>
      if serializable value then .ok () else .error (.other "not JSON serializable")
  | _ => .ok ()

/-- `_action`. -/
def action (path : String) (session : Session) (form : Form) (remote : String) :
    Act World Exn Response :=
  match (pathParts path).getLast? with
  | none => throw (.other "list index out of range")
  | some action => do
      let target := targetOf (pathParts path) "integration"
      let ending ← app.attempt env action target form session.role
      app.append env
        (recordOf env session.username session.role action target ending.result remote
          ending.message)
      Act.ofExcept (dumps ending.body)
      pure (send ending.status ending.body [])

/-! ## Handler -/

/-- `parse_qs(self.rfile.read(int(length)).decode())`. -/
def readForm (request : Request) (length : String) : Except Exn Form := do
  let size ← app.python.int length
  if size < -1 then .error (.valueError "read length must be non-negative or -1")
  else if app.python.maxRead < size then .error (.other "the size cannot be read")
  else
    let text ← app.python.decode
      (if size = -1 then request.body else request.body.take size.toNat)
    .ok (app.python.parseQs text)

/-- The form of an action request; a request without a length has none. -/
def actionForm (request : Request) : Except Exn Form :=
  match given (request.header? "Content-Length") with
  | none => .ok ∅
  | some length => app.readForm request length

/-- The CSRF token that a request supplies. -/
def supplied (request : Request) (form : Form) : String :=
  (given (request.header? "X-CSRF-Token")).getD (form.first "csrf" "")

/-- `not supplied or not secrets.compare_digest(supplied, session['csrf'])`. -/
def csrfRejected (supplied : String) (session : Session) : Except Exn Bool :=
  if supplied = "" then .ok true
  else (compareDigest supplied session.csrf.text).map not

/-- `_unauthorized`. -/
def unauthorized : Response := send 401 (.html "<h1>Authentication required</h1>") []

/-- The branch of `do_POST` below `/api/v1/admin/`. -/
def postAdmin (request : Request) (path : String) (session : Session) :
    Act World Exn Response := do
  let form ← Act.ofExcept (app.actionForm request)
  let rejected ← Act.ofExcept (csrfRejected (supplied request form) session)
  if rejected then do
    let parts := pathParts path
    app.append env
      (recordOf env session.username session.role (parts.getLastD "unknown")
        (targetOf parts "admin") .denied request.remote "csrf rejected")
    pure (send 403 (.html "CSRF rejected") [])
  else app.action env path session form request.remote

/-- The cookie of a new session. -/
def sessionCookie (token : String) : String :=
  "ubb_admin=" ++ token ++ "; HttpOnly; SameSite=Strict; Path=/; Max-Age=28800" ++
    if app.secureCookies then "; Secure" else ""

/-- The record of a login attempt. -/
def loginRecord (request : Request) (user : String) (result : Result) (message : String) :
    AuditRecord :=
  recordOf env user "unknown" "login" "admin" result request.remote message

/-- The branch of `do_POST` for `/admin/login`. -/
def postLogin (request : Request) : Act World Exn Response := do
  let form ← Act.ofExcept (app.readForm request ((request.header? "Content-Length").getD "0"))
  let user := form.first "username" ""
  let wait ← retryAfter env.offered user request.remote
  if wait ≠ 0 then do
    app.append env (loginRecord env request user .denied "login throttled")
    pure (send 429 (.html "<h1>Login temporarily throttled</h1>") [("Retry-After", toString wait)])
  else do
    match given (← app.login env user (form.first "password" "") request.remote) with
    | none => do
        app.append env (loginRecord env request user .denied "invalid credentials")
        pure (send 401 (.html "<h1>Login failed</h1>") [])
    | some token => do
        app.append env (loginRecord env request user .success "")
        pure (send 303 (.html "") [("Location", "/"), ("Set-Cookie", app.sessionCookie token)])

/-- `do_POST`. -/
def doPost (request : Request) : Act World Exn Response := do
  let path ← Act.ofExcept (app.python.urlPath request.target)
  if ¬ app.requireAuth then pure (sendError 405 none)
  else if path = "/admin/login" then app.postLogin env request
  else do
    match ← authenticate env.seen (request.cookie "ubb_admin") with
    | none => pure unauthorized
    | some session =>
        if startsWith "/api/v1/admin/" path then app.postAdmin env request path session
        else pure (sendError 405 none)

/-- `SessionStore.remove`, of a token that is given. -/
def removeSession (token : Option String) : Act World Exn Unit :=
  match given token with
  | none => pure ()
  | some token => modify fun w => w.remove token

/-- `_logout`. -/
def logout (token : Option String) : Act World Exn Response := do
  removeSession token
  pure (send 303 (.html "")
    [("Location", "/admin/login"),
      ("Set-Cookie", "ubb_admin=; Max-Age=0; HttpOnly; SameSite=Strict")])

/-- `_audit`: the last hundred records. -/
def audited : Act World Exn Response := do
  let w ← get
  let records := if app.audit then w.audit.reverse.take 100 else []
  pure (send 200 (.records records) [])

/-- `self.app.authenticate(token)`, where authentication is required. -/
def sessionOf (now : ℚ) (token : Option String) : Act World Exn (Option Session) :=
  if app.requireAuth then authenticate now token else pure none

/-- The pages and the interface for reading. -/
def view (path : String) (token : Option String) : Act World Exn Response :=
  if startsWith "/api/" path then do
    match ← Act.ofExcept env.api with
    | none => pure (sendError 404 none)
    | some value => do
        let payload ← Act.ofExcept (jsonable value)
        Act.ofExcept (dumps (.value payload))
        pure (send 200 (.value payload) [])
  else do
    let session ← app.sessionOf env.shown token
    match ← Act.ofExcept (env.page session) with
    | none => pure (sendError 404 none)
    | some page => pure (send 200 (.html page) [])

/-- `_login_page`. -/
def loginPage : Response :=
  send 200
    (.html ("<!doctype html><title>UBB admin login</title><h1>Admin login</h1>" ++
      "<form method='post' action='/admin/login'><label>User <input name='username' autofocus>" ++
      "</label><label>Password <input type='password' name='password'></label>" ++
      "<button>Sign in</button></form>")) []

/-- The `try` statement of `do_GET`. -/
def getPath (request : Request) (path : String) : Act World Exn Response :=
  if path = "/admin/login" then pure loginPage
  else do
    let token := request.cookie "ubb_admin"
    let session ← app.sessionOf env.seen token
    if app.requireAuth ∧ session = none then pure unauthorized
    else if path = "/admin/logout" then logout token
    else if path = "/api/v1/audit" then app.audited
    else app.view env path token

/-- `do_GET`. -/
def doGet (request : Request) : Act World Exn Response := do
  let path ← Act.ofExcept (app.python.urlPath request.target)
  tryCatch (app.getPath env request path) fun exn =>
    if exn = .exit then throw exn
    else pure (sendError 503 (some "observatory temporarily unavailable"))

/-- The method of a request picks its handler. -/
def handle (request : Request) : Act World Exn Response :=
  if request.method = "GET" then app.doGet env request
  else if request.method = "POST" then app.doPost env request
  else if request.method = "PUT" ∨ request.method = "DELETE" then pure (sendError 405 none)
  else pure (sendError 501 none)

end DashboardApp

end UltimateBBSBox.Admin

import WalletGo.Http.Body
import WalletGo.Http.Program
import WalletGo.Text.Integer

/-!
The handlers, the middleware and the router of `internal/adapters/http`.

A middleware is a function from handlers to handlers, and `newRouter` is the chain the
source builds. The context of a request is the part of it that the middleware and the
router fill in. What chi, `google/uuid` and promhttp do is a parameter (`Mux`, `UUIDText`),
with what the server relies on; `Mux.chi` is chi as it is. The deadline `timeout` sets
reaches a handler as an error of the services it calls.
-/

namespace WalletGo.Http

/-! ### Requests -/

/-- The values the middleware and the router leave in a request's context. -/
structure Context where
  requestID : String
  scope : Option ApiKeyScope
  /-- `RoutePattern()` and `URLParam("id")` of the route -/
  pattern : String
  id : String
deriving DecidableEq, Repr

/-- An HTTP request; a header or a parameter that is missing is empty. -/
structure Request where
  method : String
  /-- The path, split at its slashes. -/
  path : List String
  /-- `X-API-Key`, `X-Request-ID`, `Idempotency-Key` -/
  apiKey : String
  requestID : String
  idempotencyKey : String
  /-- The query parameters `after` and `limit`. -/
  after : String
  limit : String
  body : List UInt8
  context : Context
deriving DecidableEq, Repr

abbrev HandlerFunc := Request → Web Unit

/-! ### chi -/

/-- A part of a pattern between slashes. -/
inductive Segment where
  | literal (text : String)
  /-- The parameter `id`. -/
  | id
deriving DecidableEq, Repr

/-- The value of the parameter, if the path fits; it may be empty. -/
def capture : List Segment → List String → Option String
  | [], [] => some ""
  | .literal text :: pattern, part :: path => if text = part then capture pattern path else none
  | .id :: pattern, part :: path => (capture pattern path).map fun _ => part
  | _, _ => none

structure Route where
  method : String
  segments : List Segment
  handler : HandlerFunc

def Route.pattern (route : Route) : String :=
  String.join (route.segments.map fun
    | .literal text => "/" ++ text
    | .id => "/\x7bid\x7d")

structure Notice where
  headers : List (String × String)
  status : Int
  text : String

def setHeaders : List (String × String) → Web Unit
  | [] => pure ()
  | (name, value) :: rest => do
    setHeader name value
    setHeaders rest

def Notice.write (notice : Notice) : Web Unit := do
  setHeaders notice.headers
  writeHeader notice.status
  Http.write (.text notice.text)

/-- What the server relies on in `chi.Mux`. -/
structure Mux where
  /-- The route a request takes and its parameter. -/
  find : (routes : List Route) → (method : String) → (path : List String) → Option (Route × String)
  /-- The answer where there is none. -/
  unrouted : (routes : List Route) → (method : String) → (path : List String) → Notice
  found : ∀ {routes method path route id}, find routes method path = some (route, id) →
    route ∈ routes ∧ route.method = method ∧ capture route.segments path = some id
  status : ∀ routes method path,
    (unrouted routes method path).status = 404 ∨ (unrouted routes method path).status = 405
  headers :
    ∀ routes method path, ∀ header ∈ (unrouted routes method path).headers,
      header.1 ≠ "X-Request-ID"

namespace Mux

def chiMethods : List String :=
  ["CONNECT", "DELETE", "GET", "HEAD", "OPTIONS", "PATCH", "POST", "PUT", "TRACE"]

/-- chi's tree of routes as a list: no path fits two patterns. -/
def chiFind (routes : List Route) (method : String) (path : List String) :
    Option (Route × String) :=
  routes.findSome? fun route =>
    if route.method = method then (capture route.segments path).map fun id => (route, id) else none

/-- The methods of the routes that fit a path. -/
def allowed (routes : List Route) (path : List String) : List String :=
  (routes.filter fun route => (capture route.segments path).isSome).map (·.method)

def methodNotAllowed (allowed : List String) : Notice :=
  ⟨allowed.map fun method => ("Allow", method), 405, ""⟩

def notFound : Notice where
  headers := [("Content-Type", "text/plain; charset=utf-8"), ("X-Content-Type-Options", "nosniff")]
  status := 404
  text := "404 page not found\n"

def chiUnrouted (routes : List Route) (method : String) (path : List String) : Notice :=
  if method ∉ chiMethods then methodNotAllowed []
  else if allowed routes path ≠ [] then methodNotAllowed (allowed routes path)
  else notFound

def chi : Mux where
  find := chiFind
  unrouted := chiUnrouted
  found := by
    intro routes method path route id found
    obtain ⟨listed, mem, fits⟩ := List.exists_of_findSome?_eq_some found
    split at fits
    · next same =>
      obtain ⟨_, captured, pair⟩ := Option.map_eq_some_iff.mp fits
      cases pair
      exact ⟨mem, same, captured⟩
    · cases fits
  status := by
    intro routes method path
    unfold chiUnrouted
    split
    · exact .inr rfl
    · split
      · exact .inr rfl
      · exact .inl rfl
  headers := by
    have plain :
        ∀ allowed, ∀ header ∈ (methodNotAllowed allowed).headers, header.1 ≠ "X-Request-ID" := by
      rintro allowed _ mem
      obtain ⟨method, -, rfl⟩ := List.mem_map.mp mem
      exact ne_of_beq_false rfl
    intro routes method path
    unfold chiUnrouted
    split
    · exact plain _
    · split
      · exact plain _
      · simp [notFound]

end Mux

/-! ### Dependencies -/

/-- `Deps`, with what its services and its limiters are made from. -/
structure Deps where
  apiKey : String
  readOnlyAPIKey : String
  /-- None if `RateLimitRPS` is not positive. -/
  limiter : Option Rate.Limiter
  executor : Executor
  systemAccountID : UUID
  sha256 : List UInt8 → List UInt8
  texts : LibraryTexts
  uuids : UUIDText
  mux : Mux
  /-- `Content-Type` of promhttp's handler -/
  metricsContentType : String

/-! ### Reading a request -/

structure CreateAccountRequest where
  ownerID : List Char
deriving DecidableEq

def CreateAccountRequest.fields : List (Json.StructField CreateAccountRequest) :=
  [stringField "owner_id" fun v _ => ⟨v⟩]

def readOwner (body : List UInt8) : Except GoError String := do
  let body ← readBody body
  let req ← decodeStrict CreateAccountRequest.fields ⟨[]⟩ body
  return String.ofList req.ownerID

def defaultLimit : Nat := 50

def maxEntriesPage : Nat := 200

def queryAfter (raw : String) : Except GoError Nat :=
  if raw = "" then .ok 0
  else
    match Text.parseInt 64 raw.toList with
    | some (.ofNat v) => .ok v
    | _ => .error (.badRequest "after must be a non-negative integer entry id")

/-- `queryLimit`; `Atoi` is `ParseInt` of the width of an `int`. -/
def queryLimit (raw : String) : Except GoError Nat :=
  if raw = "" then .ok defaultLimit
  else
    match Text.parseInt 64 raw.toList with
    | some v =>
      if 1 ≤ v ∧ v ≤ maxEntriesPage then .ok v.toNat
      else .error (.badRequest "limit must be an integer between 1 and 200")
    | none => .error (.badRequest "limit must be an integer between 1 and 200")

def scopeFor (sha256 : List UInt8 → List UInt8) (apiKey : String) : String :=
  "apikey:" ++ String.ofList (Json.hexEncode ((sha256 (Json.encodeUtf8 apiKey.toList)).take 8))

def kindText : AccountKind → String
  | .customer => "customer"
  | .system => "system"

def toAccountResponse (uuids : UUIDText) (a : Account) : AccountResponse :=
  ⟨uuids.format a.id, a.ownerID, kindText a.kind, a.currency⟩

def toEntriesResponse (uuids : UUIDText) (p : EntriesPage) : EntriesResponse :=
  ⟨p.entries.map fun e => ⟨e.id, uuids.format e.transferID, e.amountCents⟩, p.nextAfter⟩

/-! ### Services -/

def create (ownerID : String) : Web (Except GoError Account) :=
  ExceptT.mk (.op (.create ownerID) .ret)

def balance (accountID : UUID) : Web (Except GoError Money) :=
  ExceptT.mk (.op (.balance accountID) .ret)

def entries (accountID : UUID) (afterID limit : Nat) : Web (Except GoError EntriesPage) :=
  ExceptT.mk (.op (.entries accountID afterID limit) .ret)

def transfer (cmd : TransferCommand) : Web (Except GoError TransferResult) :=
  ExceptT.mk (.op (.transfer cmd) .ret)

/-- `CashService.Deposit` -/
def deposit (d : Deps) (cmd : CashCommand) : Web (Except GoError TransferResult) :=
  transfer (depositCommand d.systemAccountID cmd)

/-- `CashService.Withdraw` -/
def withdraw (d : Deps) (cmd : CashCommand) : Web (Except GoError TransferResult) :=
  transfer (withdrawCommand d.systemAccountID cmd)

/-! ### Handlers -/

namespace Handler

def writeError (d : Deps) (r : Request) (err : GoError) : Web Unit := do
  let response := WalletGo.writeError d.texts err
  inc (.error r.context.pattern response.code)
  if 500 ≤ response.status then log (.requestFailed r.context.requestID err)
  writeJSON response.status (.error response.code response.message)

def orFail {α : Type} (d : Deps) (r : Request) (result : Except GoError α) (next : α → Web Unit) :
    Web Unit :=
  match result with
  | .error err => writeError d r err
  | .ok value => next value

def createAccount (d : Deps) : HandlerFunc := fun r =>
  orFail d r (readOwner r.body) fun ownerID => do
    let acc ← create ownerID
    orFail d r acc fun acc => writeJSON 201 (.account (toAccountResponse d.uuids acc))

/-- The end of the money-moving handlers. -/
def writeMoved (d : Deps) (r : Request) (op : String) (res : Except GoError TransferResult) :
    Web Unit :=
  orFail d r res fun res => do
    inc (.transfer op res.replayed)
    writeResult res

def cashOp (d : Deps) (op : String) (run : CashCommand → Web (Except GoError TransferResult)) :
    HandlerFunc :=
  fun r =>
    orFail d r (handleCashOp d.uuids d.sha256 (scopeFor d.sha256 d.apiKey) r.idempotencyKey op
        r.context.id.toList r.body)
      fun cmd => do
        let res ← run cmd
        writeMoved d r op res

def deposit (d : Deps) : HandlerFunc := cashOp d "deposits" (Http.deposit d)

def withdraw (d : Deps) : HandlerFunc := cashOp d "withdrawals" (Http.withdraw d)

def transfer (d : Deps) : HandlerFunc := fun r =>
  orFail d r (handleTransfer d.uuids d.sha256 (scopeFor d.sha256 d.apiKey) r.idempotencyKey r.body)
      fun cmd => do
    let res ← Http.transfer cmd
    writeMoved d r "transfers" res

def parseAccountID (d : Deps) (r : Request) : Except GoError UUID :=
  parseID d.uuids r.context.id.toList "account id must be a valid UUID"

def balance (d : Deps) : HandlerFunc := fun r =>
  orFail d r (parseAccountID d r) fun accountID => do
    let bal ← Http.balance accountID
    orFail d r bal fun bal => writeJSON 200 (.balance (d.uuids.format accountID) bal.cents)

def entries (d : Deps) : HandlerFunc := fun r =>
  orFail d r (parseAccountID d r) fun accountID =>
  orFail d r (queryAfter r.after) fun after =>
  orFail d r (queryLimit r.limit) fun limit => do
    let page ← Http.entries accountID after limit
    orFail d r page fun page => writeJSON 200 (.entries (toEntriesResponse d.uuids page))

end Handler

def healthz : HandlerFunc := fun _ => writeJSON 200 (.status "ok")

def readyz : HandlerFunc := fun _ => do
  if ← ask .ping then writeJSON 200 (.status "ok")
  else writeJSON 503 (.status "unavailable")

/-- `promhttp`'s handler -/
def metricsHandler (d : Deps) : HandlerFunc := fun _ => do
  let counters ← ask .gather
  setHeader "Content-Type" d.metricsContentType
  write (.exposition counters)

/-! ### Middleware -/

def maxRequestIDLength : Nat := 128

/-- The caller's id if it is sane, a new one otherwise. -/
def correlationID (d : Deps) (r : Request) : Web String :=
  if r.requestID = "" ∨ maxRequestIDLength < r.requestID.utf8ByteSize then
    d.uuids.format <$> ask .newUUID
  else pure r.requestID

def requestID (d : Deps) (next : HandlerFunc) : HandlerFunc := fun r => do
  let id ← correlationID d r
  setHeader "X-Request-ID" id
  next { r with context.requestID := id }

def Request.pathText (r : Request) : String := "/" ++ "/".intercalate r.path

def accessLog (next : HandlerFunc) : HandlerFunc := fun r => do
  let status ← recording (next r)
  log (.request r.context.requestID r.method r.pathText status)

def recoverer (next : HandlerFunc) : HandlerFunc := fun r =>
  ExceptT.mk ((next r).run.bind fun
    | .ok () => .ret (.ok ())
    | .error .abortHandler => .ret (.error .abortHandler)
    | .error (.other value) => ExceptT.run do
      log (.panicRecovered r.context.requestID (.other value))
      writeJSON 500 (.error "internal_error" (statusText 500)))

/-- `httpMetrics`: `pattern` is what the router has found once the handler has returned. -/
def httpMetrics (pattern : Request → String) (next : HandlerFunc) : HandlerFunc := fun r => do
  let status ← recording (next r)
  let route := pattern r
  inc (.request r.method (if route = "" then "unmatched" else route) status)

def apiKeyAuth (writeKey readKey : String) (next : HandlerFunc) : HandlerFunc := fun r =>
  if r.apiKey = writeKey then next { r with context.scope := some .write }
  else if readKey ≠ "" ∧ r.apiKey = readKey then next { r with context.scope := some .read }
  else writeJSON 401 (.error "unauthorized" "missing or invalid API key")

/-- The scope in the context; the zero value of `apiKeyScope` is `scopeWrite`. -/
def Request.scope (r : Request) : ApiKeyScope := r.context.scope.getD .write

def rateLimit (next : HandlerFunc) : HandlerFunc := fun r => do
  let res ← ask (.reserve r.scope)
  if res.ok = false then next r
  else do
    let delay ← ask (.delay res)
    if 0 < delay then do
      let () ← ask (.cancel r.scope res)
      setHeader "Retry-After" (toString (delay.floor + 1))
      writeJSON 429 (.error "rate_limited" "rate limit exceeded, retry later")
    else next r

def requireWriteScope (next : HandlerFunc) : HandlerFunc := fun r =>
  if r.scope = .write then next r
  else writeJSON 403 (.error "forbidden" "this API key is read-only")

/-! ### Routes -/

/-- The group behind `apiKeyAuth`. -/
def secured (d : Deps) (next : HandlerFunc) : HandlerFunc :=
  apiKeyAuth d.apiKey d.readOnlyAPIKey (if d.limiter.isSome then rateLimit next else next)

def account (action : String) : List Segment := [.literal "accounts", .id, .literal action]

def routes (d : Deps) : List Route :=
  [⟨"GET", [.literal "healthz"], healthz⟩,
   ⟨"GET", [.literal "readyz"], readyz⟩,
   ⟨"GET", [.literal "metrics"], metricsHandler d⟩,
   ⟨"GET", account "balance", secured d (Handler.balance d)⟩,
   ⟨"GET", account "entries", secured d (Handler.entries d)⟩,
   ⟨"POST", [.literal "accounts"], secured d (requireWriteScope (Handler.createAccount d))⟩,
   ⟨"POST", account "deposits", secured d (requireWriteScope (Handler.deposit d))⟩,
   ⟨"POST", account "withdrawals", secured d (requireWriteScope (Handler.withdraw d))⟩,
   ⟨"POST", [.literal "transfers"], secured d (requireWriteScope (Handler.transfer d))⟩]

def findRoute (d : Deps) (r : Request) : Option (Route × String) :=
  d.mux.find (routes d) r.method r.path

/-- `Mux.routeHTTP` -/
def routeHTTP (d : Deps) : HandlerFunc := fun r =>
  match findRoute d r with
  | some (route, id) => route.handler { r with context.pattern := route.pattern, context.id := id }
  | none => (d.mux.unrouted (routes d) r.method r.path).write

/-- `RoutePattern()`, once the request has been routed. -/
def routePattern (d : Deps) (r : Request) : String :=
  ((findRoute d r).map fun found => found.1.pattern).getD ""

def newRouter (d : Deps) : HandlerFunc :=
  requestID d (accessLog (recoverer (httpMetrics (routePattern d) (routeHTTP d))))

end WalletGo.Http

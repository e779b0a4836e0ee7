import Workflow.Database.Store
import Workflow.Proofs.Database.Table
import Workflow.Proofs.Database.Trouble
import Workflow.Proofs.Effect.Trace

/-!
# The course of an append

Where an append stands after any exchanges with a database in which any statement may fail: what of it is left,
and what its session holds (`Place`). Main statement: `Pending.step`, by which every answer takes it to another
such place, and nothing but its commit changes the table: the one that ends it, or one whose reply was lost.
-/

namespace Workflow.Database

def began : Exchange statements := ⟨.begin, (.ok () : Except Fault Unit)⟩

def readings (stream : String) (found : Int) : Exchange statements :=
  ⟨.currentVersion stream, (.ok (.ok found) : Except Fault (Column Int))⟩

def inserted (row : Row) : Exchange statements := ⟨.insert row, (.ok () : Except Fault Unit)⟩

def committed : Exchange statements := ⟨.commit, (.ok () : Except Fault Unit)⟩

def wentBack (reply : Except Fault Unit) : Exchange statements := ⟨.rollback, reply⟩

/-! ## What is left of an append -/

section
variable (stream : String) (payloads : List Data) (expected : Nat)

def awaiting : Query Nat :=
  (orAbandon (readVersion stream)).bind fun current =>
    if current = expected then insertAndCommit stream expected payloads else refuse stream expected current

/-- What is left when the stream is at this version, one's own rows included. -/
def remaining (version : Nat) (left : List Data) : Query Nat :=
  orAbandon <| (insertAll stream expected version left).bind fun version =>
    (Query.send "commit_transaction" .commit).map fun _ => version

theorem appendPayloads_eq : appendPayloads stream payloads expected =
    .call .begin fun (reply : Except Fault Unit) =>
      match reply with
      | .ok _ => awaiting stream payloads expected
      | .error fault => .fail (fault.report "begin_transaction") := by
  refine congrArg (Effect.call _) (funext fun (reply : Except Fault Unit) => ?_)
  cases reply <;> rfl

theorem awaiting_eq : awaiting stream payloads expected =
    .call (.currentVersion stream) fun (reply : Except Fault (Column Int)) =>
      match reply with
      | .ok (.ok found) =>
        if storedVersion found = expected then remaining stream expected expected payloads
        else refuse stream expected (storedVersion found)
      | .ok (.error reason) => abandon (.database ("failed to read current_version: " ++ reason))
      | .error fault => abandon (fault.report "current_version") := by
  refine congrArg (Effect.call _) (funext fun (reply : Except Fault (Column Int)) => ?_)
  match reply with
  | .ok (.ok found) => rfl
  | .ok (.error reason) => rfl
  | .error fault => rfl

theorem refuse_eq (actual : Nat) : refuse stream expected actual =
    .call .rollback fun (reply : Except Fault Unit) =>
      match reply with
      | .ok _ => .fail (.concurrency stream expected actual)
      | .error fault => .fail (fault.report "rollback") := by
  refine congrArg (Effect.call _) (funext fun (reply : Except Fault Unit) => ?_)
  cases reply <;> rfl

theorem remaining_nil (version : Nat) : remaining stream expected version [] =
    .call .commit fun (reply : Except Fault Unit) =>
      match reply with
      | .ok _ => .pure version
      | .error fault => abandon (fault.report "commit_transaction") := by
  refine congrArg (Effect.call _) (funext fun (reply : Except Fault Unit) => ?_)
  cases reply <;> rfl

theorem remaining_cons {version : Nat} (hlimit : version + 1 < versionLimit) (payload : Data) (left : List Data) :
    remaining stream expected version (payload :: left) =
      .call (.insert (rowAfter stream version payload)) fun (reply : Except Fault Unit) =>
        match reply with
        | .ok _ => remaining stream expected (version + 1) left
        | .error fault =>
          abandon (if fault.isUniqueViolation then .concurrency stream expected (version + 1)
            else fault.report "insert_entry") := by
  have hentry : insertEntry stream expected (version + 1) payload =
      .call (.insert (rowAfter stream version payload)) fun (reply : Except Fault Unit) =>
        match reply with
        | .ok _ => .unit
        | .error fault =>
          if fault.isUniqueViolation then .fail (.concurrency stream expected (version + 1))
          else .fail (fault.report "insert_entry") := by
    rw [insertEntry, versionParameter, if_pos hlimit]
    rfl
  rw [remaining, insertAll, hentry]
  refine congrArg (Effect.call _) (funext fun (reply : Except Fault Unit) => ?_)
  cases reply with
  | ok done => rfl
  | error fault => dsimp only; split <;> rfl

theorem remaining_of_limit {version : Nat} (hlimit : ¬ version + 1 < versionLimit) (payload : Data)
    (left : List Data) : remaining stream expected version (payload :: left) =
      abandon (.database ("stream version " ++ Nat.repr (version + 1) ++ " out of range")) := by
  rw [remaining, insertAll, insertEntry, versionParameter, if_neg hlimit]
  rfl

end

/-! ## Where an append stands -/

section
variable (stream : String) (payloads : List Data) (expected : Nat)

def progress (found : Int) (done : List Data) : List (Exchange statements) :=
  began :: readings stream found :: (rowsAfter stream expected done).map inserted

def denied (row : Row) (fault : Fault) : Exchange statements := ⟨.insert row, (.error fault : Except Fault Unit)⟩

def refusal (version : Nat) (fault : Fault) : StoreError :=
  if fault.isUniqueViolation then .concurrency stream expected version else fault.report "insert_entry"

/-- The append has to go back: the exchanges that brought it there, and the error it will fail with. -/
inductive Halted : List (Exchange statements) → StoreError → Prop
  | unread (fault : Fault) :
      Halted [began, ⟨.currentVersion stream, (.error fault : Except Fault (Column Int))⟩]
        (fault.report "current_version")
  | unreadable (reason : String) :
      Halted [began, ⟨.currentVersion stream, (.ok (.error reason) : Except Fault (Column Int))⟩]
        (.database ("failed to read current_version: " ++ reason))
  | outOfRange {found done} (hread : storedVersion found = expected) :
      Halted (progress stream expected found done)
        (.database ("stream version " ++ Nat.repr (expected + done.length + 1) ++ " out of range"))
  | refused {found done} (hread : storedVersion found = expected) (payload : Data) (fault : Fault) :
      Halted (progress stream expected found done ++ [denied (rowAfter stream (expected + done.length) payload) fault])
        (refusal stream expected (expected + done.length + 1) fault)
  | uncommitted {found} (hread : storedVersion found = expected) (fault : Fault) :
      Halted (progress stream expected found payloads ++ [⟨.commit, (.error fault : Except Fault Unit)⟩])
        (fault.report "commit_transaction")

inductive Failed : List (Exchange statements) → StoreError → Prop
  | unbegun (fault : Fault) :
      Failed [⟨.begin, (.error fault : Except Fault Unit)⟩] (fault.report "begin_transaction")
  | outdated {found} (hread : storedVersion found ≠ expected) :
      Failed [began, readings stream found, wentBack (.ok ())] (.concurrency stream expected (storedVersion found))
  | stuck {found} (hread : storedVersion found ≠ expected) (fault : Fault) :
      Failed [began, readings stream found, wentBack (.error fault)] (fault.report "rollback")
  | abandoned {t e} (h : Halted stream payloads expected t e) (reply : Except Fault Unit) :
      Failed (t ++ [wentBack reply]) e

inductive Place : List (Exchange statements) → Session → Query Nat → Prop
  | opening : Place [] .idle (appendPayloads stream payloads expected)
  | awaiting : Place [began] ⟨some []⟩ (awaiting stream payloads expected)
  | refusing {found session} (hread : storedVersion found ≠ expected) :
      Place [began, readings stream found] session (refuse stream expected (storedVersion found))
  | adding {found done left} (hread : storedVersion found = expected) (hpayloads : payloads = done ++ left) :
      Place (progress stream expected found done) ⟨some (rowsAfter stream expected done)⟩
        (remaining stream expected (expected + done.length) left)
  | halted {t e session} (h : Halted stream payloads expected t e) : Place t session (abandon e)
  | failed {t e} (h : Failed stream payloads expected t e) : Place t .idle (.fail e)
  | done {found} (hread : storedVersion found = expected) :
      Place (progress stream expected found payloads ++ [committed]) .idle (.pure (expected + payloads.length))

inductive Pending : List (Exchange statements) → Session → (s : Statement) → (Except Fault s.Result → Query Nat) → Prop
  | beginning : Pending [] .idle .begin fun (reply : Except Fault Unit) =>
      match reply with
      | .ok _ => awaiting stream payloads expected
      | .error fault => .fail (fault.report "begin_transaction")
  | reading : Pending [began] ⟨some []⟩ (.currentVersion stream) fun (reply : Except Fault (Column Int)) =>
      match reply with
      | .ok (.ok found) =>
        if storedVersion found = expected then remaining stream expected expected payloads
        else refuse stream expected (storedVersion found)
      | .ok (.error reason) => abandon (.database ("failed to read current_version: " ++ reason))
      | .error fault => abandon (fault.report "current_version")
  | refusing {found session} (hread : storedVersion found ≠ expected) :
      Pending [began, readings stream found] session .rollback fun (reply : Except Fault Unit) =>
        match reply with
        | .ok _ => .fail (.concurrency stream expected (storedVersion found))
        | .error fault => .fail (fault.report "rollback")
  | inserting {found done payload left} (hread : storedVersion found = expected)
      (hpayloads : payloads = done ++ payload :: left) :
      Pending (progress stream expected found done) ⟨some (rowsAfter stream expected done)⟩
        (.insert (rowAfter stream (expected + done.length) payload)) fun (reply : Except Fault Unit) =>
          match reply with
          | .ok _ => remaining stream expected (expected + done.length + 1) left
          | .error fault => abandon (refusal stream expected (expected + done.length + 1) fault)
  | committing {found} (hread : storedVersion found = expected) :
      Pending (progress stream expected found payloads) ⟨some (rowsAfter stream expected payloads)⟩ .commit
        fun (reply : Except Fault Unit) =>
          match reply with
          | .ok _ => .pure (expected + payloads.length)
          | .error fault => abandon (fault.report "commit_transaction")
  | abandoning {t e session} (h : Halted stream payloads expected t e) : Pending t session .rollback fun _ => .fail e

/-- The rows that an append has added for good when this is left of it. -/
def contributed : Query Nat → List Row
  | .pure _ => rowsAfter stream expected payloads
  | _ => []

end

section
variable {stream : String} {payloads : List Data} {expected : Nat} {t : List (Exchange statements)}
  {session session' : Session} {r : Query Nat} {trouble : Trouble} {table table' : Table}

theorem contributed_remaining (version : Nat) (left : List Data) :
    contributed stream payloads expected (remaining stream expected version left) = [] := by
  cases left with
  | nil => rfl
  | cons payload left =>
    by_cases hlimit : version + 1 < versionLimit
    · rw [remaining_cons stream expected hlimit]; rfl
    · rw [remaining_of_limit stream expected hlimit]; rfl

theorem progress_concat (found : Int) (done : List Data) (payload : Data) :
    progress stream expected found (done ++ [payload]) =
      progress stream expected found done ++ [inserted (rowAfter stream (expected + done.length) payload)] := by
  simp [progress, rowsAfter_append, rowsAfter]

theorem Place.next (h : Place stream payloads expected t session r) :
    (∃ s next, r = .call s next ∧ Pending stream payloads expected t session s next) ∨
      (∃ e, r = .fail e ∧ session = .idle ∧ Failed stream payloads expected t e) ∨
      ∃ found, r = .pure (expected + payloads.length) ∧ session = .idle ∧ storedVersion found = expected ∧
        t = progress stream expected found payloads ++ [committed] := by
  cases h with
  | opening => exact .inl ⟨_, _, appendPayloads_eq .., .beginning⟩
  | awaiting => exact .inl ⟨_, _, awaiting_eq .., .reading⟩
  | refusing hread => exact .inl ⟨_, _, refuse_eq .., .refusing hread⟩
  | @adding found done left hread hpayloads =>
    cases left with
    | nil =>
      obtain rfl : payloads = done := by rw [hpayloads, List.append_nil]
      exact .inl ⟨_, _, remaining_nil .., .committing hread⟩
    | cons payload left =>
      by_cases hlimit : expected + done.length + 1 < versionLimit
      · exact .inl ⟨_, _, remaining_cons stream expected hlimit .., .inserting hread hpayloads⟩
      · exact .inl ⟨_, _, remaining_of_limit stream expected hlimit .., .abandoning (.outOfRange hread)⟩
  | halted h => exact .inl ⟨_, _, rfl, .abandoning h⟩
  | failed h => exact .inr (.inl ⟨_, rfl, rfl, h⟩)
  | done hread => exact .inr (.inr ⟨_, rfl, rfl, hread, rfl⟩)

theorem Place.no_pause {time : Duration} {next : Query Nat} (h : Place stream payloads expected t session r) :
    r ≠ .pause time next := by
  rintro rfl
  rcases h.next with ⟨_, _, hr, -⟩ | ⟨_, hr, -⟩ | ⟨_, hr, -⟩ <;> cases hr

theorem Place.pending {s : Statement} {next : Except Fault s.Result → Query Nat}
    (h : Place stream payloads expected t session (.call s next)) :
    Pending stream payloads expected t session s next := by
  rcases h.next with ⟨s', next', hcall, hpending⟩ | ⟨e, hcall, -⟩ | ⟨found, hcall, -⟩
  · cases hcall; exact hpending
  · cases hcall
  · cases hcall

theorem Place.read {found : Int} :
    Place stream payloads expected [began, readings stream found] ⟨some []⟩
      (if storedVersion found = expected then remaining stream expected expected payloads
        else refuse stream expected (storedVersion found)) := by
  by_cases hread : storedVersion found = expected
  · have hopen : Place stream payloads expected (progress stream expected found [])
        ⟨some (rowsAfter stream expected [])⟩
        (remaining stream expected (expected + List.length ([] : List Data)) payloads) := .adding hread rfl
    rw [if_pos hread]
    exact hopen
  · rw [if_neg hread]
    exact .refusing hread

theorem Place.added {found : Int} {done left : List Data} {payload : Data} (hread : storedVersion found = expected)
    (hpayloads : payloads = done ++ payload :: left) :
    Place stream payloads expected
      (progress stream expected found done ++ [inserted (rowAfter stream (expected + done.length) payload)])
      ⟨some (rowsAfter stream expected done ++ [rowAfter stream (expected + done.length) payload])⟩
      (remaining stream expected (expected + done.length + 1) left) := by
  have hadded : Place stream payloads expected (progress stream expected found (done ++ [payload]))
      ⟨some (rowsAfter stream expected (done ++ [payload]))⟩
      (remaining stream expected (expected + (done ++ [payload]).length) left) :=
    .adding hread (by rw [hpayloads]; simp)
  rw [progress_concat, rowsAfter_append, List.length_append] at hadded
  exact hadded

/-- The commit was carried out, but its reply was lost, and so the append goes back. -/
structure CommitLost (stream : String) (payloads : List Data) (expected : Nat) (trouble : Trouble)
    (x : Exchange statements) (r : Query Nat) (table table' : Table) : Prop where
  lost : trouble.lost = true
  reply : ∃ fault, x = ⟨.commit, (.error fault : Except Fault Unit)⟩ ∧ r = abandon (fault.report "commit_transaction")
  adds : table' = table ++ rowsAfter stream expected payloads

theorem Pending.step {s : Statement} {next : Except Fault s.Result → Query Nat} {reply : Except Fault s.Result}
    (h : Pending stream payloads expected t session s next)
    (hrespond : session.respond trouble s table = (reply, session', table')) :
    Place stream payloads expected (t ++ [⟨s, reply⟩]) session' (next reply) ∧
      (table' = table ++ contributed stream payloads expected (next reply) ∨
        CommitLost stream payloads expected trouble ⟨s, reply⟩ (next reply) table table') := by
  cases h with
  | beginning =>
    obtain ⟨rfl, ⟨⟨fault, rfl⟩, rfl⟩ | ⟨rfl, rfl⟩⟩ := respond_begin hrespond
    · exact ⟨.failed (.unbegun fault), .inl (List.append_nil _).symm⟩
    · exact ⟨.awaiting, .inl (List.append_nil _).symm⟩
  | reading =>
    obtain ⟨rfl, ⟨fault, rfl⟩ | ⟨reason, rfl⟩ | ⟨rfl, rfl⟩⟩ := respond_currentVersion hrespond
    · exact ⟨.halted (.unread fault), .inl (List.append_nil _).symm⟩
    · exact ⟨.halted (.unreadable reason), .inl (List.append_nil _).symm⟩
    · refine ⟨.read, .inl ?_⟩
      dsimp only
      split
      · rw [contributed_remaining, List.append_nil]
      · exact (List.append_nil _).symm
  | refusing hread =>
    obtain ⟨rfl, rfl⟩ := respond_rollback hrespond
    cases reply with
    | ok done => exact ⟨.failed (.outdated hread), .inl (List.append_nil _).symm⟩
    | error fault => exact ⟨.failed (.stuck hread fault), .inl (List.append_nil _).symm⟩
  | @inserting found done payload left hread hpayloads =>
    obtain ⟨rfl, ⟨fault, rfl⟩ | ⟨rfl, rfl⟩⟩ := respond_insert hrespond
    · exact ⟨.halted (.refused hread payload fault), .inl (List.append_nil _).symm⟩
    · exact ⟨.added hread hpayloads, .inl (by rw [contributed_remaining, List.append_nil])⟩
  | committing hread =>
    obtain ⟨⟨fault, rfl⟩, rfl | ⟨hlost, rfl⟩⟩ | ⟨rfl, rfl, rfl, -⟩ := respond_commit hrespond
    · exact ⟨.halted (.uncommitted hread fault), .inl (List.append_nil _).symm⟩
    · exact ⟨.halted (.uncommitted hread fault), .inr ⟨hlost, ⟨fault, rfl, rfl⟩, rfl⟩⟩
    · exact ⟨.done hread, .inl rfl⟩
  | abandoning h =>
    obtain ⟨rfl, rfl⟩ := respond_rollback hrespond
    exact ⟨.failed (.abandoned h reply), .inl (List.append_nil _).symm⟩

end

end Workflow.Database

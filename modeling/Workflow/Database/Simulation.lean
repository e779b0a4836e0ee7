import Workflow.Database.Session
import Workflow.Effect.Run

/-!
# A database that misbehaves on schedule

One session on a table, over a link that may be down. At chosen statements another transaction
may commit a row first, or the statement may fail; the results of a kind of statement may lack a
column. The statements that arrive are logged, rollbacks apart.
-/

namespace Workflow.Database

inductive StatementKind where
  | createTable
  | begin
  | commit
  | rollback
  | currentVersion
  | insert
  | load
  | contains
  | delete
  deriving DecidableEq, Repr, Inhabited

namespace StatementKind

def of : Statement → StatementKind
  | .createTable => createTable
  | .begin => begin
  | .commit => commit
  | .rollback => rollback
  | .currentVersion _ => currentVersion
  | .insert _ => insert
  | .load .. => load
  | .contains _ => contains
  | .delete _ => delete

def name : StatementKind → String
  | createTable => "schema"
  | begin => "begin"
  | commit => "commit"
  | rollback => "rollback"
  | currentVersion => "current_version"
  | insert => "insert"
  | load => "load"
  | contains => "exists"
  | delete => "delete"

end StatementKind

/-- What happens at the statement of a kind with this number, counted from 1. -/
structure Incident where
  kind : StatementKind
  number : Nat
  foreign : Option Row
  failure : Option (String × Option String)
  deriving Inhabited

inductive Link where
  | up
  | down (reason : String)
  | closed
  deriving DecidableEq, Repr, Inhabited

structure Simulation where
  link : Link
  session : Session
  table : Table
  incidents : List Incident
  /-- The columns that the results of a kind of statement lack. -/
  missing : List (StatementKind × String)
  arrived : List StatementKind
  log : List Statement

namespace Simulation

def rowColumns : List String :=
  ["entry_id", "stream_id", "stream_version", "entry_type", "payload", "recorded_at"]

def noColumn (name : String) : String :=
  "no column found for name: " ++ name

def project {α : Type} (missing columns : List String) (column : Column α) : Column α :=
  match columns.find? missing.contains with
  | some name => .error (noColumn name)
  | none => column

def drop (missing : List String) : (s : Statement) → s.Result → s.Result
  | .currentVersion _, (column : Column Int) => project missing ["current_version"] column
  | .load .., (rows : List (Column Row)) => rows.map (project missing rowColumns)
  | .contains _, (column : Column Bool) => project missing ["present"] column
  | .createTable, r => r
  | .begin, r => r
  | .commit, r => r
  | .rollback, r => r
  | .insert _, r => r
  | .delete _, r => r

def acceptForeign (table : Table) (row : Row) : Table :=
  if Table.takes table row then table else table ++ [row]

def logged (db : Simulation) (s : Statement) : List Statement :=
  if s = .rollback then db.log else s :: db.log

/-- The session after a statement that failed: a commit or a rollback that fails ends the
transaction all the same. -/
def afterFailure (s : Statement) (session : Session) : Session :=
  match s with
  | .commit => .idle
  | .rollback => .idle
  | _ => session

def receive (db : Simulation) (s : Statement) : Except Fault s.Result × Simulation :=
  let kind := StatementKind.of s
  let arrived := kind :: db.arrived
  let number := arrived.countP (· == kind)
  let incidents := db.incidents.filter fun i => i.kind == kind && i.number == number
  let table := (incidents.filterMap Incident.foreign).foldl acceptForeign db.table
  let log := db.logged s
  match incidents.findSome? Incident.failure with
  | some (message, code) =>
    (.error (.refused code message),
      { db with arrived, log, table, session := afterFailure s db.session })
  | none =>
    let (reply, session, table) := db.session.execute s table
    let missing := (db.missing.filter (·.1 == kind)).map (·.2)
    (reply.map (drop missing s), { db with arrived, log, table, session })

def answer : Answers statements Simulation
  | s, db =>
    match db.link with
    | .up => some (db.receive s)
    | .down reason => some (.error (.disconnected reason), db)
    | .closed => some (.error .closed, db)

def host : Host statements Simulation :=
  ⟨answer, fun _ db => db⟩

def close (db : Simulation) : Simulation :=
  { db with link := .closed }

def readLog (db : Simulation) : List Statement × Simulation :=
  (db.log.reverse, { db with log := [] })

end Simulation

end Workflow.Database

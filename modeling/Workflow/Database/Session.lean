import Workflow.Database.Statement

/-!
# Tables and sessions

What the statements mean. A session works on a table of committed rows; between `begin` and
`commit` it keeps the rows it inserted aside. It sees the committed rows and its own,
and a key can be taken only once.
-/

namespace Workflow.Database

abbrev Table := List Row

namespace Table

def byVersion (rows : List Row) : List Row :=
  rows.mergeSort fun a b => a.version ≤ b.version

def inOrder (rows : List Row) : List Row :=
  rows.mergeSort fun a b => a.stream < b.stream || (a.stream == b.stream && a.version ≤ b.version)

def takes (rows : List Row) (row : Row) : Bool :=
  rows.any row.sameKey

def greatest (rows : List Row) (stream : String) : Int :=
  match (rows.filter (·.stream == stream)).map Row.version with
  | [] => 0
  | v :: vs => vs.foldl max v

def after (rows : List Row) (stream : String) (version : Nat) : List Row :=
  byVersion (rows.filter fun r => r.stream == stream && (version : Int) < r.version)

def without (rows : List Row) (stream : String) : List Row :=
  rows.filter (·.stream != stream)

end Table

/-- A session: the rows inserted by its open transaction, if there is one. -/
structure Session where
  staged : Option (List Row)
  deriving Repr, Inhabited, DecidableEq

namespace Session

def idle : Session := ⟨none⟩

def view (session : Session) (table : Table) : List Row :=
  table ++ session.staged.getD []

def taken : Fault :=
  .refused (some Fault.uniqueViolation)
    "duplicate key value violates unique constraint \"process_events_pkey\""

def insert (session : Session) (table : Table) (row : Row) :
    Except Fault Unit × Session × Table :=
  if Table.takes (session.view table) row then (.error taken, session, table)
  else
    match session.staged with
    | some staged => (.ok (), ⟨some (staged ++ [row])⟩, table)
    | none => (.ok (), session, table ++ [row])

/-- Commits the open transaction, unless somebody took a key of it in the meantime. -/
def commit (session : Session) (table : Table) : Except Fault Unit × Session × Table :=
  let staged := session.staged.getD []
  if staged.any (Table.takes table) then (.error taken, idle, table)
  else (.ok (), idle, table ++ staged)

def execute : (s : Statement) → Session → Table → Except Fault s.Result × Session × Table
  | .createTable, session, table => (.ok (), session, table)
  | .begin, _, table => (.ok (), ⟨some []⟩, table)
  | .commit, session, table => session.commit table
  | .rollback, _, table => (.ok (), idle, table)
  | .currentVersion stream, session, table =>
    (.ok (.ok (Table.greatest (session.view table) stream)), session, table)
  | .insert row, session, table => session.insert table row
  | .load stream after, session, table =>
    (.ok ((Table.after (session.view table) stream after).map .ok), session, table)
  | .contains stream, session, table =>
    (.ok (.ok ((session.view table).any (·.stream == stream))), session, table)
  | .delete stream, session, table =>
    (.ok (), ⟨session.staged.map (Table.without · stream)⟩, Table.without table stream)

end Session

end Workflow.Database

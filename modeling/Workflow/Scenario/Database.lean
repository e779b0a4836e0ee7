import Workflow.Database.Simulation
import Workflow.Database.Store
import Workflow.Script.Effect
import Workflow.Text.Position

/-!
# Database scenarios

Calls on a store on a simulated database, step by step. Entries are any data values; a record
that says so cannot be encoded or decoded.
-/

namespace Workflow.Scenario

open Database

/-- Data values as entries. A record with a field `unserializable` cannot be encoded and one with
a field `undecodable` cannot be decoded; the field gives the reason, which may end in the position
of a fault. -/
def markedCodec : EntryCodec Data where
  encode d :=
    match d.field? "unserializable" with
    | some reason => .error (Text.Position.settle reason.asText)
    | none => .ok d
  decode d :=
    match d.field? "undecodable" with
    | some reason => .error (Text.Position.settle reason.asText)
    | none => .ok d

inductive DatabaseStep where
  | call (call : StoreCall Data)
  | rows (stream : String) (after : Option Nat)
  | ensureSchema
  | close

inductive DatabaseYield where
  | answer (call : StoreCall Data) (answer : call.Answer)
  | rows (rows : List Row)
  | nothing

def databaseWork : DatabaseStep → Query DatabaseYield
  | .call call => (query markedCodec call).map (.answer call)
  | .rows stream after => (loadRows stream after).map .rows
  | .ensureSchema => ensureSchema.map fun _ => .nothing
  | .close => .pure .nothing

structure DatabaseReport where
  outcome : Outcome StoreError DatabaseYield
  log : List Statement

def databaseStep (db : Simulation) (step : DatabaseStep) : DatabaseReport × Simulation :=
  let db :=
    match step with
    | .close => db.close
    | _ => db
  let (outcome, db) := (databaseWork step).run Simulation.host db
  let (log, db) := db.readLog
  (⟨outcome, log⟩, db)

def databaseSteps (db : Simulation) : List DatabaseStep → List DatabaseReport × Simulation
  | [] => ([], db)
  | step :: rest =>
    let (report, db) := databaseStep db step
    let (reports, db) := databaseSteps db rest
    (report :: reports, db)

def database (link : Link) (rows : List Row) (incidents : List Incident)
    (missing : List (StatementKind × String)) (steps : List DatabaseStep) :
    List DatabaseReport × List Row :=
  let (reports, db) := databaseSteps ⟨link, .idle, rows, incidents, missing, [], []⟩ steps
  (reports, Table.inOrder db.table)

end Workflow.Scenario

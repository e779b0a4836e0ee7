import Workflow.Proofs.Database.Trouble
import Workflow.Proofs.Effect.Trace

/-!
# Unsteady databases

Before every statement others may change the table, and any statement may fail. The database keeps what it was
asked. A simulated database whose link is up is an unsteady one (`exists_upsets`).
-/

namespace Workflow.Database

/-- What others do to the table right before a statement, and what goes wrong with it. -/
structure Upset where
  others : Table → Table
  trouble : Trouble

def Upset.andThen (upset : Upset) (upsets : Nat → Upset) : Nat → Upset
  | 0 => upset
  | n + 1 => upsets n

/-- A statement as it was carried out: the session and the table that it met, and the reply. -/
structure Moment where
  session : Session
  table : Table
  exchange : Exchange statements

structure Unsteady where
  session : Session
  table : Table
  upsets : Nat → Upset
  past : List Moment

namespace Unsteady

def met (w : Unsteady) : Table :=
  (w.upsets 0).others w.table

def exchanges (w : Unsteady) : List (Exchange statements) :=
  w.past.map Moment.exchange

def receive (s : Statement) (w : Unsteady) : Except Fault s.Result × Unsteady :=
  let answered := w.session.respond (w.upsets 0).trouble s w.met
  (answered.1, {
    session := answered.2.1
    table := answered.2.2
    upsets := fun n => w.upsets (n + 1)
    past := w.past ++ [⟨w.session, w.met, ⟨s, answered.1⟩⟩] })

def host : Host statements Unsteady :=
  ⟨fun s w => some (w.receive s), fun _ w => w⟩

theorem receive_of_respond {session session' : Session} {table table' : Table} {upsets : Nat → Upset} {s : Statement}
    {reply : Except Fault s.Result} (past : List Moment)
    (h : session.respond (upsets 0).trouble s ((upsets 0).others table) = (reply, session', table')) :
    (⟨session, table, upsets, past⟩ : Unsteady).receive s =
      (reply, ⟨session', table', fun n => upsets (n + 1),
        past ++ [⟨session, (upsets 0).others table, ⟨s, reply⟩⟩]⟩) := by
  simp only [receive, met, h]

end Unsteady

/-- The table as the others alone leave it before this many statements. -/
def amid (table : Table) (upsets : Nat → Upset) : Nat → Table
  | 0 => table
  | n + 1 => (upsets n).others (amid table upsets n)

/-! ## Simulated databases -/

namespace Simulation

def columns : Statement → List String
  | .currentVersion _ => ["current_version"]
  | .load .. => rowColumns
  | .contains _ => ["present"]
  | _ => []

def lacks (missing : List String) (s : Statement) : Option String :=
  ((columns s).find? missing.contains).map noColumn

theorem project_eq {α : Type} (missing columns : List String) (column : Column α) :
    project missing columns column = blot ((columns.find? missing.contains).map noColumn) column := by
  unfold project
  cases columns.find? missing.contains <;> rfl

theorem drop_eq (missing : List String) (s : Statement) (r : s.Result) :
    drop missing s r = Trouble.spoil (fun _ => lacks missing s) s r := by
  cases s with
  | currentVersion stream => exact project_eq missing ["current_version"] (show Column Int from r)
  | load stream after =>
    have hrows : ∀ rows : List (Column Row), rows.map (project missing rowColumns) =
        rows.mapIdx fun _ row => blot ((rowColumns.find? missing.contains).map noColumn) row := by
      intro rows
      rw [mapIdx_const, funext (project_eq missing rowColumns)]
    exact hrows r
  | contains stream => exact project_eq missing ["present"] (show Column Bool from r)
  | _ => rfl

def due (db : Simulation) (s : Statement) : List Incident :=
  let kind := StatementKind.of s
  db.incidents.filter fun i => i.kind == kind && i.number == (kind :: db.arrived).countP (· == kind)

def upset (db : Simulation) (s : Statement) : Upset where
  others table := ((db.due s).filterMap Incident.foreign).foldl acceptForeign table
  trouble := {
    fault := ((db.due s).findSome? Incident.failure).map fun failure => .refused failure.2 failure.1
    lost := false
    unreadable := fun _ => lacks ((db.missing.filter (·.1 == StatementKind.of s)).map (·.2)) s }

theorem receive_eq (db : Simulation) (s : Statement) :
    ((db.receive s).1, (db.receive s).2.session, (db.receive s).2.table) =
      db.session.respond (db.upset s).trouble s ((db.upset s).others db.table) := by
  simp only [receive, upset, due, Session.respond]
  generalize db.incidents.filter _ = incidents
  cases incidents.findSome? Incident.failure with
  | some failure => rfl
  | none =>
    simp only [Option.map_none, funext (drop_eq _ s)]

theorem receive_keeps (db : Simulation) (s : Statement) : (db.receive s).2.link = db.link ∧
    (db.receive s).2.incidents = db.incidents ∧ (db.receive s).2.missing = db.missing := by
  simp only [receive]
  generalize db.incidents.filter _ = incidents
  cases incidents.findSome? Incident.failure <;> exact ⟨rfl, rfl, rfl⟩

theorem answer_of_up {db : Simulation} (hup : db.link = .up) (s : Statement) :
    host.answer s db = some (db.receive s) := by
  cases db
  cases hup
  rfl

/-- What a simulated database answers, an unsteady one does, and it comes to the same session and table. -/
theorem exists_upsets {α : Type} (e : Query α) (db : Simulation) (hup : db.link = .up) :
    ∃ upsets, ∀ past,
      let ran := e.run Unsteady.host ⟨db.session, db.table, upsets, past⟩
      let simulated := e.run host db
      (ran.1, ran.2.session, ran.2.table) = (simulated.1, simulated.2.session, simulated.2.table) := by
  induction e generalizing db with
  | pure a => exact ⟨fun _ => ⟨id, .none⟩, fun _ => rfl⟩
  | fail err => exact ⟨fun _ => ⟨id, .none⟩, fun _ => rfl⟩
  | pause time next ih => exact ih db hup
  | call s next ih =>
    obtain ⟨upsets, hrest⟩ := ih (db.receive s).1 (db.receive s).2 ((receive_keeps db s).1.trans hup)
    refine ⟨(db.upset s).andThen upsets, fun past => ?_⟩
    have hreceive : (⟨db.session, db.table, (db.upset s).andThen upsets, past⟩ : Unsteady).receive s = _ :=
      Unsteady.receive_of_respond past (receive_eq db s).symm
    rw [Effect.run_call_of_answer host (answer_of_up hup s),
      Effect.run_call_of_answer Unsteady.host (congrArg some hreceive)]
    exact hrest _

end Simulation

end Workflow.Database

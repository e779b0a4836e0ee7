import Workflow.Database.Store
import Workflow.Proofs.Database.Table
import Workflow.Proofs.Database.Unsteady
import Workflow.Proofs.Effect.Run

/-!
# Undisturbed databases

A session that has the database to itself, and no statement fails. A simulated database that nothing happens to
answers as such a session does (`run_undisturbed`). An append to a stream whose versions have no gap adds its rows
or is refused.
-/

namespace Workflow.Database

def Session.host : Host statements (Session × Table) where
  answer s w := some (w.1.execute s w.2)
  wait _ w := w

structure Simulation.Undisturbed (db : Simulation) : Prop where
  link : db.link = .up
  incidents : db.incidents = []
  missing : db.missing = []

namespace Simulation

theorem lacks_nil (s : Statement) : lacks [] s = none := by
  have hnone : (columns s).find? ([] : List String).contains = none :=
    List.find?_eq_none.mpr fun _ _ => Bool.false_ne_true
  rw [lacks, hnone]
  rfl

theorem Undisturbed.receive {db : Simulation} (h : db.Undisturbed) (s : Statement) :
    ((db.receive s).1, (db.receive s).2.session, (db.receive s).2.table) = db.session.execute s db.table ∧
      (db.receive s).2.Undisturbed := by
  obtain ⟨hlink, hincidents, hmissing⟩ := h
  obtain ⟨hlink', hincidents', hmissing'⟩ := receive_keeps db s
  refine ⟨?_, hlink'.trans hlink, hincidents'.trans hincidents, hmissing'.trans hmissing⟩
  have hdue : db.due s = [] := by rw [due, hincidents]; rfl
  rw [receive_eq, upset, hdue, hmissing, List.filter_nil, List.map_nil, lacks_nil]
  exact respond_of_quiet ⟨rfl, fun _ => rfl⟩ s

end Simulation

theorem run_undisturbed {α : Type} (e : Query α) {db : Simulation} (h : db.Undisturbed) :
    ∃ db' : Simulation, e.run Simulation.host db = ((e.run Session.host (db.session, db.table)).1, db') ∧
      db'.Undisturbed ∧ (db'.session, db'.table) = (e.run Session.host (db.session, db.table)).2 := by
  induction e generalizing db with
  | pure a => exact ⟨db, rfl, h, rfl⟩
  | fail err => exact ⟨db, rfl, h, rfl⟩
  | pause time next ih => exact ih h
  | call s next ih =>
    obtain ⟨hreceive, hafter⟩ := h.receive s
    obtain ⟨db', hrun, hdb', hend⟩ := ih (db.receive s).1 hafter
    have hquiet : (Effect.call s next : Query α).run Session.host (db.session, db.table) =
        (next (db.receive s).1).run Session.host ((db.receive s).2.session, (db.receive s).2.table) :=
      Effect.run_call_of_answer Session.host (congrArg some hreceive.symm) next
    have hstep := Effect.run_call_of_answer Simulation.host (Simulation.answer_of_up h.link s) next
    exact ⟨db', hstep.trans (hrun.trans (congrArg (fun ran => (ran.1, db')) hquiet.symm)), hdb',
      hend.trans (congrArg Prod.snd hquiet.symm)⟩

/-! ## Appending to a stream without a gap -/

section
variable {stream : String} {table staged : Table} {version expected : Nat} {payloads : List Data}

theorem run_call_of_execute {α : Type} {s : Statement} {next : Except Fault s.Result → Query α} {session : Session}
    {reply : Except Fault s.Result} {w : Session × Table} (h : session.execute s table = (reply, w)) :
    (Effect.call s next : Query α).run Session.host (session, table) = (next reply).run Session.host w := by
  show (next (session.execute s table).1).run Session.host (session.execute s table).2 = _
  rw [h]

theorem execute_insert {row : Row} (h : Table.takes (table ++ staged) row = false) :
    (⟨some staged⟩ : Session).execute (.insert row) table = (.ok (), ⟨some (staged ++ [row])⟩, table) := by
  have hview : (⟨some staged⟩ : Session).view table = table ++ staged := rfl
  simp only [Session.execute, Session.insert, hview, h]
  rfl

theorem run_insertEntry (h : Table.Gapless (table ++ staged) stream version) (hlimit : version + 1 < versionLimit)
    (payload : Data) :
    (insertEntry stream expected (version + 1) payload).run Session.host (⟨some staged⟩, table) =
      (.done (), ⟨some (staged ++ rowsAfter stream version [payload])⟩, table) := by
  have hnext : (version : Int) < (rowAfter stream version payload).version := by
    show (version : Int) < (version + 1 : Nat)
    omega
  have hfree := h.not_takes rfl hnext
  rw [insertEntry, versionParameter, if_pos hlimit, Effect.pure_bind]
  exact run_call_of_execute (execute_insert hfree)

theorem run_insertAll (h : Table.Gapless (table ++ staged) stream version)
    (hlimit : version + payloads.length < versionLimit) :
    (insertAll stream expected version payloads).run Session.host (⟨some staged⟩, table) =
      (.done (version + payloads.length), ⟨some (staged ++ rowsAfter stream version payloads)⟩, table) := by
  induction payloads generalizing staged version with
  | nil => simp [insertAll, rowsAfter]
  | cons payload rest ih =>
    have hlength : version + (payload :: rest).length = version + 1 + rest.length := by simp; omega
    rw [hlength] at hlimit ⊢
    have hnext : Table.Gapless (table ++ (staged ++ rowsAfter stream version [payload])) stream (version + 1) := by
      rw [← List.append_assoc]
      exact h.append [payload]
    rw [insertAll, Effect.andThen, Effect.run_bind, run_insertEntry h (by omega) payload]
    simp only
    rw [ih hnext hlimit, List.append_assoc]
    rfl

theorem execute_commit (h : Table.Gapless table stream version) :
    (⟨some (rowsAfter stream version payloads)⟩ : Session).execute .commit table =
      (.ok (), .idle, table ++ rowsAfter stream version payloads) := by
  have hfree : (rowsAfter stream version payloads).any (Table.takes table) = false := by
    rw [List.any_eq_false]
    intro row hrow
    have hversion : row.version ∈ (rowsAfter stream version payloads).map Row.version := List.mem_map_of_mem hrow
    rw [map_version_rowsAfter] at hversion
    obtain ⟨v, hv, hrowv⟩ := List.mem_map.mp hversion
    rw [List.mem_range'_1] at hv
    rw [h.not_takes (stream_of_mem_rowsAfter hrow) (by omega)]
    exact Bool.false_ne_true
  simp only [Session.execute, Session.commit, Option.getD_some, hfree]
  rfl

theorem run_appendPayloads (h : Table.Gapless table stream version) :
    (appendPayloads stream payloads expected).run Session.host (.idle, table) =
      (if version = expected then insertAndCommit stream expected payloads else refuse stream expected version).run
        Session.host (⟨some []⟩, table) := by
  have hread : storedVersion (Table.greatest (table ++ []) stream) = version := by
    rw [List.append_nil, h.greatest]; rfl
  rw [← hread]
  rfl

theorem run_appendPayloads_of_expected (h : Table.Gapless table stream expected)
    (hlimit : expected + payloads.length < versionLimit) :
    (appendPayloads stream payloads expected).run Session.host (.idle, table) =
      (.done (expected + payloads.length), .idle, table ++ rowsAfter stream expected payloads) := by
  have hopen : Table.Gapless (table ++ []) stream expected := by rw [List.append_nil]; exact h
  have hinserted : (insertAll stream expected expected payloads).run Session.host (⟨some []⟩, table) = _ :=
    run_insertAll hopen hlimit
  have hcommitted : ((Query.send "commit_transaction" .commit).map fun _ => expected + payloads.length).run Session.host
      (⟨some (rowsAfter stream expected payloads)⟩, table) =
        (.done (expected + payloads.length), .idle, table ++ rowsAfter stream expected payloads) :=
    run_call_of_execute (execute_commit h)
  rw [run_appendPayloads h, if_pos rfl, insertAndCommit, orAbandon, Effect.run_recover, Effect.run_bind, hinserted,
    List.nil_append]
  simp only [hcommitted]

theorem run_appendPayloads_of_other (h : Table.Gapless table stream version) (hne : version ≠ expected) :
    (appendPayloads stream payloads expected).run Session.host (.idle, table) =
      (.failed (.concurrency stream expected version), .idle, table) := by
  rw [run_appendPayloads h, if_neg hne]
  rfl

end

end Workflow.Database

import Workflow.Database.Simulation

/-!
# Statements that may fail

Any statement may fail, with any fault, and a result may lack what is read from it, each row of it by itself. A
statement that fails changes no rows, unless it was carried out and only the reply was lost. A commit or a rollback
that fails ends the transaction. The lemmas say what each statement of a transaction can come to.
-/

namespace Workflow.Database

structure Trouble where
  fault : Option Fault
  /-- A statement that fails was carried out all the same. -/
  lost : Bool
  unreadable : Nat → Option String

def blot {α : Type} (reason? : Option String) (column : Column α) : Column α :=
  match reason? with
  | some reason => .error reason
  | none => column

theorem mapIdx_const {α β : Type} (f : α → β) (as : List α) : as.mapIdx (fun _ a => f a) = as.map f := by
  induction as with
  | nil => rfl
  | cons a as ih => rw [List.mapIdx_cons, ih, List.map_cons]

namespace Trouble

def none : Trouble := ⟨.none, false, fun _ => .none⟩

structure Quiet (trouble : Trouble) : Prop where
  fault : trouble.fault = .none
  unreadable n : trouble.unreadable n = .none

theorem quiet_none : none.Quiet := ⟨rfl, fun _ => rfl⟩

def spoil (unreadable : Nat → Option String) : (s : Statement) → s.Result → s.Result
  | .currentVersion _, (column : Column Int) => blot (unreadable 0) column
  | .load .., (rows : List (Column Row)) => rows.mapIdx fun n row => blot (unreadable n) row
  | .contains _, (column : Column Bool) => blot (unreadable 0) column
  | .createTable, r => r
  | .begin, r => r
  | .commit, r => r
  | .rollback, r => r
  | .insert _, r => r
  | .delete _, r => r

theorem spoil_none {unreadable : Nat → Option String} (h : ∀ n, unreadable n = .none) (s : Statement) (r : s.Result) :
    spoil unreadable s r = r := by
  cases s with
  | currentVersion stream =>
    show blot (unreadable 0) _ = _
    rw [h 0]
    rfl
  | load stream after =>
    show List.mapIdx (fun n row => blot (unreadable n) row) _ = _
    simp only [h]
    exact (mapIdx_const id _).trans (List.map_id _)
  | contains stream =>
    show blot (unreadable 0) _ = _
    rw [h 0]
    rfl
  | _ => rfl

end Trouble

def Session.respond (session : Session) (trouble : Trouble) (s : Statement) (table : Table) :
    Except Fault s.Result × Session × Table :=
  match trouble.fault with
  | some fault =>
    (.error fault, Simulation.afterFailure s session, if trouble.lost then (session.execute s table).2.2 else table)
  | none => ((session.execute s table).1.map (Trouble.spoil trouble.unreadable s), (session.execute s table).2)

/-! ## What a statement can come to -/

section
variable {session session' : Session} {trouble : Trouble} {table table' : Table}

theorem respond_of_quiet (h : trouble.Quiet) (s : Statement) :
    session.respond trouble s table = session.execute s table := by
  unfold Session.respond
  rw [h.fault]
  refine Prod.ext ?_ rfl
  show (session.execute s table).1.map _ = (session.execute s table).1
  cases (session.execute s table).1 with
  | error fault => rfl
  | ok r => exact congrArg Except.ok (Trouble.spoil_none h.unreadable s r)

theorem respond_cases {s : Statement} {reply : Except Fault s.Result}
    (h : session.respond trouble s table = (reply, session', table')) :
    ((∃ fault, reply = .error fault) ∧ session' = Simulation.afterFailure s session ∧
        (table' = table ∨ trouble.lost = true ∧ table' = (session.execute s table).2.2)) ∨
      ∃ done, session.execute s table = (done, session', table') ∧
        reply = done.map (Trouble.spoil trouble.unreadable s) := by
  unfold Session.respond at h
  split at h
  · cases h
    refine .inl ⟨⟨_, rfl⟩, rfl, ?_⟩
    by_cases hlost : trouble.lost = true
    · exact .inr ⟨hlost, if_pos hlost⟩
    · exact .inl (if_neg hlost)
  · obtain ⟨hreply, hnext⟩ := Prod.mk.inj h
    exact .inr ⟨_, Prod.ext rfl hnext, hreply.symm⟩

theorem respond_done {s : Statement} {reply : Except Fault s.Result}
    (h : session.respond trouble s table = (reply, session', table'))
    (hspoil : ∀ unreadable r, Trouble.spoil unreadable s r = r) :
    ((∃ fault, reply = .error fault) ∧ session' = Simulation.afterFailure s session ∧
        (table' = table ∨ trouble.lost = true ∧ table' = (session.execute s table).2.2)) ∨
      session.execute s table = (reply, session', table') := by
  rcases respond_cases h with hfailed | ⟨done, hexecute, hreply⟩
  · exact .inl hfailed
  · have hsame : reply = done := by
      rw [hreply]
      cases done with
      | error fault => rfl
      | ok r => exact congrArg Except.ok (hspoil trouble.unreadable r)
    rw [hsame]
    exact .inr hexecute

theorem eq_of_lost {s : Statement} (hs : (session.execute s table).2.2 = table)
    (h : table' = table ∨ trouble.lost = true ∧ table' = (session.execute s table).2.2) : table' = table := by
  rcases h with h | ⟨-, h⟩
  · exact h
  · exact h.trans hs

theorem table_insert (staged : List Row) (table : Table) (row : Row) :
    ((⟨some staged⟩ : Session).execute (.insert row) table).2.2 = table := by
  show ((⟨some staged⟩ : Session).insert table row).2.2 = table
  unfold Session.insert
  split <;> rfl

theorem respond_begin {reply : Except Fault Unit}
    (h : session.respond trouble .begin table = (reply, session', table')) :
    table' = table ∧
      ((∃ fault, reply = .error fault) ∧ session' = session ∨ reply = .ok () ∧ session' = ⟨some []⟩) := by
  rcases respond_done h (fun _ _ => rfl) with ⟨hreply, hsession, htable⟩ | hexecute
  · exact ⟨eq_of_lost rfl htable, .inl ⟨hreply, hsession⟩⟩
  · cases hexecute
    exact ⟨rfl, .inr ⟨rfl, rfl⟩⟩

theorem respond_currentVersion {stream : String} {reply : Except Fault (Column Int)}
    (h : session.respond trouble (.currentVersion stream) table = (reply, session', table')) :
    table' = table ∧ ((∃ fault, reply = .error fault) ∨ (∃ reason, reply = .ok (.error reason)) ∨
      reply = .ok (.ok (Table.greatest (session.view table) stream)) ∧ session' = session) := by
  rcases respond_cases h with ⟨hreply, -, htable⟩ | ⟨done, hexecute, hreply⟩
  · exact ⟨eq_of_lost rfl htable, .inl hreply⟩
  · cases hexecute
    refine ⟨rfl, .inr ?_⟩
    have hblot : reply = .ok (blot (trouble.unreadable 0) (.ok (Table.greatest (session.view table) stream))) := hreply
    rw [hblot]
    cases trouble.unreadable 0 with
    | some reason => exact .inl ⟨reason, rfl⟩
    | none => exact .inr ⟨rfl, rfl⟩

theorem respond_insert {staged : List Row} {row : Row} {reply : Except Fault Unit}
    (h : (⟨some staged⟩ : Session).respond trouble (.insert row) table = (reply, session', table')) :
    table' = table ∧ ((∃ fault, reply = .error fault) ∨ reply = .ok () ∧ session' = ⟨some (staged ++ [row])⟩) := by
  rcases respond_done h (fun _ _ => rfl) with ⟨hreply, -, htable⟩ | hexecute
  · exact ⟨eq_of_lost (table_insert staged table row) htable, .inl hreply⟩
  · have hinsert : (⟨some staged⟩ : Session).insert table row = (reply, session', table') := hexecute
    unfold Session.insert at hinsert
    by_cases htaken : Table.takes ((⟨some staged⟩ : Session).view table) row = true
    · rw [if_pos htaken] at hinsert
      cases hinsert
      exact ⟨rfl, .inl ⟨_, rfl⟩⟩
    · rw [if_neg htaken] at hinsert
      cases hinsert
      exact ⟨rfl, .inr ⟨rfl, rfl⟩⟩

/-- A commit that fails has added nothing, or it has added what it should and the reply was lost. -/
theorem respond_commit {staged : List Row} {reply : Except Fault Unit}
    (h : (⟨some staged⟩ : Session).respond trouble .commit table = (reply, session', table')) :
    (∃ fault, reply = .error fault) ∧ (table' = table ∨ trouble.lost = true ∧ table' = table ++ staged) ∨
      reply = .ok () ∧ session' = .idle ∧ table' = table ++ staged ∧ ∀ row ∈ staged, Table.takes table row = false := by
  have hcommit : (⟨some staged⟩ : Session).execute .commit table =
      if staged.any (Table.takes table) then (.error Session.taken, .idle, table)
      else (.ok (), .idle, table ++ staged) :=
    rfl
  by_cases htaken : staged.any (Table.takes table) = true
  · rw [if_pos htaken] at hcommit
    rcases respond_done h (fun _ _ => rfl) with ⟨hreply, -, htable⟩ | hexecute
    · exact .inl ⟨hreply, .inl (eq_of_lost (congrArg (·.2.2) hcommit) htable)⟩
    · rw [hcommit] at hexecute
      cases hexecute
      exact .inl ⟨⟨_, rfl⟩, .inl rfl⟩
  · rw [if_neg htaken] at hcommit
    rcases respond_done h (fun _ _ => rfl) with ⟨hreply, -, htable | ⟨hlost, htable⟩⟩ | hexecute
    · exact .inl ⟨hreply, .inl htable⟩
    · rw [hcommit] at htable
      exact .inl ⟨hreply, .inr ⟨hlost, htable⟩⟩
    · rw [hcommit] at hexecute
      cases hexecute
      exact .inr ⟨rfl, rfl, rfl, by simpa using htaken⟩

theorem respond_rollback {reply : Except Fault Unit}
    (h : session.respond trouble .rollback table = (reply, session', table')) : session' = .idle ∧ table' = table := by
  rcases respond_done h (fun _ _ => rfl) with ⟨-, hsession, htable⟩ | hexecute
  · exact ⟨hsession, eq_of_lost rfl htable⟩
  · cases hexecute
    exact ⟨rfl, rfl⟩

theorem respond_delete {stream : String} {reply : Except Fault Unit} (hkept : trouble.lost = false)
    (h : session.respond trouble (.delete stream) table = (reply, session', table')) :
    (∃ fault, reply = .error fault) ∧ table' = table ∨ reply = .ok () ∧ table' = Table.without table stream := by
  rcases respond_done h (fun _ _ => rfl) with ⟨hreply, -, htable | ⟨hlost, -⟩⟩ | hexecute
  · exact .inl ⟨hreply, htable⟩
  · rw [hkept] at hlost
    cases hlost
  · cases hexecute
    exact .inr ⟨rfl, rfl⟩

end

end Workflow.Database

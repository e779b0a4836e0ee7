import Workflow.Proofs.Database.Course
import Workflow.Proofs.Database.Loading

/-!
# Appending to an unsteady database

An append adds all of its rows or none, and its error tells what went wrong. Main statement: `append_settles`.
-/

namespace Workflow.Database

/-! ## What the exchanges tell -/

def versionRead : Exchange statements → Option Nat
  | ⟨.currentVersion _, (reply : Except Fault (Column Int))⟩ =>
    match reply with
    | .ok (.ok found) => some (storedVersion found)
    | _ => none
  | _ => none

def collision : Exchange statements → Option Int
  | ⟨.insert row, (reply : Except Fault Unit)⟩ =>
    match reply with
    | .error fault => if fault.isUniqueViolation then some row.version else none
    | .ok _ => none
  | _ => none

def undone : Exchange statements → Bool
  | ⟨.rollback, (reply : Except Fault Unit)⟩ =>
    match reply with
    | .ok _ => true
    | .error _ => false
  | _ => false

/-- The append has to answer that the stream is at another version: it read that version and went back, or
the key of a row was taken. -/
def Outrun (expected : Nat) (t : List (Exchange statements)) (actual : Nat) : Prop :=
  actual ∈ t.filterMap versionRead ∧ actual ≠ expected ∧ t.any undone = true ∨
    (actual : Int) ∈ t.filterMap collision

section
variable {stream : String} {payloads : List Data} {expected : Nat} {t : List (Exchange statements)} {e : StoreError}

theorem exists_report (fault : Fault) (operation : String) : ∃ text, fault.report operation = .database text := by
  cases fault <;> exact ⟨_, rfl⟩

theorem report_ne_concurrency (fault : Fault) (operation name : String) (version actual : Nat) :
    fault.report operation ≠ .concurrency name version actual := by
  obtain ⟨text, h⟩ := exists_report fault operation
  rw [h]
  nofun

theorem filterMap_progress {α : Type} {f : Exchange statements → Option α} (hf : ∀ row, f (inserted row) = none)
    (found : Int) (done : List Data) :
    (progress stream expected found done).filterMap f = [began, readings stream found].filterMap f := by
  have hrows : ((rowsAfter stream expected done).map inserted).filterMap f = [] := by
    rw [List.filterMap_map]
    exact List.filterMap_eq_nil_iff.mpr fun row _ => hf row
  have hsplit : progress stream expected found done =
      [began, readings stream found] ++ (rowsAfter stream expected done).map inserted := rfl
  rw [hsplit, List.filterMap_append, hrows, List.append_nil]

theorem versionRead_progress (found : Int) (done : List Data) :
    (progress stream expected found done).filterMap versionRead = [storedVersion found] :=
  filterMap_progress (fun _ => rfl) found done

theorem collision_progress (found : Int) (done : List Data) :
    (progress stream expected found done).filterMap collision = [] :=
  filterMap_progress (fun _ => rfl) found done

theorem outrun_progress {found : Int} (hread : storedVersion found = expected) (done : List Data)
    {rest : List (Exchange statements)} (hrest : rest.filterMap versionRead = []) {actual : Nat} :
    Outrun expected (progress stream expected found done ++ rest) actual ↔
      (actual : Int) ∈ rest.filterMap collision := by
  rw [Outrun, List.filterMap_append, List.filterMap_append, versionRead_progress, collision_progress, hrest, hread]
  constructor
  · rintro (⟨hactual, hne, -⟩ | hactual)
    · exact absurd (List.mem_singleton.mp hactual) hne
    · exact hactual
  · exact .inr

theorem not_outrun (hread : t.filterMap versionRead = []) (hcollision : t.filterMap collision = []) (actual : Nat) :
    ¬ Outrun expected t actual := by
  rintro (⟨h, -⟩ | h)
  · rw [hread] at h; cases h
  · rw [hcollision] at h; cases h

def Tells (stream : String) (expected : Nat) (t : List (Exchange statements)) (e : StoreError) : Prop :=
  ∀ name version actual, e = .concurrency name version actual ↔
    name = stream ∧ version = expected ∧ Outrun expected t actual

theorem tells_of_not (he : ∀ name version actual, e ≠ .concurrency name version actual)
    (ht : ∀ actual, ¬ Outrun expected t actual) : Tells stream expected t e := by
  intro name version actual
  refine iff_of_false (he name version actual) ?_
  rintro ⟨-, -, h⟩
  exact ht actual h

theorem tells_concurrency {actual : Nat} (ht : ∀ other, Outrun expected t other ↔ other = actual) :
    Tells stream expected t (.concurrency stream expected actual) := by
  intro name version other
  rw [ht, StoreError.concurrency.injEq, eq_comm (a := stream), eq_comm (a := expected), eq_comm (a := actual)]

theorem tells_denied {found : Int} (hread : storedVersion found = expected) (done : List Data) (payload : Data)
    (fault : Fault) (reply : Except Fault Unit) :
    Tells stream expected (progress stream expected found done ++
        [denied (rowAfter stream (expected + done.length) payload) fault, wentBack reply])
      (refusal stream expected (expected + done.length + 1) fault) := by
  have hdenied : collision (denied (rowAfter stream (expected + done.length) payload) fault) =
      if fault.isUniqueViolation then some ((expected + done.length + 1 : Nat) : Int) else none := rfl
  unfold refusal
  by_cases hfault : fault.isUniqueViolation = true
  · rw [if_pos hfault] at hdenied ⊢
    refine tells_concurrency fun other => (outrun_progress hread _ rfl).trans ?_
    rw [List.filterMap_cons_some hdenied]
    exact List.mem_singleton.trans Int.natCast_inj
  · rw [if_neg hfault] at hdenied ⊢
    refine tells_of_not (report_ne_concurrency fault _) fun actual h => ?_
    have hactual := (outrun_progress hread _ rfl).mp h
    rw [List.filterMap_cons_none hdenied] at hactual
    cases hactual

theorem Halted.tells (h : Halted stream payloads expected t e) (reply : Except Fault Unit) :
    Tells stream expected (t ++ [wentBack reply]) e := by
  cases h with
  | unread fault => exact tells_of_not (report_ne_concurrency fault _) (not_outrun rfl rfl)
  | unreadable reason => exact tells_of_not nofun (not_outrun rfl rfl)
  | outOfRange hread =>
    refine tells_of_not nofun fun actual h => ?_
    cases (outrun_progress hread _ rfl).mp h
  | refused hread payload fault =>
    rw [List.append_assoc]
    exact tells_denied hread _ payload fault reply
  | uncommitted hread fault =>
    rw [List.append_assoc]
    refine tells_of_not (report_ne_concurrency fault _) fun actual h => ?_
    cases (outrun_progress hread _ rfl).mp h

theorem Failed.tells (h : Failed stream payloads expected t e) : Tells stream expected t e := by
  cases h with
  | unbegun fault => exact tells_of_not (report_ne_concurrency fault _) (not_outrun rfl rfl)
  | @outdated found hread =>
    refine tells_concurrency fun other => ?_
    constructor
    · rintro (⟨hother, -, -⟩ | hother)
      · exact List.mem_singleton.mp hother
      · cases hother
    · rintro rfl
      exact .inl ⟨List.mem_singleton_self _, hread, rfl⟩
  | stuck hread fault =>
    refine tells_of_not (report_ne_concurrency fault _) fun actual h => ?_
    rcases h with ⟨-, -, hundone⟩ | hcollision
    · cases hundone
    · cases hcollision
  | abandoned h reply => exact h.tells reply

theorem Halted.kind (h : Halted stream payloads expected t e) :
    (∃ text, e = .database text) ∨ ∃ actual, e = .concurrency stream expected actual := by
  cases h with
  | unread fault => exact .inl (exists_report fault _)
  | unreadable reason => exact .inl ⟨_, rfl⟩
  | outOfRange hread => exact .inl ⟨_, rfl⟩
  | refused hread payload fault =>
    unfold refusal
    split
    · exact .inr ⟨_, rfl⟩
    · exact .inl (exists_report fault _)
  | uncommitted hread fault => exact .inl (exists_report fault _)

theorem Failed.kind (h : Failed stream payloads expected t e) :
    (∃ text, e = .database text) ∨ ∃ actual, e = .concurrency stream expected actual := by
  cases h with
  | unbegun fault => exact .inl (exists_report fault _)
  | outdated hread => exact .inr ⟨_, rfl⟩
  | stuck hread fault => exact .inl (exists_report fault _)
  | abandoned h reply => exact h.kind

end

/-! ## A run -/

section
variable {stream : String} {payloads : List Data} {expected : Nat} {table : Table} {upsets : Nat → Upset}
  {w : Unsteady} {r : Query Nat}

def Moment.InOrder (m : Moment) (stream : String) (expected : Nat) : Prop :=
  ∀ row, m.exchange.op = .insert row → ∃ done payload,
    m.session = ⟨some (rowsAfter stream expected done)⟩ ∧ row = rowAfter stream (expected + done.length) payload

theorem Pending.inOrder {t : List (Exchange statements)} {session : Session} {s : Statement}
    {next : Except Fault s.Result → Query Nat} (h : Pending stream payloads expected t session s next) (table : Table)
    (reply : Except Fault s.Result) : (⟨session, table, ⟨s, reply⟩⟩ : Moment).InOrder stream expected := by
  intro row hrow
  cases h with
  | inserting hread hpayloads => cases hrow; exact ⟨_, _, rfl, rfl⟩
  | _ => cases hrow

theorem Moment.InOrder.le {m : Moment} (h : m.InOrder stream expected) {row : Row} (hrow : m.exchange.op = .insert row)
    (htaken : Table.takes (m.session.view m.table) row = true) {n : Nat} (hgapless : Table.Gapless m.table stream n) :
    row.version ≤ n := by
  obtain ⟨done, payload, hsession, rfl⟩ := h row hrow
  have hview : m.session.view m.table = m.table ++ rowsAfter stream expected done := by rw [hsession]; rfl
  have hversion : (rowAfter stream (expected + done.length) payload).version ∈
      Table.versions (m.table ++ rowsAfter stream expected done) stream := Table.takes_iff.mp (hview ▸ htaken)
  rw [Table.versions_append, Table.versions_rowsAfter] at hversion
  -- the key is one of the stream's, for the append's own rows have smaller versions
  rcases List.mem_append.mp hversion with hversion | hversion
  · exact (hgapless.mem_iff.mp hversion).2
  · obtain ⟨v, hv, hrowv⟩ := List.mem_map.mp hversion
    rw [List.mem_range'_1] at hv
    have hnext : (v : Int) = (expected + done.length + 1 : Nat) := hrowv
    omega

/-- The reply to the commit was lost, though it was carried out: the append goes back, or has gone back. -/
inductive Slipped (stream : String) (payloads : List Data) (expected : Nat) (table : Table) (upsets : Nat → Upset)
    (w : Unsteady) (r : Query Nat) (e : StoreError) : Prop
  | back {n} (hpast : w.past.length = n + 1) (hlost : (upsets n).trouble.lost = true)
      (hcommit : (w.exchanges[n]?).map Exchange.op = some .commit) (hr : r = abandon e)
      (hadds : w.table = amid table upsets (n + 1) ++ rowsAfter stream expected payloads)
  | gone {n} (hpast : w.past.length = n + 2) (hlost : (upsets n).trouble.lost = true)
      (hcommit : (w.exchanges[n]?).map Exchange.op = some .commit) (hr : r = .fail e)
      (hadds : w.table = (upsets (n + 1)).others (amid table upsets (n + 1) ++ rowsAfter stream expected payloads))

/-- Where an append stands in a run that began with this table. It has added nothing unless it is over, or the reply
to its commit was lost. -/
structure Underway (stream : String) (payloads : List Data) (expected : Nat) (table : Table) (upsets : Nat → Upset)
    (w : Unsteady) (r : Query Nat) : Prop where
  place : Place stream payloads expected w.exchanges w.session r
  ahead : ∀ n, w.upsets n = upsets (w.past.length + n)
  adds : w.table = amid table upsets w.past.length ++ contributed stream payloads expected r ∨
    ∃ e, Slipped stream payloads expected table upsets w r e
  inOrder : ∀ m ∈ w.past, m.InOrder stream expected

theorem Unsteady.length_receive (w : Unsteady) (s : Statement) : (w.receive s).2.past.length = w.past.length + 1 := by
  simp [Unsteady.receive]

theorem Unsteady.exchanges_receive (w : Unsteady) (s : Statement) :
    (w.receive s).2.exchanges = w.exchanges ++ [⟨s, (w.receive s).1⟩] := by
  simp [Unsteady.receive, Unsteady.exchanges]

theorem Unsteady.length_exchanges (w : Unsteady) : w.exchanges.length = w.past.length :=
  List.length_map _

theorem Slipped.receive {s : Statement} {next : Except Fault s.Result → Query Nat} {e : StoreError}
    (h : Slipped stream payloads expected table upsets w (.call s next) e)
    (hahead : ∀ n, w.upsets n = upsets (w.past.length + n)) :
    Slipped stream payloads expected table upsets (w.receive s).2 (next (w.receive s).1) e := by
  cases h with
  | @back n hpast hlost hcommit hr hadds =>
    have hcall : (Effect.call s next : Query Nat) = .call Statement.rollback fun _ => .fail e := hr
    cases hcall
    have hupset : w.upsets 0 = upsets (n + 1) := by rw [hahead, hpast]
    have hrespond : w.session.respond (w.upsets 0).trouble .rollback w.met =
        ((w.receive .rollback).1, (w.receive .rollback).2.session, (w.receive .rollback).2.table) := rfl
    refine .gone ?_ hlost ?_ rfl ?_
    · rw [Unsteady.length_receive, hpast]
    · have hn : n < w.exchanges.length := by rw [Unsteady.length_exchanges, hpast]; exact Nat.lt_succ_self n
      rw [Unsteady.exchanges_receive, List.getElem?_append_left hn]
      exact hcommit
    · rw [(respond_rollback hrespond).2, Unsteady.met, hupset, hadds]
  | gone _ _ _ hr => cases hr

theorem CommitLost.slipped {s : Statement} {next : Except Fault s.Result → Query Nat}
    (h : CommitLost stream payloads expected (w.upsets 0).trouble ⟨s, (w.receive s).1⟩ (next (w.receive s).1) w.met
      (w.receive s).2.table)
    (hmet : w.met = amid table upsets (w.past.length + 1)) (hupset : w.upsets 0 = upsets w.past.length) :
    ∃ e, Slipped stream payloads expected table upsets (w.receive s).2 (next (w.receive s).1) e := by
  obtain ⟨fault, hx, hr⟩ := h.reply
  refine ⟨_, .back (Unsteady.length_receive w s) (hupset ▸ h.lost) ?_ hr (hmet ▸ h.adds)⟩
  have hlast : (w.receive s).2.exchanges[w.past.length]? = some ⟨s, (w.receive s).1⟩ := by
    rw [Unsteady.exchanges_receive, ← Unsteady.length_exchanges]
    exact List.getElem?_concat_length
  rw [hlast, hx]
  rfl

theorem Underway.receive {s : Statement} {next : Except Fault s.Result → Query Nat}
    (h : Underway stream payloads expected table upsets w (.call s next)) :
    Underway stream payloads expected table upsets (w.receive s).2 (next (w.receive s).1) := by
  have hpending := h.place.pending
  have hrespond : w.session.respond (w.upsets 0).trouble s w.met =
      ((w.receive s).1, (w.receive s).2.session, (w.receive s).2.table) := rfl
  obtain ⟨hplace, htable⟩ := hpending.step hrespond
  have hupset : w.upsets 0 = upsets w.past.length := h.ahead 0
  refine ⟨?_, ?_, ?_, ?_⟩
  · rw [Unsteady.exchanges_receive]
    exact hplace
  · intro n
    rw [Unsteady.length_receive, Nat.add_right_comm]
    exact h.ahead (n + 1)
  · rcases h.adds with hadds | ⟨e, hslipped⟩
    · have hmet : w.met = amid table upsets (w.past.length + 1) := by
        rw [Unsteady.met, hadds.trans (List.append_nil _), hupset]
        rfl
      rcases htable with htable | hlost
      · rw [Unsteady.length_receive, ← hmet]
        exact .inl htable
      · exact .inr (hlost.slipped hmet hupset)
    · exact .inr ⟨e, hslipped.receive h.ahead⟩
  · intro m hm
    rcases List.mem_append.mp hm with hm | hm
    · exact h.inOrder m hm
    · obtain rfl := List.mem_singleton.mp hm
      exact hpending.inOrder w.met _

theorem Underway.adds_of_pure {v : Nat} (h : Underway stream payloads expected table upsets w (.pure v)) :
    w.table = amid table upsets w.past.length ++ rowsAfter stream expected payloads := by
  rcases h.adds with hadds | ⟨e, hslipped⟩
  · exact hadds
  · cases hslipped with
    | back _ _ _ hr => cases hr
    | gone _ _ _ hr => cases hr

theorem Underway.adds_of_fail {e : StoreError} (h : Underway stream payloads expected table upsets w (.fail e)) :
    w.table = amid table upsets w.past.length ∨
      ∃ n, (upsets n).trouble.lost = true ∧ (w.exchanges[n]?).map Exchange.op = some .commit ∧
        w.table = (upsets (n + 1)).others (amid table upsets (n + 1) ++ rowsAfter stream expected payloads) := by
  rcases h.adds with hadds | ⟨e', hslipped⟩
  · exact .inl (hadds.trans (List.append_nil _))
  · cases hslipped with
    | back _ _ _ hr => cases hr
    | gone _ hlost hcommit _ hadds => exact .inr ⟨_, hlost, hcommit, hadds⟩

theorem run_underway :
    let ran := (appendPayloads stream payloads expected).run Unsteady.host ⟨.idle, table, upsets, []⟩
    (∃ v, ran.1 = .done v ∧ Underway stream payloads expected table upsets ran.2 (.pure v)) ∨
      ∃ e, ran.1 = .failed e ∧ Underway stream payloads expected table upsets ran.2 (.fail e) := by
  have hstart : Underway stream payloads expected table upsets ⟨.idle, table, upsets, []⟩
      (appendPayloads stream payloads expected) := by
    refine ⟨.opening, fun n => (by rw [List.length_nil, Nat.zero_add]), ?_, fun m hm => absurd hm List.not_mem_nil⟩
    rw [appendPayloads_eq]
    exact .inl (List.append_nil _).symm
  rcases Effect.run_ends Unsteady.host (fun w s next h => ⟨_, _, rfl, Underway.receive h⟩)
      (fun w time next h => absurd rfl h.place.no_pause) hstart with ⟨v, w, hrun, h⟩ | ⟨e, w, hrun, h⟩
  · exact .inl ⟨v, congrArg Prod.fst hrun, by rw [hrun]; exact h⟩
  · exact .inr ⟨e, congrArg Prod.fst hrun, by rw [hrun]; exact h⟩

end

theorem length_encodeAll {T : Type} {codec : EntryCodec T} {entries : List T} {payloads : List Data}
    (h : encodeAll codec entries = .ok payloads) : payloads.length = entries.length := by
  have hlength := congrArg List.length (mapM_eq_ok_iff.mp h)
  rw [List.length_map, List.length_map] at hlength
  exact hlength.symm

/-- How an append comes out: with all of its rows in the table, or with none. If it fails with all of them, then it is
the reply to its commit that was lost. -/
structure AllOrNothing {T : Type} (codec : EntryCodec T) (stream : String) (entries : List T) (expected : Nat)
    (table : Table) (upsets : Nat → Upset) (outcome : Outcome StoreError Nat) (w : Unsteady) : Prop where
  ends : outcome ≠ .stopped
  idle : w.session = .idle
  all : ∀ v, outcome = .done v → v = expected + entries.length ∧ w.exchanges.filterMap versionRead = [expected] ∧
    ∃ payloads, encodeAll codec entries = .ok payloads ∧
      w.table = amid table upsets w.past.length ++ rowsAfter stream expected payloads
  nothing : (∀ n, (upsets n).trouble.lost = false) → ∀ e, outcome = .failed e →
    w.table = amid table upsets w.past.length
  lost : ∀ e, outcome = .failed e → w.table = amid table upsets w.past.length ∨
    ∃ payloads n, encodeAll codec entries = .ok payloads ∧ (upsets n).trouble.lost = true ∧
      (w.exchanges[n]?).map Exchange.op = some .commit ∧
      w.table = (upsets (n + 1)).others (amid table upsets (n + 1) ++ rowsAfter stream expected payloads)
  serialization : ∀ reason, outcome = .failed (.serialization reason) ↔ encodeAll codec entries = .error reason
  unasked : ∀ reason, encodeAll codec entries = .error reason → w.past = []
  concurrency : ∀ name version actual, outcome = .failed (.concurrency name version actual) ↔
    name = stream ∧ version = expected ∧ Outrun expected w.exchanges actual
  failed : ∀ payloads e, encodeAll codec entries = .ok payloads → outcome = .failed e →
    Failed stream payloads expected w.exchanges e
  /-- The version of a row is past the one expected, and if its key is taken and the stream has no gap it is no
  greater than the stream's. -/
  actual : ∀ m ∈ w.past, ∀ row, m.exchange.op = .insert row →
    row.stream = stream ∧ expected < row.version ∧
      (Table.takes (m.session.view m.table) row = true →
        ∀ n, Table.Gapless m.table stream n → row.version ≤ n)

section
variable {T : Type} {codec : EntryCodec T} {stream : String} {entries : List T} {payloads : List Data} {expected : Nat}
  {table : Table} {upsets : Nat → Upset} {w : Unsteady}

theorem Moment.InOrder.follows {m : Moment} (h : m.InOrder stream expected) {row : Row}
    (hrow : m.exchange.op = .insert row) : row.stream = stream ∧ expected < row.version := by
  obtain ⟨done, payload, -, rfl⟩ := h row hrow
  have hversion : (expected : Int) < (expected + done.length + 1 : Nat) := by omega
  exact ⟨rfl, hversion⟩

theorem Underway.actual {r : Query Nat} (h : Underway stream payloads expected table upsets w r) :
    ∀ m ∈ w.past, ∀ row, m.exchange.op = .insert row →
      row.stream = stream ∧ expected < row.version ∧
        (Table.takes (m.session.view m.table) row = true →
          ∀ n, Table.Gapless m.table stream n → row.version ≤ n) := by
  intro m hm row hrow
  obtain ⟨hstream, hversion⟩ := (h.inOrder m hm).follows hrow
  exact ⟨hstream, hversion, fun htaken n hgapless => (h.inOrder m hm).le hrow htaken hgapless⟩

theorem Underway.settles_done (hencode : encodeAll codec entries = .ok payloads) {v : Nat}
    (h : Underway stream payloads expected table upsets w (.pure v)) :
    AllOrNothing codec stream entries expected table upsets (.done v) w := by
  rcases h.place.next with ⟨_, _, hr, -⟩ | ⟨_, hr, -⟩ | ⟨found, hr, hidle, hread, hexchanges⟩
  · cases hr
  · cases hr
  · cases hr
    have hversion : w.exchanges.filterMap versionRead = [expected] := by
      rw [hexchanges, List.filterMap_append, versionRead_progress, hread]
      rfl
    have houtrun : ∀ actual, ¬ Outrun expected w.exchanges actual := by
      intro actual h
      rw [hexchanges] at h
      cases (outrun_progress hread payloads rfl).mp h
    exact {
      ends := nofun
      idle := hidle
      all := by
        rintro v ⟨⟩
        exact ⟨by rw [length_encodeAll hencode], hversion, payloads, hencode, h.adds_of_pure⟩
      nothing := fun _ => nofun
      lost := nofun
      serialization := by
        intro reason
        rw [hencode]
        exact iff_of_false nofun nofun
      unasked := by
        intro reason hreason
        rw [hencode] at hreason
        cases hreason
      concurrency := fun name version actual => iff_of_false nofun fun h => houtrun actual h.2.2
      failed := nofun
      actual := h.actual }

theorem Underway.settles_failed (hencode : encodeAll codec entries = .ok payloads) {e : StoreError}
    (h : Underway stream payloads expected table upsets w (.fail e)) :
    AllOrNothing codec stream entries expected table upsets (.failed e) w := by
  rcases h.place.next with ⟨_, _, hr, -⟩ | ⟨_, hr, hidle, hfailed⟩ | ⟨_, hr, -⟩
  · cases hr
  · cases hr
    exact {
      ends := nofun
      idle := hidle
      all := nofun
      nothing := by
        intro hkept _ _
        rcases h.adds_of_fail with hnothing | ⟨n, hlost, -⟩
        · exact hnothing
        · rw [hkept n] at hlost
          cases hlost
      lost := fun _ _ => h.adds_of_fail.imp_right fun ⟨n, hlost⟩ => ⟨payloads, n, hencode, hlost⟩
      serialization := by
        intro reason
        rw [hencode, Outcome.failed.injEq]
        rcases hfailed.kind with ⟨text, rfl⟩ | ⟨actual, rfl⟩ <;> exact iff_of_false nofun nofun
      unasked := by
        intro reason hreason
        rw [hencode] at hreason
        cases hreason
      concurrency := by
        intro name version actual
        rw [← hfailed.tells name version actual, Outcome.failed.injEq]
      failed := by
        rintro others _ hothers ⟨⟩
        rw [hencode] at hothers
        cases hothers
        exact hfailed
      actual := h.actual }
  · cases hr

theorem settles_unencoded {reason : String} (hencode : encodeAll codec entries = .error reason) :
    AllOrNothing codec stream entries expected table upsets (.failed (.serialization reason))
      ⟨.idle, table, upsets, []⟩ where
  ends := nofun
  idle := rfl
  all := nofun
  nothing _ _ _ := rfl
  lost _ _ := .inl rfl
  serialization other := by rw [hencode, Outcome.failed.injEq, StoreError.serialization.injEq, Except.error.injEq]
  unasked _ _ := rfl
  concurrency name version actual := iff_of_false nofun fun h => not_outrun rfl rfl actual h.2.2
  failed others e hothers := by
    rw [hencode] at hothers
    cases hothers
  actual := nofun

/-- An append adds all of its rows to the table or none, whatever becomes of its statements and whatever others do
to the table in between. It fails with none added unless the reply to its commit was lost, and answers that the stream
is at another version exactly if it read that version and went back or the key of a row was taken, and then this version
is no greater than the stream's. -/
theorem append_settles (codec : EntryCodec T) (stream : String) (entries : List T) (expected : Nat)
    (table : Table) (upsets : Nat → Upset) :
    let ran := (append codec stream entries expected).run Unsteady.host ⟨.idle, table, upsets, []⟩
    AllOrNothing codec stream entries expected table upsets ran.1 ran.2 := by
  intro ran
  cases hencode : encodeAll codec entries with
  | error reason =>
    have hran : ran = (.failed (.serialization reason), ⟨.idle, table, upsets, []⟩) := by
      simp only [ran, append, hencode, Effect.run_fail]
    rw [hran]
    exact settles_unencoded hencode
  | ok payloads =>
    have hran : ran = (appendPayloads stream payloads expected).run Unsteady.host ⟨.idle, table, upsets, []⟩ := by
      simp only [ran, append, hencode]
    rw [hran]
    rcases run_underway with ⟨v, houtcome, h⟩ | ⟨e, houtcome, h⟩
    · rw [houtcome]
      exact h.settles_done hencode
    · rw [houtcome]
      exact h.settles_failed hencode

end

end Workflow.Database

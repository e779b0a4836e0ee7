import Workflow.Proofs.Database.Loading
import Workflow.Proofs.Delivery.Sequential

/-!
# Workflows on a spoilt stream

A row that does not decode spoils its stream: neither a delivery nor a look at the instance gets past loading, and
nothing is written. The store is on a database here. Main statement: `loads_whole`, what a load gives and what becomes
of the workflows that depend on it.
-/

namespace Workflow

open Database

universe u

variable {Ω : Signature} {H I S E R V St : Type}

namespace Outside

def withStore (o : Outside Ω H V) (store : (call : StoreCall (Entry E)) → St → call.Reply × St) :
    Host (requests Ω H E) (V × St) :=
  HostParts.host {
    act := fun op w => (o.act op w.1).map fun answered => (answered.1, answered.2, w.2)
    store := fun call w => ((store call w.2).1, w.1, (store call w.2).2)
    mediator := fun w => o.mediator w.1
    wait := fun time w => (o.wait time w.1, w.2) }

def onDatabase (o : Outside Ω H V) (codec : EntryCodec (Entry E)) : Host (requests Ω H E) (V × Unsteady) :=
  o.withStore fun call => (query codec call).finish Unsteady.receive

variable {o : Outside Ω H V} {store : (call : StoreCall (Entry E)) → St → call.Reply × St}

theorem answer_withStore {call : StoreCall (Entry E)} {reply : call.Reply} {s s' : St} (h : store call s = (reply, s'))
    (v : V) :
    (o.withStore store).answer (.store call) (v, s) = some (reply, v, s') := by
  show some ((store call s).1, v, (store call s).2) = _
  rw [h]

end Outside

namespace Delivery

section
variable [Inhabited S] {o : Outside Ω H V} {store : (call : StoreCall (Entry E)) → St → call.Reply × St}
  {p : Definition Ω H I S E R} {i : I} {stream : String} {s s' s'' : St} {e : StoreError}

theorem run_inspect_unread (hload : store (.load stream none) s = (.error e, s')) (v : V) :
    (inspect p i stream).run (o.withStore store) (v, s) = (.failed (.delivery (.store e)), v, s') := by
  rw [inspect, history, Effect.run_call_of_answer _ (Outside.answer_withStore hload v)]
  rfl

theorem run_deliver_unread (policy : PacedPolicy) (event : E) (hcontains : store (.contains stream) s = (.ok true, s'))
    (hload : store (.load stream none) s' = (.error e, s'')) (v : V) :
    (deliver policy p i stream event).run (o.withStore store) (v, s) = (.failed (.delivery (.store e)), v, s'') := by
  rw [deliver, retrying_eq, attempt_bind, Effect.run_call_of_answer _ (Outside.answer_withStore hcontains v)]
  show (proceed p i stream event _).run (o.withStore store) (v, s') = _
  rw [proceed, history, Effect.run_call_of_answer _ (Outside.answer_withStore hload v)]
  rfl

end

/-! ## On a database -/

section
variable (codec : EntryCodec (Entry E)) {stream : String} (table : Table) (upsets : Nat → Upset)

theorem finish_contains (hquiet : (upsets 0).trouble.Quiet) {row : Row} (hrow : row ∈ amid table upsets 1)
    (hstream : row.stream = stream) (past : List Moment) :
    ∃ reply, (query codec (.contains stream)).finish Unsteady.receive ⟨.idle, table, upsets, past⟩ =
      (.ok true, ⟨.idle, amid table upsets 1, fun n => upsets (n + 1),
        past ++ [⟨.idle, amid table upsets 1, ⟨.contains stream, reply⟩⟩]⟩) := by
  have hpresent : (amid table upsets 1).any (·.stream == stream) = true :=
    List.any_eq_true.mpr ⟨row, hrow, by simp [hstream]⟩
  have hrespond : Session.idle.respond (upsets 0).trouble (.contains stream) (amid table upsets 1) =
      (.ok (.ok true), .idle, amid table upsets 1) := by
    rw [respond_of_quiet hquiet, ← hpresent]
    exact execute_contains stream (amid table upsets 1)
  have hreceive : (⟨.idle, table, upsets, past⟩ : Unsteady).receive (.contains stream) = _ :=
    Unsteady.receive_of_respond past hrespond
  exact ⟨.ok (.ok true), Effect.finish_of_run (Effect.run_call_of_answer Unsteady.host (congrArg some hreceive) _)⟩

theorem finish_load (hlegal : Table.Legal (amid table upsets 1)) (hquiet : (upsets 0).trouble.Quiet)
    (hspoilt : ∃ row ∈ amid table upsets 1, row.stream = stream ∧ ∃ reason, codec.decode row.payload = .error reason)
    (past : List Moment) :
    ∃ error reply, Spoilt codec (amid table upsets 1) stream 0 error ∧
      (query codec (.load stream none)).finish Unsteady.receive ⟨.idle, table, upsets, past⟩ =
        (.error error, ⟨.idle, amid table upsets 1, fun n => upsets (n + 1),
          past ++ [⟨.idle, amid table upsets 1, ⟨.load stream 0, reply⟩⟩]⟩) := by
  have hword : (none : Option Nat).getD 0 < versionLimit := by decide
  obtain ⟨row, hrow, hstream, reason, hreason⟩ := hspoilt
  have hlater : row ∈ Table.later (amid table upsets 1) stream 0 :=
    Table.mem_later.mpr ⟨hrow, hstream, hlegal.positive row hrow⟩
  obtain ⟨error, herror, hfailed⟩ := (hlegal.lists_after stream 0).loaded_spoilt hquiet ⟨row, hlater, reason, hreason⟩
  obtain ⟨reply, hrun⟩ := run_load codec stream hword table upsets past
  rw [Option.getD_none, hfailed] at hrun
  exact ⟨error, reply, herror, Effect.finish_of_run (x := .error error) hrun⟩

/-- A workflow that asks for its history and fails with the error of the lowest row that does not decode. It sent these
statements, none of which writes, and did nothing in the world outside. -/
structure Unread {α : Type u} (codec : EntryCodec (Entry E)) (stream : String) (table : Table) (upsets : Nat → Upset)
    (sent : List Statement) (v : V) (ran : Outcome Failure α × V × Unsteady) : Prop where
  fails : ∃ error, Spoilt codec (amid table upsets sent.length) stream 0 error ∧
    ran.1 = .failed (.delivery (.store error))
  outside : ran.2.1 = v
  table : ran.2.2.table = amid table upsets sent.length
  sent : ran.2.2.exchanges.map Exchange.op = sent

section
variable [Inhabited S] (o : Outside Ω H V) (p : Definition Ω H I S E R) (i : I) {codec} {table} {upsets}
  (hlegal : ∀ n, Table.Legal (amid table upsets (n + 1))) (hquiet : ∀ n, (upsets n).trouble.Quiet)
  (hspoilt : ∀ n, ∃ row ∈ amid table upsets (n + 1),
    row.stream = stream ∧ ∃ reason, codec.decode row.payload = .error reason)
include hlegal hquiet hspoilt

theorem inspect_unread (v : V) : Unread codec stream table upsets [.load stream 0] v
    ((inspect p i stream).run (o.onDatabase codec) (v, ⟨.idle, table, upsets, []⟩)) := by
  obtain ⟨error, reply, herror, hload⟩ := finish_load codec table upsets (hlegal 0) (hquiet 0) (hspoilt 0) []
  rw [Outside.onDatabase, run_inspect_unread hload]
  exact ⟨⟨error, herror, rfl⟩, rfl, rfl, rfl⟩

theorem deliver_unread (policy : PacedPolicy) (event : E) (v : V) :
    Unread codec stream table upsets [.contains stream, .load stream 0] v
      ((deliver policy p i stream event).run (o.onDatabase codec) (v, ⟨.idle, table, upsets, []⟩)) := by
  obtain ⟨row, hrow, hstream, -⟩ := hspoilt 0
  obtain ⟨reply, hcontains⟩ := finish_contains codec table upsets (hquiet 0) hrow hstream []
  obtain ⟨error, reply', herror, hload⟩ := finish_load codec (amid table upsets 1) (fun n => upsets (n + 1))
    (hlegal 1) (hquiet 1) (hspoilt 1) _
  rw [Outside.onDatabase, run_deliver_unread policy event hcontains hload]
  exact ⟨⟨error, herror, rfl⟩, rfl, rfl, rfl⟩

end

end

/-- A load gives the entries of all rows of the stream after the version, in their order, or none of them; other rows
have no influence. A delivery to a stream with a row that does not decode fails over it, and so does looking at the
instance. -/
theorem loads_whole {T : Type} [Inhabited S] (codec : EntryCodec T) (stream : String) (after : Option Nat)
    (table : Table) (upsets : Nat → Upset) (hlegal : ∀ n, Table.Legal (amid table upsets (n + 1)))
    (events : EntryCodec (Entry E)) (o : Outside Ω H V) (policy : PacedPolicy) (p : Definition Ω H I S E R) (i : I)
    (event : E) (v : V) :
    let ran := (load codec stream after).run Unsteady.host ⟨.idle, table, upsets, []⟩
    Loads codec stream after table upsets ran.1 ran.2 ∧
    (∀ table' upsets', Table.Legal (amid table' upsets' 1) → (upsets' 0).trouble = (upsets 0).trouble →
      (Table.later (amid table' upsets' 1) stream (after.getD 0)).Perm
        (Table.later (amid table upsets 1) stream (after.getD 0)) →
      ((load codec stream after).run Unsteady.host ⟨.idle, table', upsets', []⟩).1 = ran.1) ∧
    ((∀ n, (upsets n).trouble.Quiet) →
      (∀ n, ∃ row ∈ amid table upsets (n + 1),
        row.stream = stream ∧ ∃ reason, events.decode row.payload = .error reason) →
      Unread events stream table upsets [.contains stream, .load stream 0] v
        ((deliver policy p i stream event).run (o.onDatabase events) (v, ⟨.idle, table, upsets, []⟩)) ∧
      Unread events stream table upsets [.load stream 0] v
        ((inspect p i stream).run (o.onDatabase events) (v, ⟨.idle, table, upsets, []⟩))) := by
  refine ⟨load_settles codec stream after (hlegal 0), ?_, ?_⟩
  · intro table' upsets' hlegal' htrouble hsame
    exact load_congr hlegal' (hlegal 0) htrouble hsame
  · intro hquiet hspoilt
    exact ⟨deliver_unread o p i hlegal hquiet hspoilt policy event v, inspect_unread o p i hlegal hquiet hspoilt v⟩

def calm : Nat → Upset :=
  fun _ => ⟨id, .none⟩

theorem amid_calm (table : Table) (n : Nat) : amid table calm n = table := by
  induction n with
  | zero => rfl
  | succ n ih => exact ih

def numerals : EntryCodec (Entry Nat) where
  encode
    | .started => .ok (.text "start")
    | .received n => .ok (.int n)
  decode
    | .text "start" => .ok .started
    | .int n => .ok (.received n.toNat)
    | _ => .error "no entry"

def spotted : Table :=
  [⟨"t", 9, "", .int 5⟩, ⟨"u", 2, "", .null⟩, ⟨"t", 4, "", .null⟩, ⟨"t", 1, "", .text "start"⟩, ⟨"t", 6, "", .int 3⟩]

theorem spoilt_spotted : Spoilt numerals spotted "t" 0 (.serialization "entry 4 of stream 't': no entry") := by
  have hrow : (⟨"t", 4, "", .null⟩ : Row) ∈ Table.later spotted "t" 0 := by decide
  have hreason : numerals.decode .null = .error "no entry" := rfl
  have hbelow : ∀ other ∈ Table.later spotted "t" 0, other.version < (4 : Nat) → other.payload = .text "start" := by
    decide
  have hlowest : ∀ other ∈ Table.later spotted "t" 0, other.version < (4 : Nat) →
      ∃ entry, numerals.decode other.payload = .ok entry := by
    intro other hother hlower
    rw [hbelow other hother hlower]
    exact ⟨.started, rfl⟩
  exact .lowest hrow rfl hreason hlowest

theorem loads_whole_spotted :
    let w : Unsteady := ⟨.idle, spotted, calm, []⟩
    let spot : StoreError := .serialization "entry 4 of stream 't': no entry"
    let delivered :=
      (deliver RetryPolicy.standard.punctual tally () "t" 8).run (noting.onDatabase numerals) (["before"], w)
    (∀ n, Table.Legal (amid spotted calm (n + 1))) ∧
    ((load numerals "t" (some 4)).run Unsteady.host w).1 = .done [.received 3, .received 5] ∧
    ((load numerals "t" none).run Unsteady.host w).1 = .failed spot ∧
    delivered.1 = .failed (.delivery (.store spot)) ∧ delivered.2.1 = ["before"] ∧ delivered.2.2.table = spotted := by
  intro w spot delivered
  have hspotted : Table.Legal spotted := ⟨by decide, by decide⟩
  have hlegal : ∀ n, Table.Legal (amid spotted calm (n + 1)) := fun n => (amid_calm spotted (n + 1)).symm ▸ hspotted
  have hrow : ∃ row ∈ spotted, row.stream = "t" ∧ ∃ reason, numerals.decode row.payload = .error reason :=
    ⟨⟨"t", 4, "", .null⟩, by decide, rfl, "no entry", rfl⟩
  obtain ⟨hall, -, hworkflows⟩ :=
    loads_whole numerals "t" none spotted calm hlegal numerals noting RetryPolicy.standard.punctual tally () 8
      ["before"]
  obtain ⟨hpart, -, -⟩ :=
    loads_whole numerals "t" (some 4) spotted calm hlegal numerals noting RetryPolicy.standard.punctual tally () 8
      ["before"]
  obtain ⟨hdelivered, -⟩ := hworkflows (fun _ => Trouble.quiet_none) fun n => (amid_calm spotted (n + 1)).symm ▸ hrow
  refine ⟨hlegal, ?_, ?_, ?_, hdelivered.outside, hdelivered.table⟩
  · have hlists : Table.Lists spotted "t" 4 [⟨"t", 6, "", .int 3⟩, ⟨"t", 9, "", .int 5⟩] := ⟨by decide, by decide⟩
    have hnumbers : ∀ row ∈ Table.later spotted "t" 4, row.payload = .int 3 ∨ row.payload = .int 5 := by decide
    obtain ⟨entries, hdone⟩ := hpart.done (by decide) Trouble.quiet_none fun row hrow => by
      rcases hnumbers row hrow with hnumber | hnumber
      · exact ⟨.received 3, by rw [hnumber]; rfl⟩
      · exact ⟨.received 5, by rw [hnumber]; rfl⟩
    obtain ⟨rows, hrows, hdecoded⟩ := hpart.whole entries hdone
    obtain rfl := hrows.unique hlists (.refl _)
    have hentries : entries.map (Except.ok (ε := String)) = [.received 3, .received 5].map .ok := hdecoded.symm
    rw [hdone, List.map_injective_iff.mpr (fun _ _ => Except.ok.inj) hentries]
  · obtain ⟨row, hmem, hstream, hreason⟩ := hrow
    obtain ⟨error, hfailed, herror⟩ :=
      hall.spoilt (by decide) Trouble.quiet_none
        ⟨row, Table.mem_later.mpr ⟨hmem, hstream, hspotted.positive row hmem⟩, hreason⟩
    rw [hfailed, herror.unique hspotted spoilt_spotted]
  · obtain ⟨error, herror, hfailed⟩ := hdelivered.fails
    rw [hfailed, herror.unique hspotted spoilt_spotted]

end Delivery

end Workflow

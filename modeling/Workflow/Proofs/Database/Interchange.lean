import Mathlib.Data.List.Infix
import Workflow.Proofs.Database.Loading
import Workflow.Proofs.Database.Quiet
import Workflow.Proofs.Store.Ledger

/-!
# The two stores are interchangeable

A store on a database where nothing fails and nobody else works answers whatever calls it is put as a store in
memory does. Main statement: `stores_interchangeable`. A table stands for a ledger (`Holds`) if the rows of every stream
have the versions from 1 on and payloads that decode to its entries; the tags beside them do not count.
-/

namespace Workflow

namespace Database

/-! ## Tables that stand for ledgers -/

variable {T : Type} {codec : EntryCodec T} {table : Table} {ledger : Ledger T}

def EntryCodec.Lawful (codec : EntryCodec T) : Prop :=
  ∀ entry, ∃ payload, codec.encode entry = .ok payload ∧ codec.decode payload = .ok entry

theorem lawful_ofEvents {E : Type} {codec : Codec E} (h : ∀ e, codec.decode (codec.encode e) = some e) :
    (EntryCodec.ofEvents codec).Lawful := by
  intro entry
  refine ⟨entry.encode codec, rfl, ?_⟩
  simp [EntryCodec.ofEvents, Entry.decode_encode codec h entry]

/-- What counts of a row: its version and what its payload decodes to. -/
def EntryCodec.view (codec : EntryCodec T) (row : Row) : Int × Except String T :=
  (row.version, codec.decode row.payload)

def numbered (entries : List T) (first : Nat) : List (Int × Except String T) :=
  (entries.zipIdx first).map fun e => ((e.2 : Int), .ok e.1)

def Holds (codec : EntryCodec T) (table : Table) (ledger : Ledger T) : Prop :=
  ∀ stream, (table.filter (·.stream == stream)).map codec.view = numbered (ledger stream) 1

theorem numbered_append (entries more : List T) (first : Nat) :
    numbered (entries ++ more) first = numbered entries first ++ numbered more (first + entries.length) := by
  simp [numbered, List.zipIdx_append]

theorem map_fst_numbered (entries : List T) : (numbered entries 1).map Prod.fst = Table.upTo entries.length := by
  have hindices : (entries.zipIdx 1).map Prod.snd = List.range' 1 entries.length := List.zipIdx_map_snd 1 entries
  rw [Table.upTo, ← hindices, numbered, List.map_map, List.map_map]
  rfl

theorem Holds.versions (h : Holds codec table ledger) (stream : String) :
    Table.versions table stream = Table.upTo (ledger stream).length := by
  rw [← map_fst_numbered, ← h stream, List.map_map]
  rfl

theorem Holds.gapless (h : Holds codec table ledger) (stream : String) :
    Table.Gapless table stream (ledger stream).length := by
  rw [Table.Gapless, h.versions stream]

theorem holds_empty : Holds codec [] .empty :=
  fun _ => rfl

/-! ## Reading -/

theorem pairwise_of_versions {rows : List Row} {n : Nat} (h : rows.map Row.version = Table.upTo n) :
    rows.Pairwise fun a b => decide (a.version ≤ b.version) = true := by
  have hsorted := Table.pairwise_upTo n
  rw [← h, List.pairwise_map] at hsorted
  simpa using hsorted

theorem Holds.after (h : Holds codec table ledger) (stream : String) (version : Nat) :
    (Table.after table stream version).mapM (decodeRow codec) = .ok (Ledger.later (ledger stream) version) := by
  have hsplit : table.filter (fun row => row.stream == stream && (version : Int) < row.version) =
      (table.filter (·.stream == stream)).filter fun row => (version : Int) < row.version := by
    rw [List.filter_filter]
    refine List.filter_congr fun row _ => ?_
    rw [Bool.and_comm]
  have hsorted := (pairwise_of_versions (h.versions stream)).filter fun row => (version : Int) < row.version
  rw [Table.after, hsplit, Table.byVersion, List.mergeSort_of_pairwise hsorted, mapM_decodeRow]
  have hlater : ((table.filter (·.stream == stream)).filter fun row => (version : Int) < row.version).map codec.view =
      (numbered (ledger stream) 1).filter fun e => (version : Int) < e.1 := by
    rw [← h stream, List.filter_map]
    rfl
  have hdecoded := congrArg (List.map Prod.snd) hlater
  rw [List.map_map, numbered, List.filter_map, List.map_map] at hdecoded
  simpa [Ledger.later, EntryCodec.view, Function.comp_def] using hdecoded

theorem Holds.any (h : Holds codec table ledger) (stream : String) :
    table.any (·.stream == stream) = !(ledger stream).isEmpty := by
  have hlength := (h.gapless stream).length
  cases hentries : ledger stream with
  | nil =>
    rw [hentries] at hlength
    have hnone := List.length_eq_zero_iff.mp hlength
    rw [List.filter_eq_nil_iff] at hnone
    simpa using hnone
  | cons entry rest =>
    rw [hentries] at hlength
    have hsome : table.filter (·.stream == stream) ≠ [] := List.ne_nil_of_length_pos (by rw [hlength]; simp)
    rw [ne_eq, List.filter_eq_nil_iff] at hsome
    simpa using hsome

/-! ## What the calls do to the ledger -/

theorem encodeAll_of_lawful (hlaw : codec.Lawful) (entries : List T) :
    ∃ payloads, encodeAll codec entries = .ok payloads ∧ payloads.length = entries.length ∧
      ∀ stream version, (rowsAfter stream version payloads).map codec.view = numbered entries (version + 1) := by
  induction entries with
  | nil => exact ⟨[], rfl, rfl, fun _ _ => rfl⟩
  | cons entry entries ih =>
    obtain ⟨payload, hencode, hdecode⟩ := hlaw entry
    obtain ⟨payloads, hpayloads, hlength, hviews⟩ := ih
    refine ⟨payload :: payloads, ?_, by simp [hlength], ?_⟩
    · rw [encodeAll] at hpayloads
      rw [encodeAll, List.mapM_cons, hencode, hpayloads]
      rfl
    · intro stream version
      rw [rowsAfter, List.map_cons, hviews]
      simp [numbered, EntryCodec.view, rowAfter, hdecode]

theorem Holds.append (h : Holds codec table ledger) {stream : String} {new : List T} {payloads : List Data}
    (hviews : (rowsAfter stream (ledger stream).length payloads).map codec.view =
      numbered new ((ledger stream).length + 1)) :
    Holds codec (table ++ rowsAfter stream (ledger stream).length payloads)
      (Function.update ledger stream (ledger stream ++ new)) := by
  intro other
  rw [List.filter_append, List.map_append, h other]
  by_cases hother : other = stream
  · subst hother
    rw [filter_rowsAfter, hviews, Function.update_self, numbered_append, Nat.add_comm 1]
  · rw [filter_rowsAfter_of_ne hother, Function.update_of_ne hother, List.map_nil, List.append_nil]

theorem Holds.without (h : Holds codec table ledger) (stream : String) :
    Holds codec (Table.without table stream) (Function.update ledger stream []) := by
  intro other
  by_cases hother : other = stream
  · subst hother
    simp [Table.without, List.filter_filter, numbered]
  · have hkept : (Table.without table stream).filter (·.stream == other) = table.filter (·.stream == other) := by
      rw [Table.without, List.filter_filter]
      refine List.filter_congr fun row _ => ?_
      by_cases hrow : row.stream = other <;> simp [hrow, hother]
    rw [hkept, h other, Function.update_of_ne hother]

/-! ## Answers -/

theorem run_loadRows {stream : String} {after : Option Nat} (hlimit : after.getD 0 < versionLimit) (table : Table) :
    (loadRows stream after).run Session.host (.idle, table) =
      (.done (Table.after table stream (after.getD 0)), .idle, table) := by
  have hread := readRows_ok (Table.after table stream (after.getD 0))
  rw [loadRows, versionParameter, if_pos hlimit, Effect.pure_bind]
  refine (run_call_of_execute (execute_load stream (after.getD 0) table)).trans ?_
  show (readRows _).run Session.host (.idle, table) = _
  rw [hread]
  rfl

theorem run_contains (stream : String) (table : Table) :
    (contains stream).run Session.host (.idle, table) = (.done (table.any (·.stream == stream)), .idle, table) :=
  run_call_of_execute (execute_contains stream table)

/-- Versions have to fit a word: the one after which entries are loaded, and the one that an append comes to. -/
def Fits : StoreCall T → Ledger T → Prop
  | .append stream new expected, ledger =>
    ((Ledger.call (.append stream new expected) ledger).2 stream).length < versionLimit
  | .load _ after, _ => after.getD 0 < versionLimit
  | _, _ => True

theorem run_query (hlaw : codec.Lawful) (h : Holds codec table ledger) (q : StoreCall T) (hfit : Fits q ledger) :
    ∃ table', (query codec q).run Session.host (.idle, table) =
        (.ofExcept (Ledger.call q ledger).1, .idle, table') ∧ Holds codec table' (Ledger.call q ledger).2 := by
  cases q with
  | append stream new expected =>
    obtain ⟨payloads, hencode, hlength, hviews⟩ := encodeAll_of_lawful hlaw new
    simp only [query, Database.append, hencode]
    by_cases hlen : (ledger stream).length = expected
    · have hcall : Ledger.call (.append stream new expected) ledger =
          (.ok (ledger stream ++ new).length, Function.update ledger stream (ledger stream ++ new)) := if_pos hlen
      have hlimit : expected + payloads.length < versionLimit := by
        simpa [Fits, hcall, hlen, hlength] using hfit
      rw [hcall, List.length_append, hlen, ← hlength]
      subst hlen
      exact ⟨_, run_appendPayloads_of_expected (h.gapless stream) hlimit, h.append (hviews stream _)⟩
    · have hcall : Ledger.call (.append stream new expected) ledger =
          (.error (.concurrency stream expected (ledger stream).length), ledger) := if_neg hlen
      rw [hcall]
      exact ⟨table, run_appendPayloads_of_other (h.gapless stream) hlen, h⟩
  | load stream after =>
    have hrows := h.after stream (after.getD 0)
    have hrun : (load codec stream after).run Session.host (.idle, table) =
        (.done (Ledger.later (ledger stream) (after.getD 0)), .idle, table) := by
      rw [load, Effect.run_bind, run_loadRows hfit]
      simp only [hrows]
      rfl
    cases after with
    | none =>
      rw [Option.getD_none, Ledger.later_eq_drop, List.drop_zero] at hrun
      exact ⟨table, hrun, h⟩
    | some version => exact ⟨table, hrun, h⟩
  | contains stream =>
    refine ⟨table, ?_, h⟩
    rw [query, run_contains, h.any stream]
    rfl
  | delete stream => exact ⟨Table.without table stream, rfl, h.without stream⟩

/-! ## Calls, one after another -/

def answer (codec : EntryCodec T) (q : StoreCall T) (db : Simulation) : Outcome StoreError q.Answer × Simulation :=
  (query codec q).run Simulation.host db

namespace Simulation

def fresh : Simulation :=
  ⟨.up, .idle, [], [], [], [], []⟩

def retagged (db : Simulation) (tag : Row → String) : Simulation :=
  { db with table := db.table.map fun row => { row with entryType := tag row } }

/-- Nobody disturbs the database, and its table stands for the ledger. -/
structure Keeps (db : Simulation) (codec : EntryCodec T) (ledger : Ledger T) : Prop where
  undisturbed : db.Undisturbed
  idle : db.session = .idle
  holds : Holds codec db.table ledger

variable {db : Simulation}

theorem keeps_fresh (codec : EntryCodec T) : fresh.Keeps codec .empty :=
  ⟨⟨rfl, rfl, rfl⟩, rfl, holds_empty⟩

theorem Keeps.retagged (h : db.Keeps codec ledger) (tag : Row → String) : (db.retagged tag).Keeps codec ledger := by
  refine ⟨⟨h.undisturbed.link, h.undisturbed.incidents, h.undisturbed.missing⟩, h.idle, ?_⟩
  intro stream
  rw [← h.holds stream, Simulation.retagged, List.filter_map, List.map_map]
  rfl

theorem Keeps.answer (h : db.Keeps codec ledger) (hlaw : codec.Lawful) {q : StoreCall T} (hfit : Fits q ledger) :
    (Database.answer codec q db).1 = .ofExcept (Ledger.call q ledger).1 ∧
      (Database.answer codec q db).2.Keeps codec (Ledger.call q ledger).2 := by
  obtain ⟨table, hquiet, hholds⟩ := run_query hlaw h.holds q hfit
  obtain ⟨db', hrun, hdb', hend⟩ := run_undisturbed (query codec q) h.undisturbed
  rw [h.idle, hquiet] at hrun hend
  obtain ⟨hidle, htable⟩ := Prod.mk.inj hend
  rw [Database.answer, hrun]
  exact ⟨rfl, hdb', hidle, htable ▸ hholds⟩

end Simulation

theorem length_entries_lt {store : MemoryStore T} {n : Nat} (hn : 0 < n)
    (h : ∀ s ∈ store.streams, s.2.length < n) (stream : String) : (store.entries stream).length < n := by
  cases hf : store.find? stream with
  | none => rw [MemoryStore.entries_of_not_find? hf]; exact hn
  | some stored =>
    obtain ⟨before, behind, hsplit, -⟩ := List.lookup_eq_some_iff.mp hf
    rw [MemoryStore.entries_of_find? hf]
    exact h (stream, stored) (by rw [hsplit]; simp)

theorem fits_of_room {calls : List (StoreCall T)}
    (hfrom : ∀ stream version, StoreCall.load stream (some version) ∈ calls → version < versionLimit)
    (hroom : ∀ served, served <+: calls →
      ∀ s ∈ (serve MemoryStore.call served .empty).2.streams, s.2.length < versionLimit)
    (served : List (StoreCall T)) (q : StoreCall T) (rest : List (StoreCall T)) (hcalls : calls = served ++ q :: rest) :
    Fits q (serve Ledger.call served .empty).2 := by
  have hlimit : 0 < versionLimit := by decide
  cases q with
  | append stream new expected =>
    have hprefix : served ++ [.append stream new expected] <+: calls := ⟨rest, by rw [hcalls]; simp⟩
    have hentries := (MemoryStore.serve_mirrors (served ++ [.append stream new expected])).2.entries
    have hlength := length_entries_lt hlimit (hroom _ hprefix) stream
    rw [hentries, serve_append_snd] at hlength
    exact hlength
  | load stream after =>
    cases after with
    | none => exact hlimit
    | some version => exact hfrom stream version (by rw [hcalls]; simp)
  | contains stream => trivial
  | delete stream => trivial

/-- The stores are interchangeable. Versions are words on the one side: those after which entries are loaded have to
be, and a stream in memory is a vector, which has no room for more entries. What is loaded are the entries appended,
whatever tags are stored beside them. -/
theorem stores_interchangeable (calls : List (StoreCall (Entry Data)))
    (hfrom : ∀ stream version, StoreCall.load stream (some version) ∈ calls → version < versionLimit)
    (hroom : ∀ served, served <+: calls →
      ∀ s ∈ (serve MemoryStore.call served .empty).2.streams, s.2.length < versionLimit) :
    (serve (answer (.ofEvents .data)) calls .fresh).1 =
      (serve MemoryStore.call calls .empty).1.map (fun x => ⟨x.1, .ofExcept x.2⟩) ∧
    ∀ stream tag,
      (answer (.ofEvents .data) (.load stream none)
          ((serve (answer (.ofEvents .data)) calls .fresh).2.retagged tag)).1 =
        .done ((serve MemoryStore.call calls .empty).2.entries stream) := by
  have hlaw : (EntryCodec.ofEvents Codec.data).Lawful := lawful_ofEvents fun _ => rfl
  obtain ⟨hanswers, hkeeps⟩ := serve_simulates Fits (fun q _ _ h hfit => Simulation.Keeps.answer h hlaw hfit) calls _ _
    (Simulation.keeps_fresh _) (fits_of_room hfrom hroom)
  obtain ⟨hmemory, hmirrors⟩ := MemoryStore.serve_mirrors calls
  refine ⟨by rw [hanswers, hmemory], ?_⟩
  intro stream tag
  have hlimit : (none : Option Nat).getD 0 < versionLimit := by decide
  obtain ⟨hloaded, -⟩ := (hkeeps.retagged tag).answer hlaw (q := .load stream none) hlimit
  rw [hloaded, hmirrors.entries]
  rfl

/-- Calls on two streams, with an event that is nothing and events that look like entries. -/
def errands : List (StoreCall (Entry Data)) :=
  [.append "a" [.started, .received .null, .received (.record [("type", .text "ProcessStarted")])] 0,
    .append "a" [.started] 1, .append "a" [] 3, .load "a" (some 1),
    .append "b" [.received (.record [("event", .record [("type", .text "EventReceived")])])] 0,
    .delete "a", .append "a" [.started] 3, .contains "a", .load "b" none]

theorem stores_interchangeable_errands :
    (∀ stream version, StoreCall.load stream (some version) ∈ errands → version < versionLimit) ∧
    (∀ served, served <+: errands →
      ∀ s ∈ (serve MemoryStore.call served .empty).2.streams, s.2.length < versionLimit) ∧
    (serve (answer (.ofEvents .data)) errands .fresh).1 =
      (serve MemoryStore.call errands .empty).1.map (fun x => ⟨x.1, .ofExcept x.2⟩) := by
  have hfrom : ∀ stream version, StoreCall.load stream (some version) ∈ errands → version < versionLimit := by
    intro stream version h
    obtain ⟨-, rfl⟩ : stream = "a" ∧ version = 1 := by simpa [errands] using h
    decide
  have hroom : ∀ served, served <+: errands →
      ∀ s ∈ (serve MemoryStore.call served .empty).2.streams, s.2.length < versionLimit := by
    have hinits : ∀ served ∈ errands.inits,
        ∀ s ∈ (serve MemoryStore.call served .empty).2.streams, s.2.length < versionLimit := by decide
    exact fun served h => hinits served ((List.mem_inits ..).mpr h)
  exact ⟨hfrom, hroom, (stores_interchangeable errands hfrom hroom).1⟩

end Database

end Workflow

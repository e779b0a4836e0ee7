import Mathlib.Data.List.Nodup
import Workflow.Database.Store
import Workflow.Proofs.Database.Table
import Workflow.Proofs.Database.Unsteady
import Workflow.Proofs.Effect.Run

/-!
# Loading a stream

A load selects the rows of a stream after a version, in the order of their versions, and gives the entries of all of
them or none. Main statement: `load_settles`. What it gives is a matter of these rows alone (`load_congr`).
-/

namespace Workflow.Database

/-! ## Lists of which each element may fail -/

section
variable {α β ε : Type} {f : α → Except ε β} {as : List α}

theorem mapM_eq_ok_iff {bs : List β} : as.mapM f = .ok bs ↔ as.map f = bs.map .ok := by
  induction as generalizing bs with
  | nil => cases bs <;> simp [pure, Except.pure]
  | cons a as ih =>
    rw [List.mapM_cons, List.map_cons]
    cases ha : f a with
    | error e => cases bs <;> simp [bind, Except.bind]
    | ok b =>
      cases has : as.mapM f with
      | error e => cases bs <;> simp [bind, Except.bind, ← ih, has]
      | ok rest => cases bs <;> simp [bind, Except.bind, pure, Except.pure, ← ih, has]

theorem split_of_mapM_error {e : ε} (h : as.mapM f = .error e) :
    ∃ front a back, as = front ++ a :: back ∧ f a = .error e ∧ ∀ b ∈ front, ∃ c, f b = .ok c := by
  induction as with
  | nil => cases h
  | cons a as ih =>
    rw [List.mapM_cons] at h
    cases ha : f a with
    | error e' =>
      rw [ha] at h
      cases h
      exact ⟨[], a, as, rfl, ha, nofun⟩
    | ok b =>
      cases has : as.mapM f with
      | ok bs =>
        rw [ha, has] at h
        cases h
      | error e' =>
        rw [ha, has] at h
        cases h
        obtain ⟨front, a', back, rfl, ha', hfront⟩ := ih has
        exact ⟨a :: front, a', back, rfl, ha', List.forall_mem_cons.mpr ⟨⟨b, ha⟩, hfront⟩⟩

end

/-! ## The rows to load -/

namespace Table

/-- What the schema asks of the rows: versions above 0, and no key twice. -/
structure Legal (rows : List Row) : Prop where
  positive : ∀ row ∈ rows, 0 < row.version
  keyed : (rows.map fun row => (row.stream, row.version)).Nodup

def later (rows : List Row) (stream : String) (version : Nat) : List Row :=
  rows.filter fun row => row.stream == stream && (version : Int) < row.version

/-- The rows of a stream after a version, each once, by their versions. -/
structure Lists (rows : List Row) (stream : String) (version : Nat) (listed : List Row) : Prop where
  perm : listed.Perm (later rows stream version)
  ascending : listed.Pairwise (·.version < ·.version)

section
variable {rows rows' listed listed' : List Row} {stream : String} {version : Nat} {row : Row}

theorem mem_later :
    row ∈ later rows stream version ↔ row ∈ rows ∧ row.stream = stream ∧ (version : Int) < row.version := by
  simp [later]

theorem Legal.pairwise_later (h : Legal rows) (stream : String) (version : Nat) :
    (later rows stream version).Pairwise (·.version ≠ ·.version) := by
  have hkeyed := h.keyed
  rw [List.Nodup, List.pairwise_map] at hkeyed
  refine (hkeyed.sublist List.filter_sublist).imp_of_mem fun {a b} ha hb hne hversion => hne ?_
  obtain ⟨-, hstream, -⟩ := mem_later.mp ha
  obtain ⟨-, hstream', -⟩ := mem_later.mp hb
  rw [hstream, hstream', hversion]

theorem Legal.lists_after (h : Legal rows) (stream : String) (version : Nat) :
    Lists rows stream version (after rows stream version) := by
  have hperm : (after rows stream version).Perm (later rows stream version) := List.mergeSort_perm _ _
  have hdistinct : (after rows stream version).Pairwise (·.version ≠ ·.version) :=
    (hperm.pairwise_iff Ne.symm).mpr (h.pairwise_later stream version)
  have hsorted := pairwise_byVersion (later rows stream version)
  rw [List.pairwise_map] at hsorted
  exact ⟨hperm, (hsorted.and hdistinct).imp fun hab => Int.lt_iff_le_and_ne.mpr hab⟩

theorem Lists.unique (h : Lists rows stream version listed) (h' : Lists rows' stream version listed')
    (hsame : (later rows stream version).Perm (later rows' stream version)) : listed = listed' := by
  have hperm : listed.Perm listed' := h.perm.trans (hsame.trans h'.perm.symm)
  refine hperm.eq_of_pairwise (fun a b _ _ hab hba => ?_) h.ascending h'.ascending
  exact absurd hab (Int.not_lt.mpr (Int.le_of_lt hba))

end

end Table

/-! ## Queries that change nothing -/

theorem view_idle (table : Table) : Session.idle.view table = table :=
  List.append_nil table

theorem execute_load (stream : String) (version : Nat) (table : Table) :
    Session.idle.execute (.load stream version) table =
      (.ok ((Table.after table stream version).map .ok), .idle, table) := by
  simp only [Session.execute, view_idle]

theorem execute_contains (stream : String) (table : Table) :
    Session.idle.execute (.contains stream) table = (.ok (.ok (table.any (·.stream == stream))), .idle, table) := by
  simp only [Session.execute, view_idle]

/-! ## Reading rows -/

section
variable {T : Type} {codec : EntryCodec T}

theorem decodeRow_eq_ok_iff {row : Row} {entry : T} :
    decodeRow codec row = .ok entry ↔ codec.decode row.payload = .ok entry := by
  unfold decodeRow
  cases codec.decode row.payload <;> simp [Except.mapError]

theorem mapM_decodeRow {rows : List Row} {entries : List T} :
    rows.mapM (decodeRow codec) = .ok entries ↔ rows.map (fun row => codec.decode row.payload) = entries.map .ok := by
  rw [mapM_eq_ok_iff]
  induction rows generalizing entries with
  | nil => simp
  | cons row rows ih =>
    cases entries with
    | nil => simp
    | cons entry entries => simp [decodeRow_eq_ok_iff, ih]

/-- The error of the lowest row after a version of a stream that does not decode. -/
inductive Spoilt (codec : EntryCodec T) (table : Table) (stream : String) (version : Nat) : StoreError → Prop
  | lowest {row : Row} {n : Nat} {reason : String} (hrow : row ∈ Table.later table stream version)
      (hn : row.version = n)
      (hreason : codec.decode row.payload = .error reason)
      (hlowest : ∀ other ∈ Table.later table stream version, other.version < n →
        ∃ entry, codec.decode other.payload = .ok entry) :
      Spoilt codec table stream version
        (.serialization ("entry " ++ Nat.repr n ++ " of stream '" ++ stream ++ "': " ++ reason))

variable {table : Table} {stream : String} {version : Nat} {rows : List Row}

theorem Table.Lists.spoilt (h : Table.Lists table stream version rows) {e : StoreError}
    (he : rows.mapM (decodeRow codec) = .error e) : Spoilt codec table stream version e := by
  obtain ⟨front, row, back, rfl, hrow, hfront⟩ := split_of_mapM_error he
  have hmem : row ∈ Table.later table stream version := h.perm.mem_iff.mp (by simp)
  obtain ⟨-, hstream, hversion⟩ := Table.mem_later.mp hmem
  obtain ⟨n, hn⟩ := Int.eq_ofNat_of_zero_le (a := row.version) (by omega)
  rw [decodeRow] at hrow
  cases hreason : codec.decode row.payload with
  | ok entry =>
    rw [hreason] at hrow
    cases hrow
  | error reason =>
    rw [hreason, hn, hstream] at hrow
    cases hrow
    refine Spoilt.lowest (n := n) hmem hn hreason fun other hother hlower => ?_
    -- rows that come after this one are higher
    have hbehind : other ∉ row :: back := by
      intro hbehind
      rcases List.mem_cons.mp hbehind with rfl | hbehind
      · omega
      · have hhigher := List.rel_of_pairwise_cons (List.pairwise_append.mp h.ascending).2.1 hbehind
        omega
    have hlisted : other ∈ front ++ row :: back := h.perm.mem_iff.mpr hother
    obtain ⟨entry, hentry⟩ := hfront other ((List.mem_append.mp hlisted).resolve_right hbehind)
    exact ⟨entry, decodeRow_eq_ok_iff.mp hentry⟩

theorem le_of_lowest {row : Row} {n : Nat} {reason : String} (hrow : row ∈ Table.later table stream version)
    (hreason : codec.decode row.payload = .error reason) (hlowest : ∀ other ∈ Table.later table stream version,
      other.version < n → ∃ entry, codec.decode other.payload = .ok entry) : (n : Int) ≤ row.version := by
  rw [← Int.not_lt]
  intro hlower
  obtain ⟨entry, hentry⟩ := hlowest row hrow hlower
  rw [hreason] at hentry
  cases hentry

theorem Spoilt.unique (hlegal : Table.Legal table) {e e' : StoreError} (h : Spoilt codec table stream version e)
    (h' : Spoilt codec table stream version e') : e = e' := by
  cases h with | @lowest row n reason hrow hn hreason hlowest =>
  cases h' with | @lowest row' n' reason' hrow' hn' hreason' hlowest' =>
  -- neither row is lower than the other, so they have the same key
  have hle := le_of_lowest hrow hreason hlowest'
  have hle' := le_of_lowest hrow' hreason' hlowest
  obtain rfl : n = n' := by omega
  obtain ⟨hmem, hstream, -⟩ := Table.mem_later.mp hrow
  obtain ⟨hmem', hstream', -⟩ := Table.mem_later.mp hrow'
  obtain rfl : row = row' := List.inj_on_of_nodup_map hlegal.keyed hmem hmem' (by rw [hstream, hstream', hn, hn'])
  rw [hreason] at hreason'
  cases hreason'
  rfl

/-! ## What becomes of a load -/

def firstUnreadable (unreadable : Nat → Option String) : List Row → Option String
  | [] => none
  | _ :: rows =>
    match unreadable 0 with
    | some reason => some reason
    | none => firstUnreadable (fun n => unreadable (n + 1)) rows

theorem firstUnreadable_of_all {unreadable : Nat → Option String} (h : ∀ n, unreadable n = none) (rows : List Row) :
    firstUnreadable unreadable rows = none := by
  induction rows generalizing unreadable with
  | nil => rfl
  | cons row rows ih =>
    simp only [firstUnreadable, h 0]
    exact ih fun n => h (n + 1)

theorem firstUnreadable_eq_some {unreadable : Nat → Option String} {rows : List Row} {n : Nat} {reason : String}
    (hn : n < rows.length) (hreason : unreadable n = some reason) (hfirst : ∀ m < n, unreadable m = none) :
    firstUnreadable unreadable rows = some reason := by
  induction rows generalizing unreadable n with
  | nil => exact absurd hn (Nat.not_lt_zero n)
  | cons row rows ih =>
    cases n with
    | zero => simp only [firstUnreadable, hreason]
    | succ n =>
      simp only [firstUnreadable, hfirst 0 (Nat.succ_pos n)]
      apply ih (Nat.lt_of_succ_lt_succ hn) hreason
      intro m hm
      exact hfirst (m + 1) (Nat.succ_lt_succ hm)

theorem readRows_eq (unreadable : Nat → Option String) (rows : List Row) :
    readRows ((rows.map .ok).mapIdx fun n row => blot (unreadable n) row) =
      match firstUnreadable unreadable rows with
      | some reason => .fail (.database ("failed to read entry row: " ++ reason))
      | none => .pure rows := by
  induction rows generalizing unreadable with
  | nil => rfl
  | cons row rows ih =>
    rw [List.map_cons, List.mapIdx_cons, firstUnreadable]
    cases unreadable 0 with
    | some reason => rfl
    | none =>
      show (readRows _).map (row :: ·) = _
      rw [ih]
      cases firstUnreadable (fun n => unreadable (n + 1)) rows <;> rfl

theorem readRows_ok (rows : List Row) : readRows (rows.map .ok) = .pure rows := by
  have hread := readRows_eq (fun _ => none) rows
  rw [firstUnreadable_of_all (fun _ => rfl) rows] at hread
  exact (congrArg readRows ((mapIdx_const id _).trans (List.map_id _)).symm).trans hread

def loaded (codec : EntryCodec T) (trouble : Trouble) (rows : List Row) : Outcome StoreError (List T) :=
  match trouble.fault, firstUnreadable trouble.unreadable rows with
  | some fault, _ => .failed (fault.report "load_stream")
  | none, some reason => .failed (.database ("failed to read entry row: " ++ reason))
  | none, none => .ofExcept (rows.mapM (decodeRow codec))

theorem loaded_of_fault {trouble : Trouble} {fault : Fault} (h : trouble.fault = some fault) (rows : List Row) :
    loaded codec trouble rows = .failed (fault.report "load_stream") := by
  unfold loaded
  rw [h]

theorem loaded_of_unreadable {trouble : Trouble} {reason : String} (h : trouble.fault = none)
    (hreason : firstUnreadable trouble.unreadable rows = some reason) :
    loaded codec trouble rows = .failed (.database ("failed to read entry row: " ++ reason)) := by
  unfold loaded
  rw [h, hreason]

theorem loaded_of_readable {trouble : Trouble} (h : trouble.fault = none)
    (hnone : firstUnreadable trouble.unreadable rows = none) :
    loaded codec trouble rows = .ofExcept (rows.mapM (decodeRow codec)) := by
  unfold loaded
  rw [h, hnone]

theorem loaded_of_quiet {trouble : Trouble} (h : trouble.Quiet) (rows : List Row) :
    loaded codec trouble rows = .ofExcept (rows.mapM (decodeRow codec)) :=
  loaded_of_readable h.fault (firstUnreadable_of_all h.unreadable rows)

theorem respond_load (codec : EntryCodec T) (stream : String) (version : Nat) (trouble : Trouble) (table : Table) :
    ∃ reply : Except Fault (List (Column Row)),
      Session.idle.respond trouble (.load stream version) table = (reply, .idle, table) ∧
      ∀ w, (((Effect.ofExcept (reply.mapError (Fault.report "load_stream"))).bind readRows).bind fun rows =>
          Effect.ofExcept (rows.mapM (decodeRow codec))).run Unsteady.host w =
        (loaded codec trouble (Table.after table stream version), w) := by
  cases hfault : trouble.fault with
  | some fault =>
    refine ⟨.error fault, ?_, ?_⟩
    · unfold Session.respond
      rw [hfault, execute_load]
      simp only [ite_self]
      rfl
    · intro w
      rw [loaded_of_fault hfault]
      rfl
  | none =>
    unfold Session.respond
    rw [hfault, execute_load]
    generalize Table.after table stream version = rows
    refine ⟨.ok ((rows.map .ok).mapIdx fun n row => blot (trouble.unreadable n) row), rfl, ?_⟩
    intro w
    show ((readRows _).bind _).run Unsteady.host w = _
    rw [readRows_eq]
    cases hreason : firstUnreadable trouble.unreadable rows with
    | some reason =>
      rw [loaded_of_unreadable hfault hreason]
      rfl
    | none =>
      rw [loaded_of_readable hfault hreason]
      show (Effect.ofExcept (rows.mapM (decodeRow codec))).run Unsteady.host w = _
      cases rows.mapM (decodeRow codec) <;> rfl

theorem run_load (codec : EntryCodec T) (stream : String) {after : Option Nat} (hlimit : after.getD 0 < versionLimit)
    (table : Table) (upsets : Nat → Upset) (past : List Moment) :
    ∃ reply, (load codec stream after).run Unsteady.host ⟨.idle, table, upsets, past⟩ =
      (loaded codec (upsets 0).trouble (Table.after (amid table upsets 1) stream (after.getD 0)),
        ⟨.idle, amid table upsets 1, fun n => upsets (n + 1),
          past ++ [⟨.idle, amid table upsets 1, ⟨.load stream (after.getD 0), reply⟩⟩]⟩) := by
  obtain ⟨reply, hrespond, hloaded⟩ :=
    respond_load codec stream (after.getD 0) (upsets 0).trouble (amid table upsets 1)
  refine ⟨reply, ?_⟩
  rw [load, loadRows, versionParameter, if_pos hlimit, Effect.pure_bind]
  have hreceive : (⟨.idle, table, upsets, past⟩ : Unsteady).receive (.load stream (after.getD 0)) = _ :=
    Unsteady.receive_of_respond past hrespond
  exact (Effect.run_call_of_answer Unsteady.host (congrArg some hreceive) _).trans (hloaded _)

theorem loaded_cases (codec : EntryCodec T) (trouble : Trouble) (rows : List Row) :
    (∃ error, loaded codec trouble rows = .failed error) ∨
      ∃ entries, loaded codec trouble rows = .done entries ∧ rows.mapM (decodeRow codec) = .ok entries := by
  cases hfault : trouble.fault with
  | some fault => exact .inl ⟨_, loaded_of_fault hfault rows⟩
  | none =>
    cases hreason : firstUnreadable trouble.unreadable rows with
    | some reason => exact .inl ⟨_, loaded_of_unreadable hfault hreason⟩
    | none =>
      rw [loaded_of_readable hfault hreason]
      cases rows.mapM (decodeRow codec) with
      | error e => exact .inl ⟨e, rfl⟩
      | ok entries => exact .inr ⟨entries, rfl, rfl⟩

theorem Table.Lists.loaded_spoilt (h : Table.Lists table stream version rows) {trouble : Trouble}
    (hquiet : trouble.Quiet)
    (hspoilt : ∃ row ∈ Table.later table stream version, ∃ reason, codec.decode row.payload = .error reason) :
    ∃ error, Spoilt codec table stream version error ∧ loaded codec trouble rows = .failed error := by
  rw [loaded_of_quiet hquiet]
  cases hrows : rows.mapM (decodeRow codec) with
  | error e => exact ⟨e, h.spoilt hrows, rfl⟩
  | ok entries =>
    obtain ⟨row, hrow, reason, hreason⟩ := hspoilt
    have hdecoded : Except.error reason ∈ entries.map (Except.ok (ε := String)) := by
      rw [← mapM_decodeRow.mp hrows, ← hreason]
      exact List.mem_map_of_mem (h.perm.mem_iff.mpr hrow)
    obtain ⟨entry, -, hentry⟩ := List.mem_map.mp hdecoded
    cases hentry

/-- How a load comes out: with the entries of all rows there are or with none. -/
structure Loads (codec : EntryCodec T) (stream : String) (after : Option Nat) (table : Table) (upsets : Nat → Upset)
    (outcome : Outcome StoreError (List T)) (w : Unsteady) : Prop where
  ends : outcome ≠ .stopped
  unasked : versionLimit ≤ after.getD 0 → w = ⟨.idle, table, upsets, []⟩ ∧
    outcome = .failed (.database ("stream version " ++ Nat.repr (after.getD 0) ++ " out of range"))
  asked : after.getD 0 < versionLimit →
    w.table = amid table upsets 1 ∧ w.exchanges.map Exchange.op = [.load stream (after.getD 0)]
  faulty : after.getD 0 < versionLimit → ∀ fault, (upsets 0).trouble.fault = some fault →
    outcome = .failed (fault.report "load_stream")
  unread : after.getD 0 < versionLimit → (upsets 0).trouble.fault = none →
    ∀ n reason, n < (Table.later (amid table upsets 1) stream (after.getD 0)).length →
      (upsets 0).trouble.unreadable n = some reason → (∀ m < n, (upsets 0).trouble.unreadable m = none) →
      outcome = .failed (.database ("failed to read entry row: " ++ reason))
  whole : ∀ entries, outcome = .done entries →
    ∃ rows, Table.Lists (amid table upsets 1) stream (after.getD 0) rows ∧
      rows.map (fun row => codec.decode row.payload) = entries.map .ok
  done : after.getD 0 < versionLimit → (upsets 0).trouble.Quiet →
    (∀ row ∈ Table.later (amid table upsets 1) stream (after.getD 0), ∃ entry, codec.decode row.payload = .ok entry) →
    ∃ entries, outcome = .done entries
  spoilt : after.getD 0 < versionLimit → (upsets 0).trouble.Quiet →
    (∃ row ∈ Table.later (amid table upsets 1) stream (after.getD 0),
      ∃ reason, codec.decode row.payload = .error reason) →
    ∃ error, outcome = .failed error ∧ Spoilt codec (amid table upsets 1) stream (after.getD 0) error

theorem load_beyond {after : Option Nat} (hlimit : versionLimit ≤ after.getD 0) : load codec stream after =
    .fail (.database ("stream version " ++ Nat.repr (after.getD 0) ++ " out of range")) := by
  rw [load, loadRows, versionParameter, if_neg (Nat.not_lt.mpr hlimit)]
  rfl

theorem loads_beyond {after : Option Nat} (hlimit : versionLimit ≤ after.getD 0) (table : Table)
    (upsets : Nat → Upset) :
    Loads codec stream after table upsets
      (.failed (.database ("stream version " ++ Nat.repr (after.getD 0) ++ " out of range")))
      ⟨.idle, table, upsets, []⟩ where
  ends := nofun
  unasked _ := ⟨rfl, rfl⟩
  asked h := absurd h (Nat.not_lt.mpr hlimit)
  faulty h := absurd h (Nat.not_lt.mpr hlimit)
  unread h := absurd h (Nat.not_lt.mpr hlimit)
  whole := nofun
  done h := absurd h (Nat.not_lt.mpr hlimit)
  spoilt h := absurd h (Nat.not_lt.mpr hlimit)

theorem loads_within {after : Option Nat} (hlimit : after.getD 0 < versionLimit) {upsets : Nat → Upset}
    (hlegal : Table.Legal (amid table upsets 1)) {w : Unsteady} (htable : w.table = amid table upsets 1)
    (hops : w.exchanges.map Exchange.op = [.load stream (after.getD 0)]) :
    Loads codec stream after table upsets
      (loaded codec (upsets 0).trouble (Table.after (amid table upsets 1) stream (after.getD 0))) w := by
  have hlists := hlegal.lists_after stream (after.getD 0)
  generalize Table.after (amid table upsets 1) stream (after.getD 0) = rows at hlists ⊢
  have hmem : ∀ row, row ∈ rows ↔ row ∈ Table.later (amid table upsets 1) stream (after.getD 0) :=
    fun row => hlists.perm.mem_iff
  constructor
  case ends =>
    rcases loaded_cases codec (upsets 0).trouble rows with ⟨error, hfailed⟩ | ⟨entries, hdone, -⟩
    · rw [hfailed]
      nofun
    · rw [hdone]
      nofun
  case unasked => exact fun h => absurd hlimit (Nat.not_lt.mpr h)
  case asked => exact fun _ => ⟨htable, hops⟩
  case faulty =>
    intro _ fault hfault
    exact loaded_of_fault hfault rows
  case unread =>
    intro _ hfault n reason hn hreason hfirst
    rw [← hlists.perm.length_eq] at hn
    exact loaded_of_unreadable hfault (firstUnreadable_eq_some hn hreason hfirst)
  case whole =>
    intro entries hentries
    rcases loaded_cases codec (upsets 0).trouble rows with ⟨error, hfailed⟩ | ⟨entries', hdone, hrows⟩
    · rw [hfailed] at hentries
      cases hentries
    · rw [hdone] at hentries
      cases hentries
      exact ⟨rows, hlists, mapM_decodeRow.mp hrows⟩
  case done =>
    intro _ hquiet hall
    rw [loaded_of_quiet hquiet]
    cases hrows : rows.mapM (decodeRow codec) with
    | ok entries => exact ⟨entries, rfl⟩
    | error e =>
      obtain ⟨front, row, back, rfl, hrow, -⟩ := split_of_mapM_error hrows
      obtain ⟨entry, hentry⟩ := hall row ((hmem row).mp (by simp))
      rw [decodeRow_eq_ok_iff.mpr hentry] at hrow
      cases hrow
  case spoilt =>
    intro _ hquiet hspoilt
    obtain ⟨error, herror, hfailed⟩ := hlists.loaded_spoilt hquiet hspoilt
    exact ⟨error, hfailed, herror⟩

theorem load_settles (codec : EntryCodec T) (stream : String) (after : Option Nat) {table : Table}
    {upsets : Nat → Upset} (hlegal : Table.Legal (amid table upsets 1)) :
    let ran := (load codec stream after).run Unsteady.host ⟨.idle, table, upsets, []⟩
    Loads codec stream after table upsets ran.1 ran.2 := by
  intro ran
  by_cases hlimit : after.getD 0 < versionLimit
  · obtain ⟨reply, hran⟩ := run_load codec stream hlimit table upsets []
    simp only [ran, hran]
    exact loads_within hlimit hlegal rfl rfl
  · have hbeyond := Nat.not_lt.mp hlimit
    simp only [ran, load_beyond hbeyond, Effect.run_fail]
    exact loads_beyond hbeyond table upsets

theorem load_congr {after : Option Nat} {table' : Table} {upsets upsets' : Nat → Upset}
    (hlegal : Table.Legal (amid table upsets 1)) (hlegal' : Table.Legal (amid table' upsets' 1))
    (htrouble : (upsets 0).trouble = (upsets' 0).trouble)
    (hsame : (Table.later (amid table upsets 1) stream (after.getD 0)).Perm
      (Table.later (amid table' upsets' 1) stream (after.getD 0))) :
    ((load codec stream after).run Unsteady.host ⟨.idle, table, upsets, []⟩).1 =
      ((load codec stream after).run Unsteady.host ⟨.idle, table', upsets', []⟩).1 := by
  by_cases hlimit : after.getD 0 < versionLimit
  · obtain ⟨reply, hran⟩ := run_load codec stream hlimit table upsets []
    obtain ⟨reply', hran'⟩ := run_load codec stream hlimit table' upsets' []
    have hrows := (hlegal.lists_after stream (after.getD 0)).unique (hlegal'.lists_after stream (after.getD 0)) hsame
    rw [hran, hran', htrouble, hrows]
  · rw [load_beyond (Nat.not_lt.mp hlimit), Effect.run_fail, Effect.run_fail]

end

end Workflow.Database

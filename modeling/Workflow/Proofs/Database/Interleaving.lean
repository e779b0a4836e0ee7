import Workflow.Proofs.Database.Course
import Workflow.Proofs.Database.Interchange
import Workflow.Proofs.Effect.Interp

/-!
# Appends and deletes at the same time

Appends to a stream and deletes of it take turns on one table, statement by statement, each in a session of its
own, and any statement may fail. The version of the stream counts its rows unless a delete overtakes an append:
it comes after the append read the version and before it commits. Main statements: `version_counts` and
`overtaken_leaves_gap`.
-/

namespace Workflow.Database

variable {ι : Type}

/-! ## Sessions on one table -/

def sessions (ι : Type) : Signature where
  Op := ι × Statement
  Answer q := Except Fault q.2.Result

def Query.on {α : Type} (j : ι) (e : Query α) : Effect (sessions ι) StoreError α :=
  e.interp fun s => .call (j, s) .pure

def onSession (j : ι) (x : Exchange statements) : Exchange (sessions ι) :=
  ⟨(j, x.op), x.answer⟩

structure Server (ι : Type) where
  session : ι → Session
  table : Table
  troubles : Nat → Trouble

namespace Server

def empty (troubles : Nat → Trouble) : Server ι :=
  ⟨fun _ => .idle, [], troubles⟩

variable [DecidableEq ι]

def receive (q : ι × Statement) (w : Server ι) : Except Fault q.2.Result × Server ι :=
  let answered := (w.session q.1).respond (w.troubles 0) q.2 w.table
  (answered.1, ⟨Function.update w.session q.1 answered.2.1, answered.2.2, fun n => w.troubles (n + 1)⟩)

def host : Host (sessions ι) (Server ι) :=
  ⟨fun q w => some (w.receive q), fun _ w => w⟩

end Server

/-! ## Writers -/

inductive Writer (T : Type) where
  | append (entries : List T) (expected : Nat)
  | delete

variable {T : Type}

def Writer.query (codec : EntryCodec T) (stream : String) : Writer T → Query Nat
  | append entries expected => Database.append codec stream entries expected
  | delete => (Database.delete stream).map fun _ => 0

def deleted (stream : String) : Exchange statements := ⟨.delete stream, (.ok () : Except Fault Unit)⟩

/-- Where a writer stands after these exchanges: its session, and what is left of it. -/
inductive Writing (codec : EntryCodec T) (stream : String) :
    Writer T → List (Exchange statements) → Session → Query Nat → Prop
  | appending {entries payloads expected t session r} (h : Place stream payloads expected t session r) :
      Writing codec stream (.append entries expected) t session r
  | unencoded {entries expected reason} :
      Writing codec stream (.append entries expected) [] .idle (.fail (.serialization reason))
  | deleting : Writing codec stream .delete [] .idle (Writer.query codec stream .delete)
  | deleted {t session version} : Writing codec stream .delete t session (.pure version)
  | undeleted {t session e} : Writing codec stream .delete t session (.fail e)

inductive Change (stream : String) (t : List (Exchange statements)) (x : Exchange statements) (table : Table) :
    Table → Prop
  | nothing : Change stream t x table table
  | delete (hx : x = deleted stream) : Change stream t x table (Table.without table stream)
  | commit {found expected payloads} (hx : x = committed) (ht : t = progress stream expected found payloads)
      (hread : storedVersion found = expected)
      (hfree : ∀ row ∈ rowsAfter stream expected payloads, Table.takes table row = false) :
      Change stream t x table (table ++ rowsAfter stream expected payloads)

section
variable {codec : EntryCodec T} {stream : String} {writer : Writer T} {payloads : List Data} {expected : Nat}
  {t : List (Exchange statements)} {session session' : Session} {trouble : Trouble} {table table' : Table}
  {s : Statement} {next : Except Fault s.Result → Query Nat} {reply : Except Fault s.Result}

theorem writing_start (codec : EntryCodec T) (stream : String) (writer : Writer T) :
    Writing codec stream writer [] .idle (writer.query codec stream) := by
  cases writer with
  | append entries expected =>
    cases hencode : encodeAll codec entries with
    | error reason =>
      have hquery : Writer.query codec stream (.append entries expected) = .fail (.serialization reason) := by
        simp only [Writer.query, append, hencode]
      rw [hquery]
      exact .unencoded
    | ok payloads =>
      have hquery : Writer.query codec stream (.append entries expected) = appendPayloads stream payloads expected := by
        simp only [Writer.query, append, hencode]
      rw [hquery]
      exact .appending .opening
  | delete => exact .deleting

theorem Pending.change (h : Pending stream payloads expected t session s next) (hkept : trouble.lost = false)
    (hrespond : session.respond trouble s table = (reply, session', table')) :
    Change stream t ⟨s, reply⟩ table table' := by
  obtain ⟨hplace, rfl | hlost⟩ := h.step hrespond
  case inr => cases hkept.symm.trans hlost.lost
  rcases hplace.next with ⟨_, _, hr, -⟩ | ⟨_, hr, -⟩ | ⟨found, hr, -, hread, hwhole⟩
  · have hnone : contributed stream payloads expected (next reply) = [] := by rw [hr]; rfl
    rw [hnone, List.append_nil]
    exact .nothing
  · have hnone : contributed stream payloads expected (next reply) = [] := by rw [hr]; rfl
    rw [hnone, List.append_nil]
    exact .nothing
  · -- the append is over, so this was its commit
    obtain ⟨ht, hlast⟩ := List.append_inj' hwhole rfl
    cases List.singleton_inj.mp hlast
    rw [hr]
    refine .commit rfl ht hread ?_
    cases h with
    | committing hread =>
      obtain ⟨⟨fault, hfault⟩, -⟩ | ⟨-, -, -, hfree⟩ := respond_commit hrespond
      · cases hfault
      · exact hfree

theorem Pending.found (h : Pending stream payloads expected t session s next)
    (hrespond : session.respond trouble s table = (reply, session', table')) {found : Int}
    (hx : (⟨s, reply⟩ : Exchange statements) = readings stream found) : found = Table.greatest table stream := by
  cases h with
  | reading =>
    obtain ⟨-, ⟨fault, rfl⟩ | ⟨reason, rfl⟩ | ⟨rfl, -⟩⟩ := respond_currentVersion hrespond
    · cases hx
    · cases hx
    · cases hx
      exact congrArg (Table.greatest · stream) (List.append_nil table)
  | _ => cases hx

theorem Writing.step {r : Query Nat} (h : Writing codec stream writer t session r) (hr : r = .call s next)
    (hkept : trouble.lost = false) (hrespond : session.respond trouble s table = (reply, session', table')) :
    Writing codec stream writer (t ++ [⟨s, reply⟩]) session' (next reply) ∧
      Change stream t ⟨s, reply⟩ table table' ∧
      ∀ found, (⟨s, reply⟩ : Exchange statements) = readings stream found → found = Table.greatest table stream := by
  cases h with
  | appending h =>
    subst hr
    have hpending := h.pending
    exact ⟨.appending (hpending.step hrespond).1, hpending.change hkept hrespond, fun _ => hpending.found hrespond⟩
  | unencoded => cases hr
  | deleting =>
    cases hr
    obtain ⟨⟨fault, rfl⟩, rfl⟩ | ⟨rfl, rfl⟩ := respond_delete hkept hrespond
    · exact ⟨.undeleted, .nothing, fun _ hx => by cases hx⟩
    · exact ⟨.deleted, .delete rfl, fun _ hx => by cases hx⟩
  | deleted => cases hr
  | undeleted => cases hr

end

/-! ## Interleavings -/

/-- A version was read, and nobody has deleted the stream since. -/
def Fresh (stream : String) (τ : List (ι × Exchange (sessions ι))) (found : Int) : Prop :=
  ∃ τ₁ j τ₂, τ = τ₁ ++ (j, onSession j (readings stream found)) :: τ₂ ∧
    ∀ k, (k, onSession k (deleted stream)) ∉ τ₂

/-- An append that found entries commits, but somebody deleted the stream in between. -/
def Overtaken (stream : String) (τ : List (ι × Exchange (sessions ι))) : Prop :=
  ∃ j k found, storedVersion found ≠ 0 ∧
    [(j, onSession j (readings stream found)), (k, onSession k (deleted stream)), (j, onSession j committed)].Sublist τ

section
variable {stream : String} {τ : List (ι × Exchange (sessions ι))} {j k : ι} {x y : Exchange statements} {found : Int}

theorem eq_of_turn_eq (h : (j, onSession j x) = (k, onSession k y)) : x = y := by
  obtain ⟨rfl, hx⟩ := Prod.mk.inj h
  cases x
  cases y
  cases hx
  rfl

theorem Fresh.of_concat (h : Fresh stream (τ ++ [(j, onSession j x)]) found) :
    x = readings stream found ∨ Fresh stream τ found ∧ x ≠ deleted stream := by
  obtain ⟨τ₁, k, τ₂, hτ, hnone⟩ := h
  rcases List.eq_nil_or_concat τ₂ with rfl | ⟨τ₂, last, rfl⟩
  · obtain ⟨-, hlast⟩ := List.append_inj' hτ rfl
    exact .inl (eq_of_turn_eq (List.singleton_inj.mp hlast))
  · rw [List.concat_eq_append] at hτ hnone
    rw [← List.cons_append, ← List.append_assoc] at hτ
    obtain ⟨rfl, hlast⟩ := List.append_inj' hτ rfl
    obtain rfl := List.singleton_inj.mp hlast
    refine .inr ⟨⟨τ₁, k, τ₂, rfl, fun k hk => hnone k (List.mem_append_left _ hk)⟩, ?_⟩
    rintro rfl
    exact hnone j (List.mem_append_right _ (List.mem_singleton_self _))

variable [DecidableEq ι] {t : List (Exchange statements)} {payloads : List Data} {expected : Nat}

theorem fresh_of_progress (hτ : exchangesOf j τ = (progress stream expected found payloads).map (onSession j))
    (h : ¬ Overtaken stream (τ ++ [(j, onSession j committed)])) : storedVersion found = 0 ∨ Fresh stream τ found := by
  by_cases hzero : storedVersion found = 0
  · exact .inl hzero
  · have hsplit : exchangesOf j τ = [onSession j began] ++ onSession j (readings stream found) ::
        ((rowsAfter stream expected payloads).map inserted).map (onSession j) := hτ
    obtain ⟨τ₁, τ₂, rfl, -, -⟩ := Pool.exists_turn_of_exchangesOf hsplit
    refine .inr ⟨τ₁, j, τ₂, rfl, fun k hk => h ⟨j, k, found, hzero, ?_⟩⟩
    have hdeleted : [(j, onSession j (readings stream found)), (k, onSession k (deleted stream))].Sublist
        (τ₁ ++ (j, onSession j (readings stream found)) :: τ₂) :=
      (List.Sublist.cons_cons _ (List.singleton_sublist.mpr hk)).trans (List.sublist_append_right _ _)
    exact hdeleted.append (List.Sublist.refl [(j, onSession j committed)])

end

/-- What holds at every point of an interleaving, when the stream is at this version. -/
structure Consistent [DecidableEq ι] (codec : EntryCodec T) (stream : String) (writers : ι → Writer T)
    (τ : List (ι × Exchange (sessions ι))) (pool : ι → Effect (sessions ι) StoreError Nat) (w : Server ι)
    (version : Nat) : Prop where
  kept : ∀ n, (w.troubles n).lost = false
  gapless : Table.Gapless w.table stream version
  fresh : ∀ found, Fresh stream τ found → storedVersion found ≤ version
  writing : ∀ j, ∃ t r, exchangesOf j τ = t.map (onSession j) ∧ pool j = r.on j ∧
    Writing codec stream (writers j) t (w.session j) r

section
variable [DecidableEq ι] {codec : EntryCodec T} {stream : String} {writers : ι → Writer T}
  {τ : List (ι × Exchange (sessions ι))} {pool : ι → Effect (sessions ι) StoreError Nat} {w w' : Server ι}
  {version : Nat} {t : List (Exchange statements)} {j : ι} {x : Exchange statements} {table : Table}

theorem Consistent.change (h : Consistent codec stream writers τ pool w version)
    (hτ : exchangesOf j τ = t.map (onSession j)) (hchange : Change stream t x w.table table)
    (hfound : ∀ found, x = readings stream found → found = Table.greatest w.table stream)
    (hovertaken : ¬ Overtaken stream (τ ++ [(j, onSession j x)])) :
    ∃ version', Table.Gapless table stream version' ∧
      ∀ found, Fresh stream (τ ++ [(j, onSession j x)]) found → storedVersion found ≤ version' := by
  have hgreatest := h.gapless.greatest
  cases hchange with
  | nothing =>
    refine ⟨version, h.gapless, fun found hfresh => ?_⟩
    rcases hfresh.of_concat with hx | ⟨hfresh, -⟩
    · rw [hfound found hx, hgreatest]
      exact le_of_eq (Int.toNat_natCast version)
    · exact h.fresh found hfresh
  | delete hx =>
    refine ⟨0, Table.gapless_without w.table stream, fun found hfresh => ?_⟩
    rcases hfresh.of_concat with hread | ⟨-, hne⟩
    · rw [hx] at hread; cases hread
    · exact absurd hx hne
  | @commit found expected payloads hx ht hread hfree =>
    subst hx
    rw [ht] at hτ
    -- the stream has not shrunk since the version was read, and the first key is free, so it has not grown either
    have hle : expected ≤ version := by
      rcases fresh_of_progress hτ hovertaken with hzero | hfresh
      · omega
      · have := h.fresh found hfresh
        omega
    refine ⟨version + payloads.length, h.gapless.commit hle hfree, fun found hfresh => ?_⟩
    rcases hfresh.of_concat with hread | ⟨hfresh, -⟩
    · cases hread
    · exact (h.fresh found hfresh).trans (Nat.le_add_right _ _)

theorem respond_of_receive (w : Server ι) (j : ι) (s : Statement) :
    (w.session j).respond (w.troubles 0) s w.table =
      ((w.receive (j, s)).1, (w.receive (j, s)).2.session j, (w.receive (j, s)).2.table) := by
  simp only [Server.receive, Function.update_self]

theorem Writing.receive_of_ne {writer : Writer T} {k : ι} {r : Query Nat}
    (h : Writing codec stream writer t (w.session k) r) (hk : j ≠ k) (s : Statement) :
    Writing codec stream writer t ((w.receive (j, s)).2.session k) r := by
  have hkept : (w.receive (j, s)).2.session k = w.session k := Function.update_of_ne (Ne.symm hk) ..
  rw [hkept]
  exact h

theorem Consistent.call (h : Consistent codec stream writers τ pool w version) {op : (sessions ι).Op}
    {next : (sessions ι).Answer op → Effect (sessions ι) StoreError Nat} {answer : (sessions ι).Answer op}
    (hj : pool j = .call op next) (ha : Server.host.shared.answers op w answer w')
    (hovertaken : ¬ Overtaken stream (τ ++ [(j, ⟨op, answer⟩)])) :
    ∃ version', Consistent codec stream writers (τ ++ [(j, ⟨op, answer⟩)]) (Function.update pool j (next answer)) w'
      version' := by
  obtain ⟨t, r, hτ, hr, hwriting⟩ := h.writing j
  rw [hr] at hj
  cases r with
  | pure a => cases hj
  | fail e => cases hj
  | pause time rest => cases hj
  | call s rest =>
    cases hj
    cases ha
    obtain ⟨hnext, hchange, hfound⟩ := hwriting.step rfl (h.kept 0) (respond_of_receive w j s)
    obtain ⟨version', hgapless, hfresh⟩ := h.change hτ hchange hfound hovertaken
    refine ⟨version', fun n => h.kept (n + 1), hgapless, hfresh, fun k => ?_⟩
    by_cases hk : j = k
    · subst hk
      refine ⟨_, _, ?_, Function.update_self .., hnext⟩
      rw [Pool.exchangesOf_append, Pool.exchangesOf_cons_self, hτ, List.map_append]
      rfl
    · obtain ⟨t', r', hτ', hr', hwriting'⟩ := h.writing k
      refine ⟨t', r', ?_, ?_, ?_⟩
      · rw [Pool.exchangesOf_append, Pool.exchangesOf_of_ne hk, List.append_nil, hτ']
      · rw [Function.update_of_ne (Ne.symm hk), hr']
      · exact hwriting'.receive_of_ne hk s

theorem Writing.no_pause {writer : Writer T} {session : Session} {time : Duration} {r next : Query Nat}
    (h : Writing codec stream writer t session r) : r ≠ .pause time next := by
  cases h with
  | appending h => exact h.no_pause
  | _ => nofun

theorem consistent_of_run {troubles : Nat → Trouble} (hkept : ∀ n, (troubles n).lost = false)
    (run : Pool.Run Server.host.shared (fun j => ((writers j).query codec stream).on j) (.empty troubles) τ pool w)
    (h : ¬ Overtaken stream τ) : ∃ version, Consistent codec stream writers τ pool w version := by
  induction run with
  | nil =>
    refine ⟨0, hkept, Table.gapless_nil stream, ?_, fun j => ⟨[], _, rfl, rfl, writing_start codec stream (writers j)⟩⟩
    rintro found ⟨τ₁, j, τ₂, hτ, -⟩
    cases List.append_eq_nil_iff.mp hτ.symm |>.2
  | @call τ pool w j op next answer w' _ hj ha ih =>
    have hbefore : ¬ Overtaken stream τ := by
      rintro ⟨j, k, found, hfound, hsub⟩
      exact h ⟨j, k, found, hfound, hsub.trans (List.sublist_append_left _ _)⟩
    obtain ⟨version, hconsistent⟩ := ih hbefore
    exact hconsistent.call hj ha h
  | @pause τ pool w j time next _ hj ih =>
    obtain ⟨version, hconsistent⟩ := ih h
    obtain ⟨t, r, -, hr, hwriting⟩ := hconsistent.writing j
    rw [hr] at hj
    cases r with
    | pause time' rest => exact absurd rfl hwriting.no_pause
    | _ => cases hj
  | rest _ hw ih =>
    obtain ⟨time, rfl⟩ := hw
    exact ih h

/-- The version of a stream counts its rows, and they are loaded with the versions from 1 on, at every point of an
interleaving in which no delete overtakes an append and a statement that fails was not carried out. -/
theorem version_counts {troubles : Nat → Trouble} (hkept : ∀ n, (troubles n).lost = false)
    (run : Pool.Run Server.host.shared (fun j => ((writers j).query codec stream).on j) (.empty troubles) τ pool w)
    (h : ¬ Overtaken stream τ) :
    ∃ version, Table.Gapless w.table stream version ∧ Table.greatest w.table stream = version ∧
      (Table.after w.table stream 0).map Row.version = Table.upTo version := by
  obtain ⟨version, hconsistent⟩ := consistent_of_run hkept run h
  have hgapless := hconsistent.gapless
  exact ⟨version, hgapless, hgapless.greatest, hgapless.after⟩

end

inductive Guest
  | first
  | rival
  | second
  | remover
  deriving DecidableEq

def guests : Guest → Writer (Entry Data)
  | .first => .append [.started] 0
  | .rival => .append [.started, .received .null] 0
  | .second => .append [.received .null] 1
  | .remover => .delete

def scene (schedule : List Guest) : Pool.State (sessions Guest) StoreError Nat Guest (Server Guest) :=
  Pool.play Server.host (fun j => ((guests j).query (.ofEvents .data) "s").on j) (.empty fun _ => .none) schedule

theorem run_scene (schedule : List Guest) :
    Pool.Run Server.host.shared (fun j => ((guests j).query (.ofEvents .data) "s").on j) (.empty fun _ => .none)
      (scene schedule).1 (scene schedule).2.1 (scene schedule).2.2 :=
  Pool.run_play schedule

def asked (turn : ι × Exchange (sessions ι)) : ι × Statement :=
  turn.2.op

theorem not_overtaken_of_asked {stream : String} {τ : List (ι × Exchange (sessions ι))}
    (h : ∀ j k, ¬ [(j, Statement.currentVersion stream), (k, .delete stream), (j, .commit)].Sublist (τ.map asked)) :
    ¬ Overtaken stream τ := by
  rintro ⟨j, k, found, -, hsub⟩
  exact h j k (hsub.map asked)

def contest :=
  scene [.remover, .first, .first, .rival, .rival, .first, .first, .rival, .rival, .second, .second, .second, .second]

theorem version_counts_contest :
    (∀ n : Nat, ((fun _ => Trouble.none : Nat → Trouble) n).lost = false) ∧
    Pool.Run Server.host.shared (fun j => ((guests j).query (.ofEvents .data) "s").on j) (.empty fun _ => .none)
      contest.1 contest.2.1 contest.2.2 ∧
    ¬ Overtaken "s" contest.1 ∧
    contest.2.1 .rival = .fail (.concurrency "s" 0 1) ∧ contest.2.1 .second = .pure 2 ∧
    ∃ version, Table.Gapless contest.2.2.table "s" version ∧ Table.greatest contest.2.2.table "s" = version ∧
      (Table.after contest.2.2.table "s" 0).map Row.version = Table.upTo version := by
  have hovertaken : ¬ Overtaken "s" contest.1 := by
    refine not_overtaken_of_asked fun j k => ?_
    cases j <;> cases k <;> decide +kernel
  exact ⟨fun _ => rfl, run_scene _, hovertaken, rfl, rfl, version_counts (fun _ => rfl) (run_scene _) hovertaken⟩

def overtaking :=
  scene [.first, .first, .first, .first, .second, .second, .remover, .second, .second]

/-- The second append is overtaken. No key is taken twice and nothing fails, but the one row that is left has version
2, and an append that expects as many entries as there are is refused. -/
theorem overtaken_leaves_gap :
    Pool.Run Server.host.shared (fun j => ((guests j).query (.ofEvents .data) "s").on j) (.empty fun _ => .none)
      overtaking.1 overtaking.2.1 overtaking.2.2 ∧
    (overtaking.2.1 .first = .pure 1 ∧ overtaking.2.1 .second = .pure 2 ∧ overtaking.2.1 .remover = .pure 0) ∧
    (∀ n, ¬ Table.Gapless overtaking.2.2.table "s" n) ∧
    (load (.ofEvents .data) "s" none).run Session.host (.idle, overtaking.2.2.table) =
      (.done [Entry.received Data.null], .idle, overtaking.2.2.table) ∧
    (append (.ofEvents .data) "s" [Entry.received Data.null] 1).run Session.host (.idle, overtaking.2.2.table) =
      (.failed (.concurrency "s" 1 2), .idle, overtaking.2.2.table) := by
  have hversions : Table.versions overtaking.2.2.table "s" = [2] := rfl
  have hloaded : (load (.ofEvents .data) "s" none).run Session.host (.idle, overtaking.2.2.table) =
      (.done [Entry.received Data.null], .idle, overtaking.2.2.table) := by
    have hafter : Table.after overtaking.2.2.table "s" 0 = overtaking.2.2.table := List.mergeSort_singleton _
    rw [load, Effect.run_bind, run_loadRows (by decide), Option.getD_none, hafter]
    rfl
  refine ⟨run_scene _, ⟨rfl, rfl, rfl⟩, ?_, hloaded, rfl⟩
  intro n h
  have htwo : (2 : Int) ∈ Table.versions overtaking.2.2.table "s" := by rw [hversions]; exact List.mem_singleton_self 2
  have hn := h.mem_iff.mp htwo
  have hone : (1 : Int) ∈ Table.versions overtaking.2.2.table "s" := h.mem_iff.mpr ⟨by omega, by omega⟩
  rw [hversions] at hone
  cases List.mem_singleton.mp hone

end Workflow.Database

import Workflow.Proofs.Store.Memory
import Mathlib.Logic.Function.Basic

/-!
# The store in memory as a map

A ledger gives every name its entries; a stream that is missing has none. Main statement: `serve_agrees`, by
which a store in memory answers whatever calls it is put as a ledger does, and keeps no name without entries.
-/

namespace Workflow

universe u

variable {T : Type} {W V : Type u} {A B : StoreCall T → Type}

/-! ## Calls, one after another -/

def serve (answer : (q : StoreCall T) → W → A q × W) :
    List (StoreCall T) → W → List ((q : StoreCall T) × A q) × W
  | [], w => ([], w)
  | q :: rest, w =>
    let served := serve answer rest (answer q w).2
    (⟨q, (answer q w).1⟩ :: served.1, served.2)

theorem serve_append_snd (answer : (q : StoreCall T) → W → A q × W) (calls more : List (StoreCall T)) (w : W) :
    (serve answer (calls ++ more) w).2 = (serve answer more (serve answer calls w).2).2 := by
  induction calls generalizing w with
  | nil => rfl
  | cons q calls ih => exact ih (answer q w).2

/-- What one store answers is what `f` makes of the answers of another, as long as every call is put to a
state of the other in which it is `Fit`. -/
theorem serve_simulates {answer : (q : StoreCall T) → W → A q × W} {other : (q : StoreCall T) → V → B q × V}
    {f : (q : StoreCall T) → B q → A q} {R : W → V → Prop} (Fit : StoreCall T → V → Prop)
    (step : ∀ q w v, R w v → Fit q v →
      (answer q w).1 = f q (other q v).1 ∧ R (answer q w).2 (other q v).2)
    (calls : List (StoreCall T)) (w : W) (v : V) (h : R w v)
    (hfit : ∀ served q rest, calls = served ++ q :: rest → Fit q (serve other served v).2) :
    (serve answer calls w).1 = (serve other calls v).1.map (fun x => ⟨x.1, f x.1 x.2⟩) ∧
      R (serve answer calls w).2 (serve other calls v).2 := by
  induction calls generalizing w v with
  | nil => exact ⟨rfl, h⟩
  | cons q rest ih =>
    obtain ⟨hanswer, hnext⟩ := step q w v h (hfit [] q rest rfl)
    have hlater : ∀ served r others, rest = served ++ r :: others →
        Fit r (serve other served (other q v).2).2 := by
      intro served r others hrest
      exact hfit (q :: served) r others (by rw [hrest]; rfl)
    obtain ⟨hanswers, hend⟩ := ih _ _ hnext hlater
    refine ⟨?_, hend⟩
    simp only [serve, List.map_cons, hanswer, hanswers]

/-! ## Ledgers -/

abbrev Ledger (T : Type) := String → List T

namespace Ledger

def empty : Ledger T := fun _ => []

/-- The entries whose version is greater than the one given; the first entry has version 1. -/
def later (entries : List T) (version : Nat) : List T :=
  ((entries.zipIdx 1).filter fun e => version < e.2).map Prod.fst

def call : (q : StoreCall T) → Ledger T → q.Reply × Ledger T
  | .append stream new expected, ledger =>
    if (ledger stream).length = expected then
      (.ok (ledger stream ++ new).length, Function.update ledger stream (ledger stream ++ new))
    else (.error (.concurrency stream expected (ledger stream).length), ledger)
  | .load stream none, ledger => (.ok (ledger stream), ledger)
  | .load stream (some version), ledger => (.ok (later (ledger stream) version), ledger)
  | .contains stream, ledger => (.ok (!(ledger stream).isEmpty), ledger)
  | .delete stream, ledger => (.ok (), Function.update ledger stream [])

theorem map_fst_filter_zipIdx (entries : List T) (start version : Nat) :
    ((entries.zipIdx (start + 1)).filter fun e => start + version < e.2).map Prod.fst = entries.drop version := by
  induction entries generalizing start version with
  | nil => simp
  | cons entry rest ih =>
    cases version with
    | zero =>
      have hall : ∀ e ∈ (entry :: rest).zipIdx (start + 1), decide (start + 0 < e.2) = true := by
        intro e he
        have := List.le_snd_of_mem_zipIdx he
        simp; omega
      rw [List.filter_eq_self.mpr hall]
      simp
    | succ version =>
      have hrest := ih (start + 1) version
      rw [List.zipIdx_cons]
      simpa [show start + 1 + version = start + (version + 1) by omega] using hrest

theorem later_eq_drop (entries : List T) (version : Nat) : later entries version = entries.drop version := by
  simpa [later] using map_fst_filter_zipIdx entries 0 version

end Ledger

/-! ## Names in the table of a store -/

namespace MemoryStore

theorem mem_putStream {stream : String} {new : List T} {streams : List (String × List T)} {s : String × List T}
    (h : s ∈ putStream stream new streams) : s = (stream, new) ∨ s ∈ streams := by
  induction streams with
  | nil => simpa [putStream] using h
  | cons first rest ih =>
    unfold putStream at h
    by_cases hs : first.1 = stream
    · rw [if_pos hs] at h
      rcases List.mem_cons.mp h with rfl | h
      · exact .inl rfl
      · exact .inr (List.mem_cons_of_mem _ h)
    · rw [if_neg hs] at h
      rcases List.mem_cons.mp h with rfl | h
      · exact .inr List.mem_cons_self
      · exact (ih h).imp_right (List.mem_cons_of_mem _)

theorem nodup_putStream {stream : String} {new : List T} {streams : List (String × List T)}
    (h : (streams.map Prod.fst).Nodup) : ((putStream stream new streams).map Prod.fst).Nodup := by
  induction streams with
  | nil => simp [putStream]
  | cons first rest ih =>
    obtain ⟨hfirst, hrest⟩ := List.nodup_cons.mp h
    unfold putStream
    by_cases hs : first.1 = stream
    · rw [if_pos hs]
      exact List.nodup_cons.mpr ⟨hs ▸ hfirst, hrest⟩
    · rw [if_neg hs]
      refine List.nodup_cons.mpr ⟨?_, ih hrest⟩
      intro hmem
      obtain ⟨s, hmem, hname⟩ := List.mem_map.mp hmem
      rcases mem_putStream hmem with rfl | hmem
      · exact hs hname.symm
      · exact hfirst (List.mem_map.mpr ⟨s, hmem, hname⟩)

/-- Every name in the table stands there once and has entries. -/
structure Tidy (store : MemoryStore T) : Prop where
  nodup : (store.streams.map Prod.fst).Nodup
  nonempty : ∀ s ∈ store.streams, s.2 ≠ []

theorem Tidy.put {store : MemoryStore T} (h : store.Tidy) (stream : String) {new : List T} (hnew : new ≠ []) :
    (store.put stream new).Tidy := by
  refine ⟨nodup_putStream h.nodup, ?_⟩
  intro s hs
  rcases mem_putStream hs with rfl | hs
  · exact hnew
  · exact h.nonempty s hs

theorem Tidy.erase {store : MemoryStore T} (h : store.Tidy) (stream : String) : (store.erase stream).Tidy := by
  refine ⟨h.nodup.sublist (List.filter_sublist.map _), ?_⟩
  intro s hs
  exact h.nonempty s (List.mem_filter.mp hs).1

theorem Tidy.append {store : MemoryStore T} (h : store.Tidy) (stream : String) (new : List T) (expected : Nat) :
    (store.append stream new expected).2.Tidy := by
  unfold MemoryStore.append
  cases hf : store.find? stream with
  | none =>
    by_cases he : expected = 0
    · cases new with
      | nil => simpa [he] using h
      | cons entry rest => simpa [he] using h.put stream (List.cons_ne_nil entry rest)
    · simpa [he] using h
  | some stored =>
    by_cases he : stored.length = expected
    · have hstored : stored ≠ [] := by
        obtain ⟨before, behind, hsplit, -⟩ := List.lookup_eq_some_iff.mp hf
        exact h.nonempty (stream, stored) (by rw [hsplit]; simp)
      simpa [he] using h.put stream (List.append_ne_nil_of_left_ne_nil hstored new)
    · simpa [he] using h

theorem Tidy.call {store : MemoryStore T} (h : store.Tidy) (q : StoreCall T) : (call q store).2.Tidy := by
  cases q with
  | append stream new expected => exact h.append stream new expected
  | load stream after => exact h
  | contains stream => exact h
  | delete stream => exact h.erase stream

@[simp] theorem entries_empty (stream : String) : (empty : MemoryStore T).entries stream = [] := rfl

theorem tidy_empty : (empty : MemoryStore T).Tidy :=
  ⟨List.nodup_nil, fun _ hs => absurd hs List.not_mem_nil⟩

theorem call_of_error {q : StoreCall T} {store : MemoryStore T} {e : StoreError}
    (h : (call q store).1 = .error e) : (call q store).2 = store := by
  cases q with
  | append stream new expected =>
    simp only [call, append] at h ⊢
    split at h
    · split at h
      · rw [if_pos ‹_›]
      · split at h <;> cases h
    · split at h
      · rw [if_pos ‹_›]
      · cases h
  | load stream after => cases h
  | contains stream => cases h
  | delete stream => cases h

theorem erase_of_missing {store : MemoryStore T} {stream : String} (h : store.find? stream = none) :
    store.erase stream = store := by
  have hkept : store.streams.filter (·.1 ≠ stream) = store.streams := by
    rw [List.filter_eq_self]
    intro s hs
    have hne := List.lookup_eq_none_iff.mp h s hs
    simpa using Ne.symm (bne_iff_ne.mp hne)
  unfold erase
  rw [hkept]

theorem erase_erase (store : MemoryStore T) (stream : String) :
    (store.erase stream).erase stream = store.erase stream := by
  simp [erase]

/-! ## Agreement -/

structure Mirrors (store : MemoryStore T) (ledger : Ledger T) : Prop where
  entries : store.entries = ledger
  tidy : store.Tidy

theorem Mirrors.call {store : MemoryStore T} {ledger : Ledger T} (h : store.Mirrors ledger) (q : StoreCall T) :
    (MemoryStore.call q store).1 = (Ledger.call q ledger).1 ∧
      (MemoryStore.call q store).2.Mirrors (Ledger.call q ledger).2 := by
  obtain ⟨rfl, htidy⟩ := h
  refine ⟨?_, ?_, htidy.call q⟩
  · cases q with
    | append stream new expected =>
      simp only [MemoryStore.call, Ledger.call, append_fst]
      split
      · rename_i hlen
        simp [hlen]
      · rfl
    | load stream after =>
      cases after with
      | none => simp [MemoryStore.call, Ledger.call]
      | some version => simp [MemoryStore.call, Ledger.call, Ledger.later_eq_drop]
    | contains stream => rfl
    | delete stream => rfl
  · funext other
    cases q with
    | append stream new expected =>
      simp only [MemoryStore.call, Ledger.call, entries_append]
      by_cases hlen : (store.entries stream).length = expected
      · by_cases hother : other = stream
        · subst hother; simp [hlen]
        · simp [hlen, hother]
      · simp [hlen]
    | load stream after => cases after <;> rfl
    | contains stream => rfl
    | delete stream =>
      simp only [MemoryStore.call, Ledger.call]
      by_cases hother : other = stream
      · subst hother; simp [entries_erase_self]
      · simp [hother, entries_erase_of_ne]

theorem serve_mirrors (calls : List (StoreCall T)) :
    (serve MemoryStore.call calls .empty).1 = (serve Ledger.call calls .empty).1 ∧
      (serve MemoryStore.call calls .empty).2.Mirrors (serve Ledger.call calls .empty).2 := by
  have hempty : (MemoryStore.empty : MemoryStore T).Mirrors Ledger.empty := ⟨rfl, tidy_empty⟩
  have h := serve_simulates (f := fun _ x => x) (fun _ _ => True) (fun q _ _ h _ => Mirrors.call h q)
    calls _ _ hempty (fun _ _ _ _ => trivial)
  simpa using h

/-- A store in memory that started empty is a ledger: it answers as one, call by call, and has its entries, and no
name in its table is without entries. A call that fails changes nothing, one on another stream nothing of this one,
and to delete a stream again changes nothing more. -/
theorem serve_agrees (calls : List (StoreCall T)) :
    (serve MemoryStore.call calls .empty).1 = (serve Ledger.call calls .empty).1 ∧
    (serve MemoryStore.call calls .empty).2.entries = (serve Ledger.call calls .empty).2 ∧
    (serve MemoryStore.call calls .empty).2.Tidy ∧
    ∀ store : MemoryStore T,
      (∀ stream, MemoryStore.call (.load stream (some 0)) store = MemoryStore.call (.load stream none) store) ∧
      (∀ q e, (MemoryStore.call q store).1 = .error e → (MemoryStore.call q store).2 = store) ∧
      (∀ q other, other ≠ q.stream → (MemoryStore.call q store).2.entries other = store.entries other) ∧
      (∀ stream, (store.erase stream).entries stream = [] ∧
        MemoryStore.call (.delete stream) (store.erase stream) = (.ok (), store.erase stream)) := by
  obtain ⟨hanswers, hentries, htidy⟩ := serve_mirrors calls
  refine ⟨hanswers, hentries, htidy, ?_⟩
  intro store
  refine ⟨fun stream => rfl, fun q e => call_of_error, fun q other h => entries_call_of_ne h store, ?_⟩
  intro stream
  exact ⟨entries_erase_self store stream, by simp [MemoryStore.call, erase_erase]⟩

end MemoryStore

end Workflow

import Mathlib.Data.List.Range
import Workflow.Database.Session
import Workflow.Entry

/-!
# Versions in a table

A stream whose rows have the versions from 1 on, without a gap, is at the version that counts its rows
(`Gapless.greatest`), and stays so when rows are added that follow on (`Gapless.append`).
-/

namespace Workflow.Database

def rowAfter (stream : String) (version : Nat) (payload : Data) : Row :=
  ⟨stream, (version + 1 : Nat), Entry.tag payload, payload⟩

def rowsAfter (stream : String) (version : Nat) : List Data → List Row
  | [] => []
  | payload :: rest => rowAfter stream version payload :: rowsAfter stream (version + 1) rest

theorem rowsAfter_append (stream : String) (version : Nat) (front back : List Data) :
    rowsAfter stream version (front ++ back) =
      rowsAfter stream version front ++ rowsAfter stream (version + front.length) back := by
  induction front generalizing version with
  | nil => rfl
  | cons payload front ih =>
    have hversion : version + (payload :: front).length = version + 1 + front.length := by simp; omega
    rw [List.cons_append, rowsAfter, ih, hversion]
    rfl

theorem stream_of_mem_rowsAfter {stream : String} {version : Nat} {payloads : List Data} {row : Row}
    (h : row ∈ rowsAfter stream version payloads) : row.stream = stream := by
  induction payloads generalizing version with
  | nil => cases h
  | cons payload rest ih =>
    rcases List.mem_cons.mp h with rfl | h
    · rfl
    · exact ih h

theorem filter_rowsAfter (stream : String) (version : Nat) (payloads : List Data) :
    (rowsAfter stream version payloads).filter (·.stream == stream) = rowsAfter stream version payloads := by
  rw [List.filter_eq_self]
  intro row hrow
  simp [stream_of_mem_rowsAfter hrow]

theorem filter_rowsAfter_of_ne {stream other : String} (h : other ≠ stream) (version : Nat) (payloads : List Data) :
    (rowsAfter stream version payloads).filter (·.stream == other) = [] := by
  rw [List.filter_eq_nil_iff]
  intro row hrow
  simp [stream_of_mem_rowsAfter hrow, Ne.symm h]

theorem map_version_rowsAfter (stream : String) (version : Nat) (payloads : List Data) :
    (rowsAfter stream version payloads).map Row.version =
      (List.range' (version + 1) payloads.length).map (fun v : Nat => (v : Int)) := by
  induction payloads generalizing version with
  | nil => rfl
  | cons payload rest ih => simp [rowsAfter, rowAfter, ih, List.range'_succ]

namespace Table

def versions (rows : List Row) (stream : String) : List Int :=
  (rows.filter (·.stream == stream)).map Row.version

def upTo (version : Nat) : List Int :=
  (List.range' 1 version).map (fun v : Nat => (v : Int))

def Gapless (rows : List Row) (stream : String) (version : Nat) : Prop :=
  (versions rows stream).Perm (upTo version)

theorem versions_append (rows more : List Row) (stream : String) :
    versions (rows ++ more) stream = versions rows stream ++ versions more stream := by
  simp [versions]

theorem versions_rowsAfter (stream : String) (version : Nat) (payloads : List Data) :
    versions (rowsAfter stream version payloads) stream =
      (List.range' (version + 1) payloads.length).map (fun v : Nat => (v : Int)) := by
  rw [versions, filter_rowsAfter, map_version_rowsAfter]

theorem versions_without (rows : List Row) (stream : String) : versions (without rows stream) stream = [] := by
  simp [versions, without, List.filter_filter]

theorem mem_upTo {n : Nat} {v : Int} : v ∈ upTo n ↔ 1 ≤ v ∧ v ≤ n := by
  simp only [upTo, List.mem_map, List.mem_range'_1]
  constructor
  · rintro ⟨k, hk, rfl⟩; omega
  · intro h; exact ⟨v.toNat, by omega, by omega⟩

theorem pairwise_upTo (n : Nat) : (upTo n).Pairwise (· ≤ ·) := by
  rw [upTo, List.pairwise_map]
  refine (List.pairwise_lt_range' (s := 1)).imp ?_
  intro a b hab
  omega

theorem pairwise_byVersion (rows : List Row) : ((byVersion rows).map Row.version).Pairwise (· ≤ ·) := by
  have hsorted : (byVersion rows).Pairwise fun a b => decide (a.version ≤ b.version) = true := by
    refine List.pairwise_mergeSort ?_ ?_ rows
    · intro a b c hab hbc
      simp only [decide_eq_true_eq] at hab hbc ⊢
      omega
    · intro a b
      simp only [Bool.or_eq_true, decide_eq_true_eq]
      omega
  rw [List.pairwise_map]
  simpa using hsorted

theorem upTo_add (n m : Nat) :
    upTo (n + m) = upTo n ++ (List.range' (n + 1) m).map (fun v : Nat => (v : Int)) := by
  rw [upTo, upTo, ← List.map_append, Nat.add_comm n 1, List.range'_append_1]

theorem takes_iff {rows : List Row} {row : Row} : takes rows row = true ↔ row.version ∈ versions rows row.stream := by
  simp only [takes, Row.sameKey, versions, List.any_eq_true, List.mem_map, List.mem_filter, Bool.and_eq_true,
    beq_iff_eq]
  constructor
  · rintro ⟨r, hr, hs, hv⟩; exact ⟨r, ⟨hr, hs.symm⟩, hv.symm⟩
  · rintro ⟨r, ⟨hr, hs⟩, hv⟩; exact ⟨r, hr, hs.symm, hv.symm⟩

theorem greatest_eq (rows : List Row) (stream : String) :
    greatest rows stream = (versions rows stream).max?.getD 0 := by
  unfold greatest versions
  cases (rows.filter (·.stream == stream)).map Row.version <;> rfl

section
variable {rows : List Row} {stream : String} {n : Nat}

theorem gapless_nil (stream : String) : Gapless [] stream 0 := .nil

theorem gapless_without (rows : List Row) (stream : String) : Gapless (without rows stream) stream 0 := by
  rw [Gapless, versions_without]; rfl

theorem Gapless.mem_iff (h : Gapless rows stream n) {v : Int} : v ∈ versions rows stream ↔ 1 ≤ v ∧ v ≤ n :=
  (List.Perm.mem_iff h).trans mem_upTo

theorem Gapless.length (h : Gapless rows stream n) : (rows.filter (·.stream == stream)).length = n := by
  have hlength := h.length_eq
  simpa [versions, upTo] using hlength

theorem Gapless.greatest (h : Gapless rows stream n) : Table.greatest rows stream = n := by
  rw [greatest_eq]
  cases hmax : (versions rows stream).max? with
  | none =>
    have hnil : versions rows stream = [] := List.max?_eq_none_iff.mp hmax
    have hlength := h.length_eq
    simp only [hnil, upTo, List.length_nil, List.length_map, List.length_range'] at hlength
    simp [← hlength]
  | some v =>
    obtain ⟨hv, hle⟩ := List.max?_eq_some_iff.mp hmax
    have hbounds := h.mem_iff.mp hv
    have hn := hle n (h.mem_iff.mpr ⟨by omega, Int.le_refl _⟩)
    simp only [Option.getD_some]
    omega

theorem Gapless.after (h : Gapless rows stream n) : (Table.after rows stream 0).map Row.version = upTo n := by
  have hall : rows.filter (fun row => row.stream == stream && ((0 : Nat) : Int) < row.version) =
      rows.filter (·.stream == stream) := by
    refine List.filter_congr fun row hrow => ?_
    by_cases hs : row.stream == stream
    · have hversion : row.version ∈ versions rows stream := List.mem_map_of_mem (List.mem_filter.mpr ⟨hrow, hs⟩)
      have hbounds := h.mem_iff.mp hversion
      simp only [hs, Bool.true_and, decide_eq_true_eq]
      omega
    · simp [hs]
  have hperm : ((byVersion (rows.filter (·.stream == stream))).map Row.version).Perm (upTo n) :=
    ((List.mergeSort_perm _ _).map Row.version).trans h
  rw [Table.after, hall]
  exact hperm.eq_of_pairwise (fun a b _ _ => Int.le_antisymm) (pairwise_byVersion _) (pairwise_upTo n)

theorem Gapless.append (h : Gapless rows stream n) (payloads : List Data) :
    Gapless (rows ++ rowsAfter stream n payloads) stream (n + payloads.length) := by
  rw [Gapless, versions_append, versions_rowsAfter, upTo_add]
  exact h.append_right _

/-- Rows whose keys are free follow on, as long as the version they follow is not beyond the stream's. -/
theorem Gapless.commit (h : Gapless rows stream n) {expected : Nat} {payloads : List Data} (hle : expected ≤ n)
    (hfree : ∀ row ∈ rowsAfter stream expected payloads, takes rows row = false) :
    Gapless (rows ++ rowsAfter stream expected payloads) stream (n + payloads.length) := by
  cases payloads with
  | nil => rw [rowsAfter, List.append_nil]; exact h
  | cons payload rest =>
    have hfirst := hfree (rowAfter stream expected payload) List.mem_cons_self
    rw [← Bool.not_eq_true, takes_iff] at hfirst
    have hbounds : ¬ (1 ≤ ((expected + 1 : Nat) : Int) ∧ ((expected + 1 : Nat) : Int) ≤ n) := by
      intro hb
      exact hfirst (h.mem_iff.mpr hb)
    obtain rfl : expected = n := by omega
    exact h.append _

theorem Gapless.not_takes (h : Gapless rows stream n) {row : Row} (hstream : row.stream = stream)
    (hversion : n < row.version) : takes rows row = false := by
  rw [← Bool.not_eq_true, takes_iff, hstream, h.mem_iff]
  omega

end

end Table

end Workflow.Database

/-!
# Words

The ranges of the words that numbers are kept in, and wrapping around to a word. Main statements:
`Word.fits_wrap`, by which wrapping ends in the range, and `Word.wrap_eq_self_iff`, by which it
changes the numbers outside the range and no others.
-/

namespace Workflow.Word

def count32 : Nat := 4294967296

def count64 : Nat := 18446744073709551616

def half64 : Nat := 9223372036854775808

def fits (n : Int) : Bool :=
  -(half64 : Int) ≤ n && n < half64

def wrap (n : Int) : Int :=
  n.bmod count64

theorem fits_iff {n : Int} :
    fits n = true ↔ -9223372036854775808 ≤ n ∧ n < 9223372036854775808 := by
  simp only [fits, Bool.and_eq_true, decide_eq_true_eq]
  simp only [half64]
  omega

theorem fits_wrap (n : Int) : fits (wrap n) = true := by
  have hlo : -((count64 : Int) / 2) ≤ n.bmod count64 := Int.le_bmod (by decide)
  have hhi : n.bmod count64 < ((count64 : Int) + 1) / 2 := Int.bmod_lt (by decide)
  simp only [count64] at hlo hhi
  rw [fits_iff]
  simp only [wrap, count64]
  omega

theorem wrap_of_fits {n : Int} (h : fits n = true) : wrap n = n := by
  obtain ⟨hlo, hhi⟩ := fits_iff.mp h
  apply Int.bmod_eq_of_le <;> simp only [count64] <;> omega

theorem wrap_eq_self_iff {n : Int} : wrap n = n ↔ fits n = true :=
  ⟨fun h => h ▸ fits_wrap n, wrap_of_fits⟩

end Workflow.Word

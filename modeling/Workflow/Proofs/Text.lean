import Mathlib.Data.List.DropRight
import Workflow.Text.Blank
import Workflow.Text.Numeral

/-!
# Trimmed texts and numerals

Trimming leaves what stands between the blank space at both ends (`trim_eq_iff`). A numeral is read just if it is one
or more digits, after an optional plus sign, and what is read is the value of the digits (`numeral?_eq_some_iff`).
-/

namespace Workflow.Text

/-! ## Trimming -/

def Blank (s : String) : Prop := ∀ c ∈ s.toList, isBlank c

/-- `t` stands in `s` between blank space, and has none at its own ends. -/
structure Trimmed (s t : String) : Prop where
  inside : ∃ before after, s.toList = before ++ (t.toList ++ after) ∧ (∀ c ∈ before, isBlank c) ∧
    ∀ c ∈ after, isBlank c
  first : ∀ c ∈ t.toList.head?, ¬ isBlank c
  last : ∀ c ∈ t.toList.getLast?, ¬ isBlank c

theorem dropWhile_append_of_head {α : Type} {p : α → Bool} {l m : List α} (hl : ∀ a ∈ l, p a)
    (hm : ∀ a ∈ m.head?, ¬ p a) : (l ++ m).dropWhile p = m := by
  rw [List.dropWhile_append_of_pos hl]
  cases m with
  | nil => rfl
  | cons a m => simp at hm; simp [hm]

theorem trimChars_eq (cs : List Char) : trimChars cs = (cs.dropWhile isBlank).rdropWhile isBlank := rfl

@[simp] theorem toList_trim (s : String) : (trim s).toList = trimChars s.toList := String.toList_ofList

theorem trimmed_trim (s : String) : Trimmed s (trim s) := by
  refine ⟨⟨s.toList.takeWhile isBlank, (s.toList.dropWhile isBlank).rtakeWhile isBlank, ?_, ?_, ?_⟩, ?_, ?_⟩
  · rw [toList_trim, trimChars_eq, List.rdropWhile_append_rtakeWhile, List.takeWhile_append_dropWhile]
  · intro c hc
    exact List.mem_takeWhile_imp hc
  · intro c hc
    exact List.mem_rtakeWhile_imp hc
  · intro c hc
    rw [toList_trim, trimChars_eq] at hc
    -- what is cut off at the end leaves the first character that the cut in front came to
    obtain ⟨rest, hrest⟩ := List.rdropWhile_prefix isBlank (s.toList.dropWhile isBlank)
    have hfirst : (s.toList.dropWhile isBlank).head? = some c := by
      rw [← congrArg List.head? hrest, List.head?_append, hc, Option.some_or]
    have hnot := List.head?_dropWhile_not isBlank s.toList
    rw [hfirst] at hnot
    simpa using hnot
  · intro c hc
    rw [toList_trim, trimChars_eq] at hc
    obtain ⟨hne, rfl⟩ := List.mem_getLast?_eq_getLast hc
    exact List.rdropWhile_last_not isBlank _ hne

theorem Trimmed.trim_eq {s t : String} (h : Trimmed s t) : trim s = t := by
  obtain ⟨⟨before, after, hs, hbefore, hafter⟩, hfirst, hlast⟩ := h
  apply String.toList_inj.mp
  rw [toList_trim, trimChars_eq, hs]
  by_cases ht : t.toList = []
  · have hall : ∀ c ∈ before ++ after, isBlank c := by
      intro c hc
      rcases List.mem_append.mp hc with hc | hc
      · exact hbefore c hc
      · exact hafter c hc
    rw [ht, List.nil_append, List.dropWhile_eq_nil_iff.mpr hall, List.rdropWhile_nil]
  · have hfront : (before ++ (t.toList ++ after)).dropWhile isBlank = t.toList ++ after := by
      apply dropWhile_append_of_head hbefore
      intro c hc
      apply hfirst c
      rwa [List.head?_append_of_ne_nil _ ht] at hc
    have hback : (after.reverse ++ t.toList.reverse).dropWhile isBlank = t.toList.reverse := by
      apply dropWhile_append_of_head
      · simpa using hafter
      · simpa using hlast
    rw [hfront, List.rdropWhile, List.reverse_append, hback, List.reverse_reverse]

theorem trim_eq_iff {s t : String} : trim s = t ↔ Trimmed s t :=
  ⟨fun h => h ▸ trimmed_trim s, Trimmed.trim_eq⟩

theorem trim_eq_empty_iff {s : String} : trim s = "" ↔ Blank s := by
  rw [trim_eq_iff]
  constructor
  · rintro ⟨⟨before, after, hs, hbefore, hafter⟩, -, -⟩ c hc
    rw [hs] at hc
    rcases List.mem_append.mp hc with hc | hc
    · exact hbefore c hc
    · exact hafter c (by simpa using hc)
  · intro h
    exact ⟨⟨s.toList, [], by simp, h, by simp⟩, by simp, by simp⟩

/-! ## Numerals -/

/-- A text that writes `n`: one or more digits, after an optional plus sign. -/
def Numeral (s : String) (n : Nat) : Prop :=
  ∃ digits : List Char, (s.toList = digits ∨ s.toList = '+' :: digits) ∧ digits ≠ [] ∧
    (∀ c ∈ digits, c.isDigit) ∧ Nat.ofDigitChars 10 digits 0 = n

theorem digit?_eq (c : Char) : digit? c = if c.isDigit then some (c.toNat - '0'.toNat) else none := by
  have h : ('0' ≤ c ∧ c ≤ '9') ↔ c.isDigit = true := by
    simp [Char.isDigit, Char.le_def]
  unfold digit?
  simp only [h]

theorem digitsFrom_eq_some_iff {acc n : Nat} {cs : List Char} :
    digitsFrom acc cs = some n ↔ (∀ c ∈ cs, c.isDigit) ∧ Nat.ofDigitChars 10 cs acc = n := by
  induction cs generalizing acc with
  | nil => simp [digitsFrom]
  | cons c cs ih =>
    rw [digitsFrom, digit?_eq]
    by_cases hc : c.isDigit
    · simp [hc, ih, Nat.ofDigitChars_cons]
    · simp [hc]

theorem digits?_eq_some_iff {n : Nat} {cs : List Char} :
    digits? cs = some n ↔ cs ≠ [] ∧ (∀ c ∈ cs, c.isDigit) ∧ Nat.ofDigitChars 10 cs 0 = n := by
  cases cs with
  | nil => simp [digits?]
  | cons c cs => simp only [digits?, digitsFrom_eq_some_iff, ne_eq, reduceCtorEq, not_false_eq_true, true_and]

theorem unsigned_of_digits {digits : List Char} (h : ∀ c ∈ digits, c.isDigit) : unsigned digits = digits := by
  cases digits with
  | nil => rfl
  | cons c digits =>
    by_cases hc : c = '+'
    · subst hc
      exact absurd (h '+' (by simp)) (by decide)
    · simp [unsigned, hc]

theorem digits?_unsigned_iff {s : String} {n : Nat} : digits? (unsigned s.toList) = some n ↔ Numeral s n := by
  rw [digits?_eq_some_iff]
  constructor
  · intro h
    refine ⟨unsigned s.toList, ?_, h⟩
    unfold unsigned
    split
    next heq => exact .inr heq
    next => exact .inl rfl
  · rintro ⟨digits, hs | hs, hne, hdigits, hn⟩
    · rw [hs, unsigned_of_digits hdigits]
      exact ⟨hne, hdigits, hn⟩
    · rw [hs]
      exact ⟨hne, hdigits, hn⟩

theorem Numeral.unique {s : String} {n m : Nat} (h : Numeral s n) (h' : Numeral s m) : n = m := by
  rw [← digits?_unsigned_iff] at h h'
  exact Option.some.inj (h.symm.trans h')

theorem numeral?_eq_some_iff {bound n : Nat} {s : String} :
    numeral? bound s = some n ↔ Numeral s n ∧ n < bound := by
  rw [numeral?, Option.filter_eq_some_iff, digits?_unsigned_iff, decide_eq_true_iff]

end Workflow.Text

import Mathlib.Data.List.TakeWhile
import Workflow.Instance

/-!
# Names of instances

The name of a stream puts a hyphen between the process and the key, either of which may hold hyphens of its own:
`stream_eq_iff`, by which two instances share a stream just if one is the other with the separator moved. The text of an
instance puts a slash there, and is split at its first slash when it is read: `texts_read_back`.
-/

namespace Workflow.InstanceId

variable {a b : InstanceId}

/-! ## Streams -/

/-- The process of `b` goes on after that of `a`: the separator of `a` stands at an earlier hyphen. -/
def Splits (a b : InstanceId) : Prop :=
  ∃ part, b.process = a.process ++ "-" ++ part ∧ a.key = part ++ "-" ++ b.key

theorem Splits.stream_eq (h : Splits a b) : a.stream = b.stream := by
  obtain ⟨part, hprocess, hkey⟩ := h
  unfold stream
  rw [hprocess, hkey, String.append_assoc, String.append_assoc, String.append_assoc, String.append_assoc,
    String.append_assoc]

theorem toList_stream (a : InstanceId) : a.stream.toList = a.process.toList ++ '-' :: a.key.toList := by
  simp [stream]

theorem eq_or_splits {c : List Char} (hprocess : b.process.toList = a.process.toList ++ c)
    (hkey : '-' :: a.key.toList = c ++ '-' :: b.key.toList) : a = b ∨ Splits a b := by
  cases c with
  | nil =>
    rw [List.append_nil] at hprocess
    obtain ⟨process, key⟩ := a
    obtain ⟨process', key'⟩ := b
    obtain rfl : process' = process := String.toList_inj.mp hprocess
    obtain rfl : key = key' := String.toList_inj.mp (List.cons.inj hkey).2
    exact .inl rfl
  | cons first part =>
    obtain ⟨rfl, hrest⟩ := List.cons.inj hkey
    have hrest : a.key.toList = part ++ '-' :: b.key.toList := hrest
    refine .inr ⟨String.ofList part, String.toList_inj.mp ?_, String.toList_inj.mp ?_⟩
    · rw [hprocess]; simp
    · rw [hrest]; simp

theorem stream_eq_iff (a b : InstanceId) : a.stream = b.stream ↔ a = b ∨ Splits a b ∨ Splits b a := by
  constructor
  · intro h
    have hlist : a.process.toList ++ '-' :: a.key.toList = b.process.toList ++ '-' :: b.key.toList := by
      rw [← toList_stream, ← toList_stream, h]
    rcases List.append_eq_append_iff.mp hlist with ⟨c, hprocess, hkey⟩ | ⟨c, hprocess, hkey⟩
    · rcases eq_or_splits hprocess hkey with h | h
      · exact .inl h
      · exact .inr (.inl h)
    · rcases eq_or_splits hprocess hkey with h | h
      · exact .inl h.symm
      · exact .inr (.inr h)
  · rintro (rfl | h | h)
    · rfl
    · exact h.stream_eq
    · exact h.stream_eq.symm

/-! ## Texts -/

structure Readable (id : InstanceId) : Prop where
  process : id.process ≠ ""
  key : id.key ≠ ""
  slash : '/' ∉ id.process.toList

instance (id : InstanceId) : Decidable id.Readable :=
  decidable_of_iff (id.process ≠ "" ∧ id.key ≠ "" ∧ '/' ∉ id.process.toList)
    ⟨fun h => ⟨h.1, h.2.1, h.2.2⟩, fun h => ⟨h.process, h.key, h.slash⟩⟩

theorem toList_text (a : InstanceId) : a.text.toList = a.process.toList ++ '/' :: a.key.toList := by
  simp [text]

theorem split_text (h : '/' ∉ a.process.toList) :
    a.text.toList.takeWhile (· ≠ '/') = a.process.toList ∧
      a.text.toList.dropWhile (· ≠ '/') = '/' :: a.key.toList := by
  have hprocess : ∀ c ∈ a.process.toList, decide (c ≠ '/') := fun c hc => decide_eq_true (ne_of_mem_of_not_mem hc h)
  rw [toList_text, List.takeWhile_append_of_pos hprocess, List.dropWhile_append_of_pos hprocess]
  simp

theorem eq_of_text_eq (ha : '/' ∉ a.process.toList) (hb : '/' ∉ b.process.toList) (h : a.text = b.text) : a = b := by
  have hprocess : a.process.toList = b.process.toList := by rw [← (split_text ha).1, h, (split_text hb).1]
  have hkey : '/' :: a.key.toList = '/' :: b.key.toList := by rw [← (split_text ha).2, h, (split_text hb).2]
  obtain ⟨process, key⟩ := a
  obtain ⟨process', key'⟩ := b
  obtain rfl : process = process' := String.toList_inj.mp hprocess
  obtain rfl : key = key' := String.toList_inj.mp (List.cons.inj hkey).2
  rfl

theorem exists_text {s : String} (h : '/' ∈ s.toList) : ∃ id : InstanceId, '/' ∉ id.process.toList ∧ s = id.text := by
  obtain ⟨process, key, hs, hprocess⟩ := List.eq_append_cons_of_mem h
  refine ⟨⟨String.ofList process, String.ofList key⟩, by simpa using hprocess, String.toList_inj.mp ?_⟩
  rw [hs, toList_text]
  simp

theorem parse_of_not_mem {s : String} (h : '/' ∉ s.toList) : parse s = .error (.malformed s) := by
  have hdrop : s.toList.dropWhile (· ≠ '/') = [] :=
    List.dropWhile_eq_nil_iff.mpr fun c hc => decide_eq_true (ne_of_mem_of_not_mem hc h)
  unfold parse
  rw [hdrop]

theorem parse_text_eq (h : '/' ∉ a.process.toList) :
    parse a.text =
      if a.process = "" then .error (.empty "process name")
      else if a.key = "" then .error (.empty "key") else .ok a := by
  unfold parse
  rw [(split_text h).1, (split_text h).2]
  simp

theorem parse_eq_ok_iff {s : String} {id : InstanceId} : parse s = .ok id ↔ id.Readable ∧ id.text = s := by
  constructor
  · intro h
    by_cases hs : '/' ∈ s.toList
    · obtain ⟨id', hslash, rfl⟩ := exists_text hs
      rw [parse_text_eq hslash] at h
      split at h
      next => cases h
      next hprocess =>
        split at h
        next => cases h
        next hkey =>
          cases h
          exact ⟨⟨hprocess, hkey, hslash⟩, rfl⟩
    · rw [parse_of_not_mem hs] at h
      cases h
  · rintro ⟨h, rfl⟩
    rw [parse_text_eq h.slash, if_neg h.process, if_neg h.key]

theorem parse_eq_malformed_iff {s t : String} : parse s = .error (.malformed t) ↔ '/' ∉ s.toList ∧ t = s := by
  by_cases hs : '/' ∈ s.toList
  · refine iff_of_false (fun h => ?_) (fun h => h.1 hs)
    obtain ⟨id, hslash, rfl⟩ := exists_text hs
    rw [parse_text_eq hslash] at h
    split at h
    next => cases h
    next => split at h <;> cases h
  · rw [parse_of_not_mem hs]
    exact ⟨fun h => by cases h; exact ⟨hs, rfl⟩, fun h => by rw [h.2]⟩

theorem parse_eq_empty_iff {s part : String} : parse s = .error (.empty part) ↔
    part = "process name" ∧ (∃ key, s = "/" ++ key) ∨
      part = "key" ∧ ∃ process, process ≠ "" ∧ '/' ∉ process.toList ∧ s = process ++ "/" := by
  constructor
  · intro h
    by_cases hs : '/' ∈ s.toList
    · obtain ⟨id, hslash, rfl⟩ := exists_text hs
      rw [parse_text_eq hslash] at h
      split at h
      next hprocess =>
        cases h
        refine .inl ⟨rfl, id.key, ?_⟩
        rw [text, hprocess, String.empty_append]
      next hprocess =>
        split at h
        next hkey =>
          cases h
          refine .inr ⟨rfl, id.process, hprocess, hslash, ?_⟩
          rw [text, hkey, String.append_empty]
        next => cases h
    · rw [parse_of_not_mem hs] at h
      cases h
  · rintro (⟨rfl, key, rfl⟩ | ⟨rfl, process, hprocess, hslash, rfl⟩)
    · have htext : "/" ++ key = text ⟨"", key⟩ := by rw [text, String.empty_append]
      rw [htext, parse_text_eq (a := ⟨"", key⟩) (by simp), if_pos rfl]
    · have htext : process ++ "/" = text ⟨process, ""⟩ := by rw [text, String.append_empty]
      rw [htext, parse_text_eq (a := ⟨process, ""⟩) hslash, if_neg hprocess, if_pos rfl]

/-- A text is read if there is a process before its first slash and a key after it, and then it is the text of what
was read. What is written is read back if no part is empty and the process holds no slash. -/
theorem texts_read_back :
    (∀ s : String,
      (∀ id, parse s = .ok id ↔ id.Readable ∧ id.text = s) ∧
      (∀ t, parse s = .error (.malformed t) ↔ '/' ∉ s.toList ∧ t = s) ∧
      ∀ part, parse s = .error (.empty part) ↔
        part = "process name" ∧ (∃ key, s = "/" ++ key) ∨
          part = "key" ∧ ∃ process, process ≠ "" ∧ '/' ∉ process.toList ∧ s = process ++ "/") ∧
    (∀ id : InstanceId, parse id.text = .ok id ↔ id.Readable) ∧
    ∀ a b : InstanceId, '/' ∉ a.process.toList → '/' ∉ b.process.toList → a.text = b.text → a = b := by
  refine ⟨fun s => ⟨fun id => parse_eq_ok_iff, fun t => parse_eq_malformed_iff, fun part => parse_eq_empty_iff⟩, ?_, ?_⟩
  · intro id
    rw [parse_eq_ok_iff, and_iff_left rfl]
  · intro a b ha hb h
    exact eq_of_text_eq ha hb h

/-- With its separator moved to a slash of the key an instance has the same text, and is not read back. -/
theorem texts_read_back_nested :
    let id : InstanceId := ⟨"billing", "42/7"⟩
    let moved : InstanceId := ⟨"billing/42", "7"⟩
    (moved.text = id.text ∧ moved ≠ id ∧ '/' ∈ moved.process.toList) ∧
    parse "billing/42/7" = .ok id ∧ parse moved.text ≠ .ok moved ∧ parse "billing" = .error (.malformed "billing") ∧
    parse "/" = .error (.empty "process name") ∧ parse "billing/" = .error (.empty "key") ∧
    (⟨"bill" ++ "ing", "42" ++ "/7"⟩ : InstanceId) = id := by
  intro id moved
  obtain ⟨parses, written, unique⟩ := texts_read_back
  refine ⟨by decide, ((parses _).1 id).mpr (by decide), fun h => ?_, ((parses _).2.1 _).mpr (by decide), ?_, ?_, ?_⟩
  · exact ((written moved).mp h).slash (by decide)
  · exact ((parses _).2.2 _).mpr (.inl ⟨rfl, "", by decide⟩)
  · exact ((parses _).2.2 _).mpr (.inr ⟨rfl, "billing", by decide⟩)
  · exact unique _ id (by decide) (by decide) (by decide)

end Workflow.InstanceId

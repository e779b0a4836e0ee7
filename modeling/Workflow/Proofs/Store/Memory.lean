import Workflow.Store.Memory

/-!
# The entries of a store in memory

What each operation does to the entries of the streams. A name without entries and a missing name are
the same to every operation but for the table itself, so `entries` is all there is to know of a store.
-/

namespace Workflow.MemoryStore

variable {T : Type}

theorem lookup_putStream (stream other : String) (new : List T) (streams : List (String × List T)) :
    (putStream stream new streams).lookup other =
      if other = stream then some new else streams.lookup other := by
  induction streams with
  | nil =>
    unfold putStream; rw [List.lookup_cons]
    by_cases h : other = stream
    · simp [h]
    · simp [h, beq_eq_false_iff_ne.mpr h]
  | cons s rest ih =>
    unfold putStream
    by_cases hs : s.1 = stream
    · rw [if_pos hs, List.lookup_cons, List.lookup_cons, hs]
      by_cases h : other = stream
      · simp [h]
      · simp [h, beq_eq_false_iff_ne.mpr h]
    · rw [if_neg hs, List.lookup_cons, ih, List.lookup_cons]
      by_cases h : other = stream
      · subst h
        have : (other == s.1) = false := beq_eq_false_iff_ne.mpr (Ne.symm hs)
        simp [this]
      · simp [h]

theorem entries_put (store : MemoryStore T) (stream other : String) (new : List T) :
    (store.put stream new).entries other = if other = stream then new else store.entries other := by
  unfold entries find? put
  rw [lookup_putStream]
  split <;> rfl

theorem entries_of_find? {store : MemoryStore T} {stream : String} {stored : List T}
    (h : store.find? stream = some stored) : store.entries stream = stored := by
  unfold entries; rw [h]; rfl

theorem entries_of_not_find? {store : MemoryStore T} {stream : String} (h : store.find? stream = none) :
    store.entries stream = [] := by
  unfold entries; rw [h]; rfl

/-! ## Appending -/

section
variable (store : MemoryStore T) (stream : String) (new : List T) (expected : Nat)

theorem append_fst : (store.append stream new expected).1 =
    if (store.entries stream).length = expected then .ok (expected + new.length)
    else .error (.concurrency stream expected (store.entries stream).length) := by
  unfold append
  cases hf : store.find? stream with
  | none =>
    rw [entries_of_not_find? hf]
    by_cases he : expected = 0
    · subst he; cases new <;> simp
    · simp [he, Ne.symm he]
  | some stored =>
    rw [entries_of_find? hf]
    by_cases he : stored.length = expected <;> simp [he]

theorem entries_append (other : String) : (store.append stream new expected).2.entries other =
    if other = stream ∧ (store.entries stream).length = expected then store.entries stream ++ new
    else store.entries other := by
  unfold append
  cases hf : store.find? stream with
  | none =>
    have hnil := entries_of_not_find? hf
    rw [hnil]
    by_cases he : expected = 0
    · subst he
      cases new with
      | nil => by_cases h : other = stream <;> simp [h, hnil]
      | cons a rest => by_cases h : other = stream <;> simp [entries_put, h]
    · simp [he, Ne.symm he]
  | some stored =>
    rw [entries_of_find? hf]
    by_cases he : stored.length = expected
    · simp only [he, ne_eq, not_true_eq_false, ite_false, entries_put, and_true]
    · simp [he]

end

theorem append_of_length {store : MemoryStore T} {stream : String} {expected : Nat}
    (h : (store.entries stream).length = expected) (new : List T) :
    (store.append stream new expected).1 = .ok (expected + new.length) ∧
      (store.append stream new expected).2.entries stream = store.entries stream ++ new := by
  rw [append_fst, entries_append, if_pos h, if_pos ⟨rfl, h⟩]
  exact ⟨rfl, rfl⟩

theorem entries_append_of_ne {store : MemoryStore T} {stream other : String} (h : other ≠ stream)
    (new : List T) (expected : Nat) :
    (store.append stream new expected).2.entries other = store.entries other := by
  rw [entries_append, if_neg fun hc => h hc.1]

theorem entries_erase_of_ne {store : MemoryStore T} {stream other : String} (h : other ≠ stream) :
    (store.erase stream).entries other = store.entries other := by
  unfold entries find? erase
  congr 1
  induction store.streams with
  | nil => rfl
  | cons s rest ih =>
    by_cases hs : s.1 = stream
    · have : (other == s.1) = false := beq_eq_false_iff_ne.mpr (hs ▸ h)
      rw [List.filter_cons_of_neg (by simp [hs]), ih, List.lookup_cons, this]
    · rw [List.filter_cons_of_pos (by simp [hs]), List.lookup_cons, ih, List.lookup_cons]

theorem entries_erase_self (store : MemoryStore T) (stream : String) : (store.erase stream).entries stream = [] := by
  refine entries_of_not_find? (List.lookup_eq_none_iff.mpr fun s hs => ?_)
  have hne : s.1 ≠ stream := of_decide_eq_true (List.mem_filter.mp hs).2
  exact bne_iff_ne.mpr hne.symm

theorem entries_call_of_ne {q : StoreCall T} {other : String} (h : other ≠ q.stream) (store : MemoryStore T) :
    (call q store).2.entries other = store.entries other := by
  cases q with
  | append stream new expected => exact entries_append_of_ne h new expected
  | load stream after => rfl
  | contains stream => rfl
  | delete stream => exact entries_erase_of_ne h

end Workflow.MemoryStore

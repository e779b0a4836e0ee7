import Mathlib.Order.Bounds.Basic
import Workflow.Proofs.Node.Zip
import Workflow.Proofs.Process.Walk

/-!
# Parallel composition

Two branches side by side walk apart: `walk_both` compares the walk of the whole with the walks of the
branches from the same state over the same events. The branches never see the merged state, the whole
ends with both values or with the first failure, and a failed whole stays as it is.
-/

namespace Workflow.Process

variable {σ : Signature} {ε I S E R R' : Type}

theorem walk_both_eq (p : Process σ ε I S E R) (q : Process σ ε I S E R') (merge : S → S → S) (i : I)
    (s : S) (events : List E) {n : Nat}
    (h : ∀ m < n, ¬ (p.walk i s events m).Failed ∧ ¬ (q.walk i s events m).Failed) :
    (p.both q merge).walk i s events n =
      ((p.walk i s events n).zip (q.walk i s events n)).mapState fun states => merge states.1 states.2 := by
  have hz : ((p.run i s).2.zip (q.run i s).2).advanceAll (events.take n) =
      (p.walk i s events n).zip (q.walk i s events n) := by
    refine Node.advanceAll_zip _ fun m hm => ?_
    have hmn : m < n := Nat.lt_of_lt_of_le hm (List.length_take_le n events)
    rw [List.take_take, Nat.min_eq_left (Nat.le_of_lt hmn)]
    exact h m hmn
  rw [← hz, ← Node.advanceAll_mapState]
  rfl

theorem walk_both (p : Process σ ε I S E R) (q : Process σ ε I S E R') (merge : S → S → S) (i : I) (s : S)
    (events : List E) :
    let left := p.walk i s events
    let right := q.walk i s events
    let whole := (p.both q merge).walk i s events
    let broken := fun n => (left n).Failed ∨ (right n).Failed
    ((p.both q merge).run i s).1 = (p.run i s).1.andThen (q.run i s).1 ∧
    (∀ n, ¬ broken n →
      (whole n).state = merge (left n).state (right n).state ∧
      (whole n).kind = (if (left n).kind = .succeeded ∧ (right n).kind = .succeeded then .succeeded
        else .inProgress) ∧
      (∀ v v', (whole n).value? = some (v, v') ↔ (left n).value? = some v ∧ (right n).value? = some v') ∧
      ∀ e, (((whole n).offer e).isSome ↔ ((left n).offer e).isSome ∨ ((right n).offer e).isSome) ∧
        ((whole n).offer e).map Prod.fst = Option.merge Effect.andThen
          (((left n).offer e).map Prod.fst) (((right n).offer e).map Prod.fst)) ∧
    (∀ k, IsLeast {n | broken n} k → ∀ n, k ≤ n →
      (whole n).Failed ∧ (whole n).state = merge (left k).state (right k).state ∧
      (whole n).error? = (if (right k).Failed then (right k).error? else (left k).error?) ∧
      ∀ e, (whole n).offer e = none) := by
  intro left right whole broken
  have hbroken : ∀ m n, m ≤ n → broken m → broken n := by
    intro m n hmn hm
    rcases hm with hl | hr
    · exact Or.inl (failed_walk hmn hl)
    · exact Or.inr (failed_walk hmn hr)
  -- up to and including the event that breaks a branch, the whole is the zip of the branches
  have hwhole : ∀ n, (∀ m < n, ¬ broken m) →
      whole n = ((left n).zip (right n)).mapState fun states => merge states.1 states.2 :=
    fun n h => walk_both_eq p q merge i s events fun m hm => not_or.mp (h m hm)
  refine ⟨rfl, fun n hn => ?_, fun k hk n hkn => ?_⟩
  · obtain ⟨hl, hr⟩ := not_or.mp hn
    rw [hwhole n fun m hm hb => hn (hbroken m n (Nat.le_of_lt hm) hb)]
    refine ⟨by simp, ?_, fun v v' => by simp [Node.value?_zip_eq_some], fun e => ?_⟩
    · rw [Node.kind_mapState, Node.kind_zip hl hr]
    · rw [Node.offer_mapState, Node.offer_zip hl hr, Option.map_map, Option.isSome_map]
      refine ⟨?_, Node.fst_zipSteps (left n) (right n) _ _⟩
      cases (left n).offer e <;> cases (right n).offer e <;> simp [Node.zipSteps]
  · have hat : whole k = ((left k).zip (right k)).mapState fun states => merge states.1 states.2 :=
      hwhole k fun m hm hb => Nat.not_le_of_lt hm (hk.2 hb)
    have hf : (whole k).Failed := by
      rw [hat, Node.failed_mapState, Node.failed_zip]; exact hk.1
    have hstay : whole n = whole k := walk_of_failed hkn hf
    refine ⟨failed_walk hkn hf, ?_, ?_, fun e => hstay ▸ hf.offer e⟩
    · rw [hstay, hat]; simp
    · rw [hstay, hat, Node.error?_mapState, Node.error?_zip]

end Workflow.Process

import Workflow.Node.Zip
import Workflow.Proofs.Node.Map

/-!
# Walks of zipped nodes

As long as neither branch has failed, `zip` commutes with walking: the walk of two zipped nodes is
the zip of their walks (`advanceAll_zip`). Once a branch has failed, the zipped node has failed as well.
-/

namespace Workflow.Node

variable {σ : Signature} {ε S S' E R R' : Type}

/-! ## Zipped nodes, stage by stage -/

theorem stage_zip (left : Node σ ε S E R) (right : Node σ ε S' E R') :
    (left.zip right).stage = .zip left.here right.here left.stage right.stage := rfl

@[simp] theorem state_zip (left : Node σ ε S E R) (right : Node σ ε S' E R') :
    (left.zip right).state = (left.state, right.state) := by
  unfold state; rw [stage_zip]
  cases left.stage <;> cases right.stage <;> rfl

theorem failed_zip (left : Node σ ε S E R) (right : Node σ ε S' E R') :
    (left.zip right).Failed ↔ left.Failed ∨ right.Failed := by
  unfold Failed kind; rw [stage_zip]
  cases left.stage <;> cases right.stage <;> simp [Stage.zip, Stage.kind]

theorem kind_zip_eq_succeeded (left : Node σ ε S E R) (right : Node σ ε S' E R') :
    (left.zip right).kind = .succeeded ↔ left.kind = .succeeded ∧ right.kind = .succeeded := by
  unfold kind; rw [stage_zip]
  cases left.stage <;> cases right.stage <;> simp [Stage.zip, Stage.kind]

theorem value?_zip_eq_some (left : Node σ ε S E R) (right : Node σ ε S' E R') (v : R) (v' : R') :
    (left.zip right).value? = some (v, v') ↔ left.value? = some v ∧ right.value? = some v' := by
  unfold value?; rw [stage_zip]
  cases left.stage <;> cases right.stage <;> simp [Stage.zip, Stage.value?]

theorem error?_zip (left : Node σ ε S E R) (right : Node σ ε S' E R') :
    (left.zip right).error? = if right.Failed then right.error? else left.error? := by
  by_cases hr : right.Failed
  · obtain ⟨s, error, hs⟩ := hr.exists_stage
    rw [if_pos hr]; unfold error?; rw [stage_zip, hs]
    cases left.stage <;> rfl
  · rw [if_neg hr]
    unfold Failed kind at hr; unfold error?; rw [stage_zip]
    cases left.stage <;> cases hs : right.stage <;> first | rfl | exact absurd (congrArg Stage.kind hs) hr

/-! ## Zipped nodes on the same events -/

def zipSteps (left : Node σ ε S E R) (right : Node σ ε S' E R') :
    Option (Step σ ε S E R) → Option (Step σ ε S' E R') → Option (Step σ ε (S × S') E (R × R'))
  | none, none => none
  | some l, none => some (l.1, l.2.zip right)
  | none, some r => some (r.1, left.zip r.2)
  | some l, some r => some (l.1.andThen r.1, l.2.zip r.2)

theorem fst_zipSteps (left : Node σ ε S E R) (right : Node σ ε S' E R')
    (l : Option (Step σ ε S E R)) (r : Option (Step σ ε S' E R')) :
    (zipSteps left right l r).map Prod.fst = Option.merge Effect.andThen (l.map Prod.fst) (r.map Prod.fst) := by
  cases l <;> cases r <;> rfl

section
variable {left : Node σ ε S E R} {right : Node σ ε S' E R'} (hl : ¬ left.Failed) (hr : ¬ right.Failed)
include hl hr

theorem kind_zip : (left.zip right).kind =
    if left.kind = .succeeded ∧ right.kind = .succeeded then .succeeded else .inProgress := by
  have hf : ¬ (left.zip right).Failed := fun h => ((failed_zip left right).mp h).elim hl hr
  have hs := kind_zip_eq_succeeded left right
  unfold Failed at hf
  split
  · rwa [hs]
  · cases hk : (left.zip right).kind with
    | succeeded => exact absurd (hs.mp hk) ‹_›
    | failed => exact absurd hk hf
    | inProgress => rfl

theorem offer_zip (e : E) : (left.zip right).offer e = zipSteps left right (left.offer e) (right.offer e) := by
  have h : (left.zip right).stage.offer e =
      Stage.bothSteps left.here right.here (left.stage.offer e) (right.stage.offer e) := by
    unfold Failed kind at hl hr
    rw [stage_zip]
    cases hls : left.stage <;> cases hrs : right.stage <;> first | rfl | simp_all [Stage.kind]
  unfold offer; rw [h]
  cases left.stage.offer e <;> cases right.stage.offer e <;> rfl

theorem advance_zip (e : E) : (left.zip right).advance e = (left.advance e).zip (right.advance e) := by
  unfold advance; rw [offer_zip hl hr]
  cases left.offer e <;> cases right.offer e <;> rfl

end

/-- The branches walk apart for as long as neither has failed before the last event. -/
theorem advanceAll_zip (events : List E) {left : Node σ ε S E R} {right : Node σ ε S' E R'}
    (h : ∀ n < events.length, ¬ (left.advanceAll (events.take n)).Failed ∧
      ¬ (right.advanceAll (events.take n)).Failed) :
    (left.zip right).advanceAll events = (left.advanceAll events).zip (right.advanceAll events) := by
  induction events generalizing left right with
  | nil => rfl
  | cons e events ih =>
    obtain ⟨hl, hr⟩ : ¬ left.Failed ∧ ¬ right.Failed := h 0 (by simp)
    rw [advanceAll_cons, advance_zip hl hr]
    refine ih fun n hn => ?_
    exact h (n + 1) (by simpa using hn)

end Workflow.Node

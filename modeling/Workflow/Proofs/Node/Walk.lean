import Workflow.Node.Basic

/-!
# Walks

A walk offers a list of events to a node, one after another. Its accepted events and the effects of
their steps are lists in the order of the walk; a walk over the accepted events alone ends at the same
node. A node that has succeeded or failed stays as it is.
-/

namespace Workflow.Node

variable {σ : Signature} {ε S S' E R R' : Type}

/-! ## One event -/

theorem advance_of_offer {n : Node σ ε S E R} {e : E} {step : Step σ ε S E R} (h : n.offer e = some step) :
    n.advance e = step.2 := by
  unfold advance; rw [h]

theorem advance_of_ignored {n : Node σ ε S E R} {e : E} (h : n.offer e = none) : n.advance e = n := by
  unfold advance; rw [h]

/-! ## A list of events -/

@[simp] theorem advanceAll_nil (n : Node σ ε S E R) : n.advanceAll [] = n := rfl

@[simp] theorem advanceAll_cons (n : Node σ ε S E R) (e : E) (events : List E) :
    n.advanceAll (e :: events) = (n.advance e).advanceAll events := rfl

theorem advanceAll_append (n : Node σ ε S E R) (events more : List E) :
    n.advanceAll (events ++ more) = (n.advanceAll events).advanceAll more :=
  List.foldl_append ..

def accepted (n : Node σ ε S E R) : List E → List E
  | [] => []
  | e :: events =>
    match n.offer e with
    | some step => e :: accepted step.2 events
    | none => accepted n events

def effects (n : Node σ ε S E R) : List E → List (Effect σ ε Unit)
  | [] => []
  | e :: events =>
    match n.offer e with
    | some step => step.1 :: effects step.2 events
    | none => effects n events

theorem accepted_cons (n : Node σ ε S E R) (e : E) (events : List E) :
    n.accepted (e :: events) = n.accepted [e] ++ (n.advance e).accepted events := by
  unfold advance
  rw [accepted, accepted]
  cases n.offer e <;> rfl

theorem effects_cons (n : Node σ ε S E R) (e : E) (events : List E) :
    n.effects (e :: events) = n.effects [e] ++ (n.advance e).effects events := by
  unfold advance
  rw [effects, effects]
  cases n.offer e <;> rfl

theorem advanceAll_accepted (n : Node σ ε S E R) (events : List E) :
    n.advanceAll (n.accepted events) = n.advanceAll events := by
  induction events generalizing n with
  | nil => rfl
  | cons e events ih =>
    rw [accepted, advanceAll_cons]
    cases ho : n.offer e with
    | none => rw [advance_of_ignored ho]; exact ih n
    | some step => rw [advance_of_offer ho, ← ih step.2, advanceAll_cons, advance_of_offer ho]

/-! ## Nodes at their end -/

theorem value?_of_kind {n : Node σ ε S E R} (h : n.kind ≠ .succeeded) : n.value? = none := by
  unfold kind at h
  unfold value?
  cases hs : n.stage with
  | succeeded s v => rw [hs] at h; exact absurd rfl h
  | _ => rfl

theorem offer_of_terminal {n : Node σ ε S E R} (h : n.isTerminal) (e : E) : n.offer e = none := by
  unfold isTerminal kind at h
  unfold offer
  cases hs : n.stage with
  | inProgress s next => rw [hs] at h; cases h
  | _ => rfl

theorem advanceAll_of_terminal {n : Node σ ε S E R} (h : n.isTerminal) (events : List E) :
    n.advanceAll events = n := by
  induction events with
  | nil => rfl
  | cons e events ih => rw [advanceAll_cons, advance_of_ignored (offer_of_terminal h e), ih]

def Failed (n : Node σ ε S E R) : Prop := n.kind = .failed

instance (n : Node σ ε S E R) : Decidable n.Failed := inferInstanceAs (Decidable (n.kind = .failed))

theorem Failed.exists_stage {n : Node σ ε S E R} (h : n.Failed) : ∃ s error, n.stage = .failed s error := by
  unfold Failed kind at h
  cases hs : n.stage with
  | failed s error => exact ⟨s, error, rfl⟩
  | succeeded s v => rw [hs] at h; cases h
  | inProgress s next => rw [hs] at h; cases h

theorem Failed.isTerminal {n : Node σ ε S E R} (h : n.Failed) : n.isTerminal := by
  have hk : n.kind = .failed := h
  unfold Node.isTerminal
  rw [hk]
  rfl

theorem Failed.offer {n : Node σ ε S E R} (h : n.Failed) (e : E) : n.offer e = none :=
  offer_of_terminal h.isTerminal e

end Workflow.Node

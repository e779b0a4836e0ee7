import Workflow.Proofs.History

/-!
# Other effects for the same workflow

A process with other effects in the places of its own goes through the same stages along the same events.
-/

namespace Workflow

variable {σ ρ : Signature} {ε I S E R P : Type} (g : Effect σ ε Unit → Effect ρ ε Unit)

def Stage.relabel : Stage σ ε S E R P → Stage ρ ε S E R P
  | succeeded s v => succeeded s v
  | failed s error => failed s error
  | inProgress s next => inProgress s fun e => (next e).map fun step => (g step.1, step.2)

namespace Stage

theorem relabel_relabel {τ : Signature} {P : Type} (h : Effect ρ ε Unit → Effect τ ε Unit)
    (stage : Stage σ ε S E R P) : (stage.relabel g).relabel h = stage.relabel fun e => h (g e) := by
  cases stage with
  | inProgress s next => exact congrArg (inProgress s) (funext fun e => Option.map_map _ _ (next e))
  | _ => rfl

theorem relabel_id {P : Type} (stage : Stage σ ε S E R P) : (stage.relabel fun e => e) = stage := by
  cases stage with
  | inProgress s next => exact congrArg (inProgress s) (funext fun e => Option.map_id')
  | _ => rfl

end Stage

namespace Node

def relabel (n : Node σ ε S E R) : Node ρ ε S E R where
  Place := n.Place
  here := n.here
  look p := (n.look p).relabel g

theorem relabel_relabel {τ : Signature} (h : Effect ρ ε Unit → Effect τ ε Unit) (n : Node σ ε S E R) :
    (n.relabel g).relabel h = n.relabel fun e => h (g e) := by
  unfold relabel
  simp only [Stage.relabel_relabel]

theorem relabel_id (n : Node σ ε S E R) : (n.relabel fun e => e) = n := by
  unfold relabel
  simp only [Stage.relabel_id]

theorem offer_relabel (n : Node σ ε S E R) (e : E) :
    (n.relabel g).offer e = (n.offer e).map fun step => (g step.1, step.2.relabel g) := by
  show ((n.stage.relabel g).offer e).map _ = ((n.stage.offer e).map _).map _
  cases n.stage with
  | inProgress s next =>
    show ((next e).map _).map _ = ((next e).map _).map _
    cases next e <;> rfl
  | _ => rfl

theorem advance_relabel (n : Node σ ε S E R) (e : E) : (n.relabel g).advance e = (n.advance e).relabel g := by
  have hoffer := n.offer_relabel g e
  cases ho : n.offer e with
  | none =>
    rw [ho] at hoffer
    rw [advance_of_ignored ho, advance_of_ignored hoffer]
  | some step =>
    rw [ho] at hoffer
    rw [advance_of_offer ho, advance_of_offer hoffer]

theorem replay_relabel (version : Nat) (n : Node σ ε S E R) (entries : List (Entry E)) :
    (n.relabel g).replay version entries = (n.replay version entries).map (relabel g) := by
  induction entries generalizing version n with
  | nil => rfl
  | cons entry entries ih =>
    cases entry with
    | started => rfl
    | received e =>
      show ((n.relabel g).advance e).replay (version + 1) entries = _
      rw [advance_relabel]
      exact ih (version + 1) (n.advance e)

end Node

namespace Process

def relabel (p : Process σ ε I S E R) : Process ρ ε I S E R :=
  ⟨fun i s => (g (p.run i s).1, (p.run i s).2.relabel g)⟩

theorem relabel_relabel {τ : Signature} (h : Effect ρ ε Unit → Effect τ ε Unit) (p : Process σ ε I S E R) :
    (p.relabel g).relabel h = p.relabel fun e => h (g e) := by
  unfold relabel
  simp only [Node.relabel_relabel]

theorem relabel_id (p : Process σ ε I S E R) : (p.relabel fun e => e) = p := by
  unfold relabel
  simp only [Node.relabel_id]

theorem replay_relabel [Inhabited S] (p : Process σ ε I S E R) (i : I) (entries : List (Entry E)) :
    (p.relabel g).replay i entries = (p.replay i entries).map (Node.relabel g) := by
  cases entries with
  | nil => rfl
  | cons first rest =>
    cases first with
    | started => exact Node.replay_relabel g 2 (p.initial i) rest
    | received e => rfl

theorem Transition.of_relabel [Inhabited S] {p : Process σ ε I S E R} {i : I} {entries : List (Entry E)} {event : E}
    {taken : Effect ρ ε Unit} (h : (p.relabel g).Transition i entries event taken) :
    ∃ fx, taken = g fx ∧ p.Transition i entries event fx := by
  obtain ⟨node, next, hr, ho⟩ := h
  rw [p.replay_relabel] at hr
  cases hp : p.replay i entries with
  | error flaw => rw [hp] at hr; cases hr
  | ok original =>
    rw [hp] at hr
    cases hr
    rw [original.offer_relabel] at ho
    obtain ⟨step, hstep, hsame⟩ := Option.map_eq_some_iff.mp ho
    cases hsame
    exact ⟨step.1, rfl, original, step.2, hp, hstep⟩

end Process

end Workflow

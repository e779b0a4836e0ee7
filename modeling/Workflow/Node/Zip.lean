import Workflow.Node.Basic

/-!
# Two nodes side by side

`zip` runs two branches on the same events and pairs their states and values. It fails as soon
as one branch has failed, with the error of the right branch if both have; it succeeds once both
have; until then it is in progress, and an event is ignored only if both branches ignore it. The
effect of a step that both branches take is the left effect, then the right one.
-/

namespace Workflow

variable {σ : Signature} {ε S S' E R R' P P' : Type}

/-- The places after an event has been offered to both branches: a branch that ignores the event
stays where it is. -/
def Stage.bothSteps (p : P) (p' : P') :
    Option (Effect σ ε Unit × P) → Option (Effect σ ε Unit × P') →
      Option (Effect σ ε Unit × (P × P'))
  | none, none => none
  | some (fx, q), none => some (fx, (q, p'))
  | none, some (fx', q') => some (fx', (p, q'))
  | some (fx, q), some (fx', q') => some (fx.andThen fx', (q, q'))

def Stage.zip (p : P) (p' : P') :
    Stage σ ε S E R P → Stage σ ε S' E R' P' → Stage σ ε (S × S') E (R × R') (P × P')
  | .failed s _, .failed s' error => .failed (s, s') error
  | .failed s error, right => .failed (s, right.state) error
  | left, .failed s' error => .failed (left.state, s') error
  | .succeeded s v, .succeeded s' v' => .succeeded (s, s') (v, v')
  | left, right => .inProgress (left.state, right.state) fun e =>
      bothSteps p p' (left.offer e) (right.offer e)

def Node.zip (left : Node σ ε S E R) (right : Node σ ε S' E R') :
    Node σ ε (S × S') E (R × R') where
  Place := left.Place × right.Place
  here := (left.here, right.here)
  look p := .zip p.1 p.2 (left.look p.1) (right.look p.2)

end Workflow

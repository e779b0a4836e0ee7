import Workflow.Node.Basic

/-!
# One node after another

`Step.followedBy` hands a workflow over to a continuation at the moment it succeeds. The event
that completes the first workflow is not offered to the continuation, and the effect of that step
is followed by the continuation's first effect. A failure of the first workflow stays.

`Step.repeated` hands a workflow over to itself, for ever.
-/

namespace Workflow

variable {σ : Signature} {ε S E R R' : Type}

namespace Node.Follow

/-- A place of the first node, or a place of the continuation that was begun with this state and
value. -/
inductive Place (n : Node σ ε S E R) (next : S → R → Step σ ε S E R') where
  | first (p : n.Place)
  | second (state : S) (value : R) (p : (next state value).2.Place)

variable (n : Node σ ε S E R) (next : S → R → Step σ ε S E R')

/-- Arrives at a place of the first node with an effect. If the first node has succeeded there,
the continuation begins at once. -/
def arrive (fx : Effect σ ε Unit) (p : n.Place) : Effect σ ε Unit × Place n next :=
  match n.look p with
  | .succeeded s v => (fx.andThen (next s v).1, .second s v (next s v).2.here)
  | _ => (fx, .first p)

def lookSecond (s : S) (v : R) (p : (next s v).2.Place) :
    Stage σ ε S E R' (Place n next) :=
  ((next s v).2.look p).move (.second s v)

def look : Place n next → Stage σ ε S E R' (Place n next)
  | .first p =>
    match n.look p with
    | .succeeded s v => lookSecond n next s v (next s v).2.here
    | .failed s error => .failed s error
    | .inProgress s advance =>
      .inProgress s fun e => (advance e).map fun step => arrive n next step.1 step.2
  | .second s v p => lookSecond n next s v p

end Node.Follow

def Step.followedBy (step : Step σ ε S E R) (next : S → R → Step σ ε S E R') :
    Step σ ε S E R' :=
  let entry := Node.Follow.arrive step.2 next step.1 step.2.here
  (entry.1, ⟨Node.Follow.Place step.2 next, entry.2, Node.Follow.look step.2 next⟩)

namespace Node.Repeat

structure Place (round : S → Step σ ε S E R) where
  start : S
  place : (round start).2.Place

variable (round : S → Step σ ε S E R)

def arrive (fx : Effect σ ε Unit) (start : S) (p : (round start).2.Place) :
    Effect σ ε Unit × Place round :=
  match (round start).2.look p with
  | .succeeded s _ => (fx.andThen (round s).1, ⟨s, (round s).2.here⟩)
  | _ => (fx, ⟨start, p⟩)

/-- A round that succeeds without waiting for an event leaves nothing to wait for: the workflow
then rests and ignores every event. -/
def look (p : Place round) : Stage σ ε S E R' (Place round) :=
  match (round p.start).2.look p.place with
  | .succeeded s _ => .inProgress s fun _ => none
  | .failed s error => .failed s error
  | .inProgress s advance =>
    .inProgress s fun e => (advance e).map fun step => arrive round step.1 p.start step.2

end Node.Repeat

/-- The step that begins a never-ending repetition of `round`, each round from the state the one
before it left. -/
def Step.repeated (round : S → Step σ ε S E R) (state : S) : Step σ ε S E R' :=
  ((round state).1,
    ⟨Node.Repeat.Place round, ⟨state, (round state).2.here⟩, Node.Repeat.look round⟩)

end Workflow

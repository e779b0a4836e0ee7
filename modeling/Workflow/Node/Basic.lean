import Workflow.Effect.Basic
import Workflow.Verdict

/-!
# Nodes

A node is where a workflow stands: finished with a value, failed with an error, or in progress
and waiting for an event. It always carries the domain state. An accepted event gives a step: an
effect to run and the node the workflow lands on.

A workflow may go on for ever, so a node is a machine: a type of places, the place where the
workflow stands, and the stage to be seen at each place. Two nodes are the same workflow if
offering them the same events shows the same stages; their places do not count.
-/

namespace Workflow

/-- What is to be seen at a place. In progress, each event is either ignored or leads on to a
place, with an effect. -/
inductive Stage (σ : Signature) (ε S E R P : Type) where
  | succeeded (state : S) (value : R)
  | failed (state : S) (error : String)
  | inProgress (state : S) (next : E → Option (Effect σ ε Unit × P))

inductive Kind where
  | succeeded
  | failed
  | inProgress
  deriving DecidableEq, Repr, Inhabited

def Kind.name : Kind → String
  | succeeded => "Succeeded"
  | failed => "Failed"
  | inProgress => "InProgress"

namespace Stage

variable {σ : Signature} {ε S S' E R R' P Q : Type}

def kind : Stage σ ε S E R P → Kind
  | succeeded .. => .succeeded
  | failed .. => .failed
  | inProgress .. => .inProgress

def state : Stage σ ε S E R P → S
  | succeeded s _ => s
  | failed s _ => s
  | inProgress s _ => s

def value? : Stage σ ε S E R P → Option R
  | succeeded _ v => some v
  | _ => none

def error? : Stage σ ε S E R P → Option String
  | failed _ e => some e
  | _ => none

def offer : Stage σ ε S E R P → E → Option (Effect σ ε Unit × P)
  | inProgress _ next, e => next e
  | _, _ => none

def map (f : R → R') : Stage σ ε S E R P → Stage σ ε S E R' P
  | succeeded s v => succeeded s (f v)
  | failed s e => failed s e
  | inProgress s next => inProgress s next

def mapState (g : S → S') : Stage σ ε S E R P → Stage σ ε S' E R P
  | succeeded s v => succeeded (g s) v
  | failed s e => failed (g s) e
  | inProgress s next => inProgress (g s) next

def move (h : P → Q) : Stage σ ε S E R P → Stage σ ε S E R Q
  | succeeded s v => succeeded s v
  | failed s e => failed s e
  | inProgress s next => inProgress s fun e => (next e).map fun step => (step.1, h step.2)

end Stage

structure Node (σ : Signature) (ε S E R : Type) where
  Place : Type
  here : Place
  look : Place → Stage σ ε S E R Place

abbrev Step (σ : Signature) (ε S E R : Type) :=
  Effect σ ε Unit × Node σ ε S E R

namespace Node

variable {σ : Signature} {ε S S' E R R' : Type}

/-! ## Looking at a node -/

def stage (n : Node σ ε S E R) : Stage σ ε S E R n.Place :=
  n.look n.here

def kind (n : Node σ ε S E R) : Kind := n.stage.kind

def isTerminal (n : Node σ ε S E R) : Bool := n.kind != .inProgress

def state (n : Node σ ε S E R) : S := n.stage.state

def value? (n : Node σ ε S E R) : Option R := n.stage.value?

def error? (n : Node σ ε S E R) : Option String := n.stage.error?

def moveTo (n : Node σ ε S E R) (p : n.Place) : Node σ ε S E R :=
  { n with here := p }

/-- Offers an event: a step if the node accepts it, nothing if the node ignores it. -/
def offer (n : Node σ ε S E R) (e : E) : Option (Step σ ε S E R) :=
  (n.stage.offer e).map fun step => (step.1, n.moveTo step.2)

def advance (n : Node σ ε S E R) (e : E) : Node σ ε S E R :=
  match n.offer e with
  | some step => step.2
  | none => n

def advanceAll (n : Node σ ε S E R) (events : List E) : Node σ ε S E R :=
  events.foldl advance n

/-! ## Single nodes -/

def succeeded (state : S) (value : R) : Node σ ε S E R where
  Place := Unit
  here := ()
  look _ := .succeeded state value

def failed (state : S) (error : String) : Node σ ε S E R where
  Place := Unit
  here := ()
  look _ := .failed state error

/-- A node that waits for one event, which decides between success and failure. The state stays
as it is. -/
def waiting (state : S) (interpret : E → Option (Verdict R)) : Node σ ε S E R where
  Place := Option (Verdict R)
  here := none
  look
    | none => .inProgress state fun e => (interpret e).map fun verdict => (.unit, some verdict)
    | some (.success value) => .succeeded state value
    | some (.failure message) => .failed state message

def target (state : S) (next : E → Option (Step σ ε S E R)) (e : E) : Node σ ε S E R :=
  match next e with
  | some step => step.2
  | none => waiting state fun _ => none

def inProgress (state : S) (next : E → Option (Step σ ε S E R)) : Node σ ε S E R where
  Place := Option (Σ e : E, (target state next e).Place)
  here := none
  look
    | none => .inProgress state fun e =>
      (next e).map fun step => (step.1, some ⟨e, (target state next e).here⟩)
    | some ⟨e, p⟩ => ((target state next e).look p).move fun q => some ⟨e, q⟩

/-! ## Mapping -/

def map (f : R → R') (n : Node σ ε S E R) : Node σ ε S E R' where
  Place := n.Place
  here := n.here
  look p := (n.look p).map f

def mapState (g : S → S') (n : Node σ ε S E R) : Node σ ε S' E R where
  Place := n.Place
  here := n.here
  look p := (n.look p).mapState g

end Node

end Workflow

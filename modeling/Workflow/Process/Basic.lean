import Workflow.Node.Follow
import Workflow.Node.Zip

/-!
# Processes

A process describes a workflow: for an instance and a domain state it gives the first step. It is
a pure function, so a workflow can be rebuilt from scratch at any time; the effects it gives are
run by somebody else, or not at all.
-/

namespace Workflow

/-- A workflow for instances `I` with domain state `S`, moved on by events `E` and ending with an
`R`. -/
structure Process (σ : Signature) (ε I S E R : Type) where
  run : I → S → Step σ ε S E R

namespace Process

variable {σ : Signature} {ε I S E R R' : Type}

/-! ## Single steps -/

def pure (value : R) : Process σ ε I S E R :=
  ⟨fun _ s => (.unit, .succeeded s value)⟩

def failed (error : String) : Process σ ε I S E R :=
  ⟨fun _ s => (.unit, .failed s error)⟩

def done : Process σ ε I S E Unit :=
  pure ()

/-- Waits for an event. `interpret` ignores events that are not for this step, and decides
between success and failure on the others. -/
def await (interpret : E → Option (Verdict R)) : Process σ ε I S E R :=
  ⟨fun _ s => (.unit, .waiting s interpret)⟩

def perform (fx : Effect σ ε Unit) : Process σ ε I S E Unit :=
  ⟨fun _ s => (fx, .succeeded s ())⟩

def modify (f : S → S) : Process σ ε I S E Unit :=
  ⟨fun _ s => (.unit, .succeeded (f s) ())⟩

def inspect (f : S → R) : Process σ ε I S E R :=
  ⟨fun _ s => (.unit, .succeeded s (f s))⟩

/-! ## Composition -/

def bind (p : Process σ ε I S E R) (f : R → Process σ ε I S E R') : Process σ ε I S E R' :=
  ⟨fun i s => (p.run i s).followedBy fun s' v => (f v).run i s'⟩

def map (f : R → R') (p : Process σ ε I S E R) : Process σ ε I S E R' :=
  ⟨fun i s => ((p.run i s).1, (p.run i s).2.map f)⟩

/-- Picks a branch each time the process is run. -/
def branch (condition : Unit → Bool) (yes no : Process σ ε I S E R) : Process σ ε I S E R :=
  ⟨fun i s => if condition () then yes.run i s else no.run i s⟩

def withInstance (f : I → Process σ ε I S E R) : Process σ ε I S E R :=
  ⟨fun i s => (f i).run i s⟩

/-- Runs two branches side by side from the same state. `merge` makes the state of the whole from
the states of the branches. -/
def both (left : Process σ ε I S E R) (right : Process σ ε I S E R') (merge : S → S → S) :
    Process σ ε I S E (R × R') :=
  ⟨fun i s =>
    let l := left.run i s
    let r := right.run i s
    (l.1.andThen r.1, (l.2.zip r.2).mapState fun states => merge states.1 states.2)⟩

def forever (body : Process σ ε I S E R) : Process σ ε I S E R' :=
  ⟨fun i s => Step.repeated (body.run i) s⟩

end Process

end Workflow

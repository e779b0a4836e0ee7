import Workflow.Entry
import Workflow.Failure
import Workflow.Process.Basic

/-!
# Histories

A well-formed history is the sentinel and then events. Replaying offers the events in order to
the node the process starts in; the effects of the steps are dropped, and an event that is not
accepted is skipped.
-/

namespace Workflow

variable {σ : Signature} {ε I S E R : Type}

/-- Replays the entries after the sentinel, the next of which has this version. -/
def Node.replay (version : Nat) (n : Node σ ε S E R) :
    List (Entry E) → Except HistoryFlaw (Node σ ε S E R)
  | [] => .ok n
  | .started :: _ => .error (.restarted version)
  | .received e :: rest => replay (version + 1) (n.advance e) rest

def Process.initial [Inhabited S] (p : Process σ ε I S E R) (i : I) : Node σ ε S E R :=
  (p.run i default).2

def Process.replay [Inhabited S] (p : Process σ ε I S E R) (i : I) :
    List (Entry E) → Except HistoryFlaw (Node σ ε S E R)
  | [] => .error .empty
  | .started :: rest => (p.initial i).replay 2 rest
  | first :: _ => .error (.unstarted first.type)

end Workflow

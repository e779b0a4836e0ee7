import Workflow.Mediator
import Workflow.Script.Process
import Workflow.Text.Quoted

/-!
# Inspection

What is to be seen of nodes, mediators, effects and processes, and their text for people who look
into a program.
-/

namespace Workflow.Scenario

open Script

structure NodeReport where
  kind : Kind
  terminal : Bool
  state : Data
  value : Option Data
  error : Option String
  deriving Inhabited

namespace NodeReport

def of (n : ScriptNode) : NodeReport :=
  ⟨n.kind, n.isTerminal, n.state, n.value?, n.error?⟩

def inspection (r : NodeReport) : String :=
  let number (d : Data) := (Data.int d.toInt).compact
  let body :=
    match r.kind with
    | .succeeded => "state: " ++ number r.state ++ ", value: " ++ number (r.value.getD .null)
    | .failed => "state: " ++ number r.state ++ ", error: " ++ Text.quoted (r.error.getD "")
    | .inProgress => "state: " ++ number r.state ++ ", .."
  r.kind.name ++ " \x7b " ++ body ++ " \x7d"

end NodeReport

def inspectMediator {H : Type} (m : Mediator H) : String :=
  "Mediator \x7b handlers: " ++ Text.quotedList m.keys ++ " \x7d"

def effectInspection : String := "Effect(<deferred>)"

def processInspection : String := "Process(<fn>)"

def nextInspection : String := "Next(<fn>)"

end Workflow.Scenario

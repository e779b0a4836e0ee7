/-!
# Verdicts

The verdict of a step on an event that is for it: a value that completes the step, or a message
that fails the workflow.
-/

namespace Workflow

inductive Verdict (R : Type) where
  | success (value : R)
  | failure (message : String)
  deriving DecidableEq, Repr, Inhabited

namespace Verdict

variable {R T : Type}

def fold (onSuccess : R → T) (onFailure : String → T) : Verdict R → T
  | success value => onSuccess value
  | failure message => onFailure message

def ofOption (value : Option R) (message : String) : Verdict R :=
  match value with
  | some value => success value
  | none => failure message

end Verdict

end Workflow

import Workflow.Failure

/-!
# Store calls

The four operations of an event store. A stream is a list of entries under a name; its version is
the number of its entries, 0 for a stream that was never written to.
-/

namespace Workflow

inductive StoreCall (T : Type) where
  | append (stream : String) (entries : List T) (expected : Nat)
  | load (stream : String) (after : Option Nat)
  | contains (stream : String)
  | delete (stream : String)
  deriving DecidableEq, Repr

namespace StoreCall

variable {T : Type}

abbrev Answer : StoreCall T → Type
  | append .. => Nat
  | load .. => List T
  | contains _ => Bool
  | delete _ => Unit

abbrev Reply (call : StoreCall T) : Type :=
  Except StoreError call.Answer

def stream : StoreCall T → String
  | append s _ _ => s
  | load s _ => s
  | contains s => s
  | delete s => s

end StoreCall

end Workflow

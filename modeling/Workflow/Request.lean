import Workflow.Effect.Basic
import Workflow.Entry
import Workflow.Mediator
import Workflow.Store.Call

/-!
# What workflows ask of their host

The effects of a workflow ask for acts of the world outside, for store calls and for the mediator
that follow-up events are routed by. The acts are left open: `Ω` is their signature. `H` names
the mediator's handlers and `E` is the type of the events in streams.
-/

namespace Workflow

inductive Request (Ω : Signature) (H E : Type) where
  | act (op : Ω.Op)
  | store (call : StoreCall (Entry E))
  | mediator
  /-- A handler was called deeper inside other handlers than the host allows. There is no
  answer, and the run ends here. -/
  | nestedTooDeep

abbrev requests (Ω : Signature) (H E : Type) : Signature where
  Op := Request Ω H E
  Answer
    | .act op => Ω.Answer op
    | .store call => call.Reply
    | .mediator => Mediator H
    | .nestedTooDeep => Empty

universe u

abbrev Task (Ω : Signature) (H E : Type) (α : Type u) : Type u :=
  Effect (requests Ω H E) Failure α

namespace Task

variable {Ω : Signature} {H E : Type}

def act (op : Ω.Op) : Task Ω H E (Ω.Answer op) :=
  .call (.act op) .pure

def store (call : StoreCall (Entry E)) : Task Ω H E call.Answer :=
  .call (.store call) fun reply => .ofExcept (reply.mapError .store)

def mediator : Task Ω H E (Mediator H) :=
  .call .mediator .pure

def nestedTooDeep {α : Type u} : Task Ω H E α :=
  .call .nestedTooDeep fun x => nomatch (show Empty from x)

end Task

/-- What the handlers of a mediator do: the effect of a handler that the mediator calls with a
follow-up event. -/
abbrev Service (Ω : Signature) (H I E : Type) :=
  Mediator H → H → FollowUp I E → Task Ω H E Unit

/-- Calls of the handlers of a mediator. The call may ask for things itself, and yields the effect
to be run. -/
abbrev Calling (Ω : Signature) (H I E : Type) :=
  Mediator H → H → FollowUp I E → Task Ω H E (Task Ω H E Unit)

/-- Calls the handler that a follow-up event has at that moment. An event without one is dropped:
nothing is to be run for it. -/
def Calling.send {Ω : Signature} {H I E : Type} [Instance I] (call : Calling Ω H I E)
    (f : FollowUp I E) : Task Ω H E (Task Ω H E Unit) :=
  Task.mediator.bind fun m => m.route (call m) (.pure .unit) f

namespace Service

variable {Ω : Signature} {H I E : Type}

def send [Instance I] (serve : Service Ω H I E) (m : Mediator H) (f : FollowUp I E) :
    Task Ω H E Unit :=
  m.route (serve m) .unit f

def calling (serve : Service Ω H I E) : Calling Ω H I E :=
  fun m handler f => .pure (serve m handler f)

/-- Ties handlers whose effects send follow-up events themselves to a service: `meaning` says
what a handler does, given the service that its own follow-up events go to. Handlers may be
nested in one another `depth` times. -/
def tie (meaning : Service Ω H I E → Service Ω H I E) : Nat → Service Ω H I E
  | 0 => fun _ _ _ => Task.nestedTooDeep
  | depth + 1 => fun m h f => meaning (tie meaning depth) m h f

end Service

end Workflow

import Workflow.Process.Basic
import Workflow.Request

/-!
# Follow-up events

A process may run an effect that yields events for its own instance. For each of them in order the
handler is called that is registered at that moment. When all have been called the effects that
they yield are run, one after another.
-/

namespace Workflow.Process

variable {Ω : Signature} {H I S E R : Type} [Instance I]

def sendWith (call : Calling Ω H I E) (target : I) (events : List E) : Task Ω H E Unit :=
  (Effect.traverse (fun event => call.send ⟨target, event⟩) events).bind fun deliveries =>
    (Effect.sequence deliveries).discard

def sendAll (serve : Service Ω H I E) (target : I) (events : List E) : Task Ω H E Unit :=
  sendWith serve.calling target events

def enqueueWith (call : Calling Ω H I E) (events : Task Ω H E (List E)) :
    Process (requests Ω H E) Failure I S E Unit :=
  ⟨fun i s => (events.bind (sendWith call i), .succeeded s ())⟩

def enqueue (serve : Service Ω H I E) (events : Task Ω H E (List E)) :
    Process (requests Ω H E) Failure I S E Unit :=
  enqueueWith serve.calling events

/-- Runs an effect, sends the events it yields to the instance itself and waits for an event. -/
def callOut (serve : Service Ω H I E) (events : Task Ω H E (List E))
    (interpret : E → Option (Verdict R)) : Process (requests Ω H E) Failure I S E R :=
  (enqueue serve events).bind fun _ => await interpret

end Workflow.Process

import Workflow.Effect.Run
import Workflow.Request

/-!
# Hosts of workflows

A host answers what the effects of workflows ask for. It is put together from its parts, all on
one state: the world outside, a store, a mediator and a clock.
-/

namespace Workflow

structure HostParts (Ω : Signature) (H E W : Type) where
  act : Answers Ω W
  store : (call : StoreCall (Entry E)) → W → call.Reply × W
  mediator : W → Mediator H
  wait : Duration → W → W

namespace HostParts

variable {Ω : Signature} {H E W : Type}

/-- What the parts answer. They refuse only where the world outside does, or where handlers are
nested too deep. -/
def answer (parts : HostParts Ω H E W) : Answers (requests Ω H E) W
  | .act op, w => parts.act op w
  | .store call, w => some (parts.store call w)
  | .mediator, w => some (parts.mediator w, w)
  | .nestedTooDeep, _ => none

def host (parts : HostParts Ω H E W) : Host (requests Ω H E) W :=
  ⟨parts.answer, parts.wait⟩

end HostParts

end Workflow

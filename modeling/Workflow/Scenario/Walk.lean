import Workflow.History
import Workflow.Scenario.Inspection
import Workflow.Scenario.World

/-!
# Walking through nodes

Offering events to nodes by hand. Every node reached is kept, and an event may be offered to any
of them.
-/

namespace Workflow.Scenario

open Script

/-- An event, and the place in the list of the node it is offered to: the last one if none is
given. -/
structure Offer where
  event : Data
  node : Option Nat

structure Reaction where
  node : NodeReport
  effect : Option (Report Data)

/-- What came of a walk: the first node, the journal before any effect, what the first effect
did, what came of each offer, the domain state of the last node reached and what is left in the
journal. -/
structure WalkReport where
  initial : NodeReport
  before : List Data
  effect : Option (Report Data)
  steps : List (Option Reaction)
  finalState : Data
  journal : List Data

def runIf (effects : Bool) (fx : Task acts Handler Data Unit) (w : World) :
    Option (Report Data) × World :=
  if effects then
    let (report, w) := w.execute (fx.map fun _ => Data.null)
    (some report, w)
  else (none, w)

def walk (effects : Bool) : List Offer → ScriptNode → List ScriptNode → World →
    List (Option Reaction) × ScriptNode × World
  | [], last, _, w => ([], last, w)
  | offer :: rest, last, earlier, w =>
    let nodes := last :: earlier
    let chosen :=
      match offer.node with
      | some i => (nodes.reverse[i]?).getD last
      | none => last
    match chosen.offer offer.event with
    | none =>
      let (reactions, final, w) := walk effects rest last earlier w
      (none :: reactions, final, w)
    | some (fx, node) =>
      let (report, w) := runIf effects fx w
      let (reactions, final, w) := walk effects rest node nodes w
      (some ⟨.of node, report⟩ :: reactions, final, w)

def walkFrom (effects : Bool) (first : Option (Task acts Handler Data Unit)) (node : ScriptNode)
    (offers : List Offer) (w : World) : WalkReport :=
  let (before, w) := w.readJournal
  let (effect, w) :=
    match first with
    | some fx => runIf effects fx w
    | none => (none, w)
  let (steps, final, w) := walk effects offers node [] w
  let (journal, _) := w.readJournal
  ⟨.of node, before, effect, steps, final.state, journal⟩

def scriptMediator (handlers : List (String × EffectScript)) : Mediator Handler :=
  handlers.foldl (fun m h => m.onFollowUp h.1 (.script h.2)) .empty

def walkProcess (script : ProcessScript) (state : Data) (instanceId : InstanceId)
    (handlers : List (String × EffectScript)) (effects : Bool) (offers : List Offer) :
    WalkReport :=
  let m := scriptMediator handlers
  let process := script.build scriptService ⟨m, m⟩ []
  let step := process.run instanceId state
  walkFrom effects (some step.1) step.2 offers { World.empty with mediator := m }

def walkNode (script : NodeScript) (effects : Bool) (offers : List Offer) : WalkReport :=
  walkFrom effects none (script.build scriptService .empty []) offers .empty

def replayHistory (script : ProcessScript) (instanceId : InstanceId)
    (history : List (Entry Data)) : Except DeliveryError NodeReport :=
  let process := script.build scriptService ⟨.empty, .empty⟩ []
  match process.replay instanceId history with
  | .ok node => .ok (.of node)
  | .error flaw => .error (.invalidHistory flaw)

end Workflow.Scenario

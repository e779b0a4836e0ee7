import Workflow.Scenario.Inspection
import Workflow.Scenario.World

/-!
# Routing scenarios

Registering handlers with a mediator and sending follow-up events through it, step by step.
-/

namespace Workflow.Scenario

open Script

inductive RoutingStep where
  | register (key : String) (handler : EffectScript)
  | onFollowUp (process : String) (handler : EffectScript)
  | has (key : String)
  | inspect
  | send (target : InstanceId) (event : Data)
  | hold (name : String) (target : InstanceId) (event : Data)
  | run (name : String)

inductive RoutingReport where
  | nothing
  | known (answer : Bool)
  | shown (text : String)
  | held (journal : List Data)
  | ran (report : Report Data)

def sendNow (w : World) (target : InstanceId) (event : Data) : ScriptTask :=
  (scriptService.send w.mediator ⟨target, event⟩).map fun _ => .null

def routingStep (held : List (String × ScriptTask)) (w : World) :
    RoutingStep → RoutingReport × List (String × ScriptTask) × World
  | .register key handler =>
    (.nothing, held, { w with mediator := w.mediator.register key (.script handler) })
  | .onFollowUp process handler =>
    (.nothing, held, { w with mediator := w.mediator.onFollowUp process (.script handler) })
  | .has key => (.known (w.mediator.handler? key).isSome, held, w)
  | .inspect => (.shown (inspectMediator w.mediator), held, w)
  | .send target event =>
    let (report, w) := w.execute (sendNow w target event)
    (.ran report, held, w)
  | .hold name target event =>
    let task := sendNow w target event
    let (journal, w) := w.readJournal
    (.held journal, (name, task) :: held, w)
  | .run name =>
    let (report, w) := w.execute ((held.lookup name).getD (.pure .null))
    (.ran report, held, w)

def routingSteps (held : List (String × ScriptTask)) (w : World) :
    List RoutingStep → List RoutingReport
  | [] => []
  | step :: rest =>
    let (report, held, w) := routingStep held w step
    report :: routingSteps held w rest

def routing (steps : List RoutingStep) : List RoutingReport :=
  routingSteps [] .empty steps

end Workflow.Scenario

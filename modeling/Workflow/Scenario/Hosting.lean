import Workflow.Delivery
import Workflow.Scenario.Walk

/-!
# Hosting scenarios

Scripted processes hosted over a store that may misbehave, step by step. Processes
may be connected to the mediator, so that their follow-up events are delivered to them.
-/

namespace Workflow.Scenario

open Script

inductive HostingCall where
  | deliver (process : String) (id : InstanceId) (stream : String) (event : Data)
  | start (process : String) (id : InstanceId) (stream : String)
  | inspect (process : String) (id : InstanceId) (stream : String)
  | clear (stream : String)
  | store (call : StoreCall (Entry Data))

inductive HostingStep where
  | call (call : HostingCall)
  | hold (name : String) (call : HostingCall)
  | run (name : String)

inductive Yield where
  | value (d : Data)
  | node (r : NodeReport)

inductive HostingReport where
  | held (journal : List Data)
  | ran (report : Report Yield)

structure Hosting where
  processes : List (String × ProcessScript)
  connected : List String
  policy : RetryPolicy
  faults : List StoreFault
  traced : Bool

namespace Hosting

def mediator (h : Hosting) : Mediator Handler :=
  h.connected.foldl (fun m name => m.onFollowUp name (.deliver name)) .empty

def process (h : Hosting) (serve : ScriptService) (name : String) : ScriptProcess :=
  match h.processes.lookup name with
  | some script => script.build serve ⟨.empty, h.mediator⟩ []
  | none => .failed ("no process " ++ name)

/-- The longest sleep on the clock of a scenario: thirty years of 365 days. -/
def longestSleep : Duration := ⟨946080000 * Duration.second⟩

/-- The policy on the clock of a scenario, where a sleep of no time does not suspend. -/
def paced (h : Hosting) : PacedPolicy :=
  h.policy.pacedBy fun time => if time = .zero then none else some (min time longestSleep)

def service (h : Hosting) : ScriptService :=
  Service.tie (fun serve m handler f =>
    match handler with
    | .script body => body.handle serve m f
    | .deliver name => Delivery.followUps h.paced (h.process serve name) InstanceId.stream f)
    nesting

def task (h : Hosting) : HostingCall → Task acts Handler Data Yield
  | .deliver process id stream event =>
    (Delivery.deliver h.paced (h.process h.service process) id stream event).map fun _ =>
      .value .null
  | .start process id stream =>
    (Delivery.start (h.process h.service process) id stream).map fun _ => .value .null
  | .inspect process id stream =>
    (Delivery.inspect (h.process h.service process) id stream).map fun n => .node (.of n)
  | .clear stream => (Delivery.clear stream).map fun _ => .value .null
  | .store call => (storeTask call).map .value

def world (h : Hosting) : World :=
  { World.empty with
    mediator := h.mediator
    store := { FaultyStore.sound with faults := h.faults, traced := h.traced } }

def steps (h : Hosting) (held : List (String × Task acts Handler Data Yield)) (w : World) :
    List HostingStep → List HostingReport
  | [] => []
  | .call call :: rest =>
    let (report, w) := w.execute (h.task call)
    .ran report :: h.steps held w rest
  | .hold name call :: rest =>
    let (journal, w) := w.readJournal
    .held journal :: h.steps ((name, h.task call) :: held) w rest
  | .run name :: rest =>
    let (report, w) := w.execute ((held.lookup name).getD (.pure (.value .null)))
    .ran report :: h.steps held w rest

def run (h : Hosting) (steps : List HostingStep) : List HostingReport :=
  h.steps [] h.world steps

end Hosting

end Workflow.Scenario

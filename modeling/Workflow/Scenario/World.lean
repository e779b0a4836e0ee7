import Workflow.Host
import Workflow.Scenario.FaultyStore
import Workflow.Script.Effect

/-!
# The world of a scenario

The world that scripted effects run in: a journal, counters, a mediator, a store and a clock that
only waiting moves.
-/

namespace Workflow.Scenario

open Script

structure World where
  /-- What was written since the journal was last read, newest first. -/
  journal : List Data
  counters : List (String × Int)
  mediator : Mediator Handler
  store : FaultyStore
  waited : Duration

namespace World

def empty : World := ⟨[], [], .empty, .sound, .zero⟩

def count (name : String) (w : World) : Int × World :=
  let n := (w.counters.lookup name).getD 0 + 1
  (n, { w with counters := (name, n) :: w.counters.filter (·.1 ≠ name) })

def act : Answers acts World
  | .note entry, w => some ((), { w with journal := entry :: w.journal })
  | .count name, w => some (w.count name)

def callStore (call : StoreCall (Entry Data)) (w : World) : call.Reply × World :=
  let traced := w.store.traces call
  let (reply, store) := w.store.call call
  (reply, { w with journal := traced.reverse ++ w.journal, store })

def host : Host (requests acts Handler Data) World :=
  HostParts.host {
    act
    store := callStore
    mediator := World.mediator
    wait := fun time w => { w with waited := w.waited + time } }

def readJournal (w : World) : List Data × World :=
  (w.journal.reverse, { w with journal := [] })

end World

structure Report (α : Type) where
  outcome : Outcome Failure α
  journal : List Data
  waited : Duration

def World.execute {α : Type} (task : Task acts Handler Data α) (w : World) : Report α × World :=
  let (outcome, w) := task.run host { w with waited := .zero }
  let (journal, w) := w.readJournal
  (⟨outcome, journal, w.waited⟩, w)

def nesting : Nat := 65536

def scriptService : ScriptService :=
  Service.tie (fun serve m h f =>
    match h with
    | .script body => body.handle serve m f
    | .deliver _ => .unit) nesting

def runEffect (script : EffectScript) (runs : Nat) : List Data × List (Report Data) :=
  let task := script.task scriptService .empty []
  let (before, w) := World.empty.readJournal
  (before, go task w runs)
where
  go (task : ScriptTask) (w : World) : Nat → List (Report Data)
    | 0 => []
    | n + 1 =>
      let (report, w) := w.execute task
      report :: go task w n

end Workflow.Scenario

import Workflow.Process.FollowUp
import Workflow.Process.Sequence
import Workflow.Script.Effect

/-!
# Scripted processes and nodes

Processes and nodes written as scripts, with data values for states, events and results. The
parts of a process are built with the whole, with the mediator of that moment; the bodies that
take a value are built each time they are called, with the mediator of that later moment.
-/

namespace Workflow.Script

/-! ## Processes -/

mutual

inductive ProcessScript where
  | pure (value : Expr)
  | done
  | failed (error : Expr)
  | await (cases : List Case)
  | bind (of : ProcessScript) (name : Option String) (body : ProcessScript)
  | map (of : ProcessScript) (name : Option String) (image : Expr)
  | branch (condition : Expr) (yes no : ProcessScript)
  | withInstance (name : Option String) (body : ProcessScript)
  | both (left right : ProcessScript) (merge : Expr)
  | perform (effect : EffectScript)
  | setState (image : Expr)
  | getState (image : Expr)
  | enqueue (effect : EffectScript)
  | callOut (effect : EffectScript) (cases : List Case)
  | sequence (first : ProcessScript) (steps : List SequenceStep)
  | block (steps : List (Option String × ProcessScript))
  | pipe (of : ProcessScript) (steps : List (Option String × ProcessScript))
  | iterate (times : Nat) (body : ProcessScript)
  | forever (body : ProcessScript)

inductive SequenceStep where
  | map (name : Option String) (image : Expr)
  | andThen (name : Option String) (body : ProcessScript)

end

instance : Inhabited ProcessScript := ⟨.failed default⟩

abbrev ScriptProcess := Process (requests acts Handler Data) Failure InstanceId Data Data Data

abbrev ScriptNode := Node (requests acts Handler Data) Failure Data Data Data

def pairValue (pair : Data × Data) : Data := .list [pair.1, pair.2]

def nullValue (p : Process (requests acts Handler Data) Failure InstanceId Data Data Unit) :
    ScriptProcess :=
  p.map fun _ => .null

/-- The mediators that a process is built with: for its parts, and for the bodies that are built
later. -/
structure Mediators where
  now : Mediator Handler
  later : Mediator Handler

def Mediators.inBody (m : Mediators) : Mediators := ⟨m.later, m.later⟩

namespace ProcessScript

variable (serve : ScriptService)

mutual

def build (m : Mediators) (env : Env) : ProcessScript → ScriptProcess
  | pure value => .pure (value.eval env)
  | done => nullValue .done
  | failed error => .failed (error.text env)
  | await cases => .await (Case.interpret env cases)
  | bind p name body => (build m env p).bind fun v => build m.inBody (env.bind name v) body
  | map p name image => (build m env p).map fun v => image.eval (env.bind name v)
  | branch condition yes no =>
    .branch (fun _ => condition.holds env) (build m env yes) (build m env no)
  | withInstance name body =>
    .withInstance fun i => build m.inBody (env.bind name (instanceValue i)) body
  | both left right merge =>
    ((build m env left).both (build m env right) fun l r =>
      merge.eval ((env.bind "left" l).bind "right" r)).map pairValue
  | perform effect => nullValue (.perform (effect.task serve m.now env).discard)
  | setState image => nullValue (.modify fun s => image.eval (env.bind "state" s))
  | getState image => .inspect fun s => image.eval (env.bind "state" s)
  | enqueue effect =>
    nullValue (.enqueue serve ((effect.task serve m.now env).map Data.items))
  | callOut effect cases =>
    .callOut serve ((effect.task serve m.now env).map Data.items) (Case.interpret env cases)
  | sequence first steps => (buildSequence m env (Process.sequence (build m env first)) steps).finish
  | block [] => .pure .null
  | block ((name, p) :: rest) =>
    .block env (buildBlock m.inBody name (fun env => build m env p) rest)
  | pipe p steps => (build m env p).pipe (buildSteps m.inBody env steps)
  | iterate times body =>
    .iterate (.pure .null)
      (fun i v => build m.inBody ((env.bind "i" (.nat i)).bind "last" v) body) times
  | forever body => (build m env body).bind fun _ => .forever (build m.inBody env body)

def buildSequence (m : Mediators) (env : Env)
    (first : Process.Sequence (requests acts Handler Data) Failure InstanceId Data Data Data) :
    List SequenceStep →
    Process.Sequence (requests acts Handler Data) Failure InstanceId Data Data Data
  | [] => first
  | .map name image :: rest =>
    buildSequence m env (first.map fun v => image.eval (env.bind name v)) rest
  | .andThen name body :: rest =>
    buildSequence m env (first.andThen fun v => build m.inBody (env.bind name v) body) rest

def buildBlock (m : Mediators) (name : Option String) (step : Env → ScriptProcess) :
    List (Option String × ProcessScript) →
    Process.Block (requests acts Handler Data) Failure InstanceId Data Data Env Data
  | [] => .last step
  | (name', p) :: rest => .named name step (buildBlock m name' (fun env => build m env p) rest)

def buildSteps (m : Mediators) (env : Env) :
    List (Option String × ProcessScript) →
    Process.Steps (requests acts Handler Data) Failure InstanceId Data Data Data Data
  | [] => .done
  | (name, body) :: rest => .next (fun v => build m (env.bind name v) body) (buildSteps m env rest)

end

end ProcessScript

/-! ## Nodes -/

mutual

inductive NodeScript where
  | succeeded (state value : Expr)
  | failed (state error : Expr)
  | inProgress (state : Expr) (cases : List NodeCase)
  | map (of : NodeScript) (name : Option String) (image : Expr)
  | mapState (of : NodeScript) (name : Option String) (image : Expr)
  | zip (left right : NodeScript)

inductive NodeCase where
  | mk (condition : Option Expr) (effect : Option EffectScript) (node : NodeScript)

end

instance : Inhabited NodeScript := ⟨.failed default default⟩

namespace NodeScript

variable (serve : ScriptService) (m : Mediator Handler)

mutual

def build (env : Env) : NodeScript → ScriptNode
  | succeeded state value => .succeeded (state.eval env) (value.eval env)
  | failed state error => .failed (state.eval env) (error.text env)
  | inProgress state cases =>
    .inProgress (state.eval env) fun event => buildStep (env.bind "event" event) cases
  | map n name image => (build env n).map fun v => image.eval (env.bind name v)
  | mapState n name image => (build env n).mapState fun s => image.eval (env.bind name s)
  | zip left right =>
    (((build env left).zip (build env right)).map pairValue).mapState pairValue

def buildStep (env : Env) :
    List NodeCase → Option (Step (requests acts Handler Data) Failure Data Data Data)
  | [] => none
  | .mk condition effect node :: rest =>
    if Case.applies env condition then
      let fx := match effect with
        | some e => (e.task serve m env).discard
        | none => .unit
      some (fx, build env node)
    else buildStep env rest

end

end NodeScript

end Workflow.Script

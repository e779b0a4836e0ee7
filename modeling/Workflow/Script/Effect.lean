import Workflow.Effect.Cold
import Workflow.Instance
import Workflow.Request
import Workflow.Script.Expr

/-!
# Scripted effects

Effects written as scripts. A scripted effect may write to a journal and count with named
counters; these are its acts. Follow-up events are sent when the effect is built: the parts of an
effect are built with the whole, the bodies that take a value each time they are called.
-/

namespace Workflow.Script

inductive Act where
  | note (entry : Data)
  | count (name : String)

def acts : Signature where
  Op := Act
  Answer
    | .note _ => Unit
    | .count _ => Int

inductive AsyncStep where
  | note (entry : Expr)
  | pause (times : Nat)
  deriving Inhabited

inductive EffectScript where
  | pure (value : Expr)
  | unit
  | fail (error : Expr)
  | note (entry : Expr)
  | count (name : String)
  | conclude (ending : Ending)
  | stepwise (steps : List AsyncStep) (ending : Ending)
  | bind (of : EffectScript) (name : Option String) (body : EffectScript)
  | andThen (of next : EffectScript)
  | map (of : EffectScript) (name : Option String) (image : Expr)
  | discard (of : EffectScript)
  | recover (of : EffectScript) (name : Option String) (handler : EffectScript)
  | map2 (left right : EffectScript) (image : Expr)
  | sequence (items : List EffectScript)
  | all (items : List EffectScript)
  | race (items : List EffectScript)
  | traverse (values : Expr) (name : Option String) (each : EffectScript)
  | pipe (of : EffectScript) (steps : List (Option String × EffectScript))
  | send (target event : Expr)
  | store (call : StoreCall (Entry Data))
  deriving Inhabited

inductive Handler where
  | script (body : EffectScript)
  | deliver (process : String)
  deriving Inhabited

abbrev ScriptTask := Task acts Handler Data Data

abbrev ScriptEffect := Cold (requests acts Handler Data) Failure Data

abbrev ScriptService := Service acts Handler InstanceId Data

/-! ## Building -/

def instanceOf (d : Data) : InstanceId :=
  match d.items with
  | process :: key :: _ => ⟨process.asText, key.asText⟩
  | _ => ⟨"", ""⟩

def instanceValue (id : InstanceId) : Data :=
  .ofFields [("process_name", .text id.process), ("key", .text id.key), ("text", .text id.text)]

def note (entry : Data) : ScriptTask :=
  (Task.act (Ω := acts) (.note entry)).map fun _ => .null

def count (name : String) : ScriptTask :=
  (Task.act (Ω := acts) (.count name)).map fun (n : Int) => .int n

def Ending.task (env : Env) (ending : Ending) : ScriptTask :=
  match ending.error with
  | some e => .fail (.other (e.text env))
  | none => .pure (ending.value.eval env)

def AsyncStep.task (env : Env) : AsyncStep → Task acts Handler Data Unit
  | note e => (Script.note (e.eval env)).discard
  | pause n => Effect.pauses n

def storeValue : (call : StoreCall (Entry Data)) → call.Answer → Data
  | .append .., (version : Nat) => .nat version
  | .load .., (entries : List (Entry Data)) => .list (entries.map (Entry.encode .data))
  | .contains _, (present : Bool) => .bool present
  | .delete _, _ => .null

def storeTask (call : StoreCall (Entry Data)) : ScriptTask :=
  (Task.store call).map (storeValue call)

namespace EffectScript

variable (serve : ScriptService)

def later (body : Mediator Handler → ScriptEffect) : ScriptEffect :=
  .ready (Task.mediator.bind fun m => (body m).execute)

mutual

def build (m : Mediator Handler) (env : Env) : EffectScript → ScriptEffect
  | pure value => .ready (.pure (value.eval env))
  | unit => .ready (.pure .null)
  | fail error => .ready (.fail (.failed (error.text env)))
  | note entry => .ready (Script.note (entry.eval env))
  | count name => .ready (Script.count name)
  | conclude ending => .ready (ending.task env)
  | stepwise ss ending =>
    .ready (ss.foldr (fun s rest => (s.task env).andThen rest) (ending.task env))
  | bind e name body =>
    (build m env e).bind fun v => later fun m => build m (env.bind name v) body
  | andThen e next => (build m env e).andThen (build m env next)
  | map e name image => (build m env e).map fun v => image.eval (env.bind name v)
  | discard e => (build m env e).map fun _ => .null
  | recover e name handler =>
    (build m env e).recover fun error =>
      later fun m => build m (env.bind name (.text error.message)) handler
  | map2 left right image =>
    Cold.map2 (fun a b => image.eval ((env.bind "a" a).bind "b" b)) (build m env left)
      (build m env right)
  | sequence items => (Cold.sequence (buildAll m env items)).map .list
  | all items => (Cold.all (buildAll m env items)).map .list
  | race items => Cold.race .emptyRace (buildAll m env items)
  | traverse values name each =>
    (Cold.traverse (fun v => build m (env.bind name v) each) (values.eval env).items).map .list
  | pipe e steps => (build m env e).pipe (buildSteps env steps)
  | send target event =>
    .ready ((Service.send serve m ⟨instanceOf (target.eval env), event.eval env⟩).map fun _ => .null)
  | store call => .ready (storeTask call)

def buildAll (m : Mediator Handler) (env : Env) : List EffectScript → List ScriptEffect
  | [] => []
  | e :: es => build m env e :: buildAll m env es

def buildSteps (env : Env) : List (Option String × EffectScript) → List (Data → ScriptEffect)
  | [] => []
  | (name, body) :: rest =>
    (fun v => later fun m => build m (env.bind name v) body) :: buildSteps env rest

end

def task (m : Mediator Handler) (env : Env) (e : EffectScript) : ScriptTask :=
  (e.build serve m env).execute

end EffectScript

def EffectScript.handle (serve : ScriptService) (body : EffectScript) (m : Mediator Handler)
    (f : FollowUp InstanceId Data) : Task acts Handler Data Unit :=
  (body.task serve m [("event", f.event), ("instance", instanceValue f.target)]).discard

end Workflow.Script

import Workflow.Data.Compact
import Workflow.Scope
import Workflow.Verdict

/-!
# Expressions

Pure functions written as expressions over named data values. Every expression has a value: a
name that is not bound, a field or an element that is not there is `null`.
-/

namespace Workflow.Script

abbrev Env := Scope Data

def Env.get (env : Env) (name : String) : Data :=
  (env.find? name).getD .null

inductive Expr where
  | lit (value : Data)
  | var (name : String)
  | field (of : Expr) (name : String)
  | item (of : Expr) (position : Int)
  | set (of : Expr) (name : String) (value : Expr)
  | push (of value : Expr)
  | list (items : List Expr)
  | add (left right : Expr)
  | mul (left right : Expr)
  | concat (parts : List Expr)
  | length (of : Expr)
  | eq (left right : Expr)
  | lt (left right : Expr)
  | not (of : Expr)
  | cond (test yes no : Expr)
  deriving Inhabited

namespace Expr

mutual

def eval (env : Env) : Expr → Data
  | lit value => value
  | var name => env.get name
  | field e name => ((eval env e).field? name).getD .null
  | item e i => ((eval env e).item? i).getD .null
  | set e name v => (eval env e).withField name (eval env v)
  | push e v => (eval env e).push (eval env v)
  | list es => .list (evalAll env es)
  | add a b => .int (Word.wrap ((eval env a).toInt + (eval env b).toInt))
  | mul a b => .int (Word.wrap ((eval env a).toInt * (eval env b).toInt))
  | concat es => .text (String.join ((evalAll env es).map Data.asText))
  | length e => .nat (eval env e).length
  | eq a b => .bool ((eval env a).same (eval env b))
  | lt a b => .bool ((eval env a).toInt < (eval env b).toInt)
  | not e => .bool (!(eval env e).holds)
  | cond c a b => if (eval env c).holds then eval env a else eval env b

def evalAll (env : Env) : List Expr → List Data
  | [] => []
  | e :: es => eval env e :: evalAll env es

end

def holds (env : Env) (e : Expr) : Bool := (e.eval env).holds

def text (env : Env) (e : Expr) : String := (e.eval env).asText

end Expr

structure Ending where
  value : Expr
  error : Option Expr
  deriving Inhabited

structure Case where
  condition : Option Expr
  ending : Ending
  deriving Inhabited

namespace Case

def applies (env : Env) (condition : Option Expr) : Bool :=
  match condition with
  | some e => e.holds env
  | none => true

/-- What the first case that applies makes of an event. Without one the event is ignored. -/
def interpret (env : Env) (cases : List Case) (event : Data) : Option (Verdict Data) :=
  let env := env.bind "event" event
  (cases.find? fun c => applies env c.condition).map fun c =>
    match c.ending.error with
    | some e => .failure (e.text env)
    | none => .success (c.ending.value.eval env)

end Case

end Workflow.Script

import Workflow.Data
import Workflow.Effect.Basic
import Workflow.Failure

/-!
# Statements

The statements that a store on a relational database sends, and what the database answers. All
streams share one table with a row for each entry, whose key is the stream and the version.
-/

namespace Workflow.Database

structure Row where
  stream : String
  version : Int
  entryType : String
  payload : Data
  deriving Repr, Inhabited, DecidableEq

def Row.sameKey (a b : Row) : Bool :=
  a.stream == b.stream && a.version == b.version

inductive Statement where
  | createTable
  | begin
  | commit
  | rollback
  | currentVersion (stream : String)
  | insert (row : Row)
  | load (stream : String) (after : Nat)
  | contains (stream : String)
  | delete (stream : String)
  deriving Repr, DecidableEq

inductive Fault where
  | refused (code : Option String) (message : String)
  | closed
  | disconnected (reason : String)
  deriving Repr, DecidableEq, Inhabited

namespace Fault

def uniqueViolation : String := "23505"

def isUniqueViolation : Fault → Bool
  | refused code _ => code == some uniqueViolation
  | _ => false

def report (operation : String) : Fault → StoreError
  | refused _ message => .database ("database error in " ++ operation ++ ": " ++ message)
  | closed => .database ("connection pool closed in " ++ operation)
  | disconnected reason => .database ("sqlx error in " ++ operation ++ ": " ++ reason)

end Fault

/-- A value read from a result. Reading fails with a text if the result lacks the column. -/
abbrev Column (α : Type) := Except String α

def Statement.Result : Statement → Type
  | currentVersion _ => Column Int
  | load .. => List (Column Row)
  | contains _ => Column Bool
  | _ => Unit

def statements : Signature where
  Op := Statement
  Answer s := Except Fault s.Result

abbrev Query (α : Type) := Effect statements StoreError α

namespace Query

def send (operation : String) (s : Statement) : Query s.Result :=
  .call s fun reply => .ofExcept (reply.mapError (Fault.report operation))

def read {α : Type} (what : String) (column : Column α) : Query α :=
  .ofExcept (column.mapError fun reason =>
    .database ("failed to read " ++ what ++ ": " ++ reason))

end Query

end Workflow.Database

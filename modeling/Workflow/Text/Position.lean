import Workflow.Text.Numeral
import Workflow.Word

/-!
# Positions at the end of a message

A message about a written text may end in the position of what is wrong there, as in
`quote missing at line 3 column 7`. Lines count from 1, so line 0 stands for no position.
`Position.settle` reads the position off the end of a message and writes it back plainly, or not
at all if it is none.
-/

namespace Workflow.Text

structure Position where
  line : Nat
  column : Nat
  deriving DecidableEq, Repr

namespace Position

def lineMark : List Char := " at line ".toList

def columnMark : List Char := " column ".toList

def before? (ending cs : List Char) : Option (List Char) :=
  if ending.isSuffixOf cs then some (cs.take (cs.length - ending.length)) else none

/-- The number that the digits at the end of a text make, if it fits a 64-bit word, and the
characters before them. -/
def numberAtEnd? (cs : List Char) : Option (List Char × Nat) :=
  let ds := (cs.reverse.takeWhile fun c => (digit? c).isSome).reverse
  ((digits? ds).filter (· < Word.count64)).map fun n => (cs.take (cs.length - ds.length), n)

def split? (cs : List Char) : Option (List Char × Position) := do
  let (cs, column) ← numberAtEnd? cs
  let cs ← before? columnMark cs
  let (cs, line) ← numberAtEnd? cs
  let cs ← before? lineMark cs
  some (cs, ⟨line, column⟩)

def text (p : Position) : List Char :=
  if p.line = 0 then []
  else lineMark ++ Nat.toDigits 10 p.line ++ columnMark ++ Nat.toDigits 10 p.column

def settle (message : String) : String :=
  match split? message.toList with
  | some (cs, p) => String.ofList (cs ++ p.text)
  | none => message

end Position

end Workflow.Text

import Workflow.Process.Basic
import Workflow.Scope

/-!
# Ways to write a sequence of steps

`pipe` chains steps that each take the value of the one before; `Sequence` is the same as a
builder, which also maps values; `block` names the values of its steps and keeps them in scope for
the steps after them. All three are nested `bind`s.
-/

namespace Workflow.Process

variable {σ : Signature} {ε I S E R R' : Type}

/-! ## Chains -/

/-- Steps in a row, from an `R` to an `R'`: each takes the value of the one before. -/
inductive Steps (σ : Signature) (ε I S E : Type) : Type → Type → Type 1 where
  | done {R : Type} : Steps σ ε I S E R R
  | next {R Q R' : Type} (step : R → Process σ ε I S E Q) (rest : Steps σ ε I S E Q R') :
      Steps σ ε I S E R R'

def pipe {R R' : Type} : Process σ ε I S E R → Steps σ ε I S E R R' → Process σ ε I S E R'
  | p, .done => p
  | p, .next step rest => pipe (p.bind step) rest

/-- A process followed by a number of steps, each of which gets its own number, counted from 0,
and the value before it. -/
def iterate (first : Process σ ε I S E R) (step : Nat → R → Process σ ε I S E R) :
    Nat → Process σ ε I S E R
  | 0 => first
  | n + 1 => (iterate first step n).bind (step n)

/-! ## The builder -/

structure Sequence (σ : Signature) (ε I S E R : Type) where
  process : Process σ ε I S E R

def sequence (first : Process σ ε I S E R) : Sequence σ ε I S E R := ⟨first⟩

namespace Sequence

def andThen (steps : Sequence σ ε I S E R) (f : R → Process σ ε I S E R') :
    Sequence σ ε I S E R' :=
  ⟨steps.process.bind f⟩

def map (f : R → R') (steps : Sequence σ ε I S E R) : Sequence σ ε I S E R' :=
  ⟨steps.process.map f⟩

def finish (steps : Sequence σ ε I S E R) : Process σ ε I S E R := steps.process

end Sequence

/-! ## Blocks -/

/-- Statements in a row, the first of which is in scope of a `V`; the last gives an `R`. A
statement is a process, and what its value makes of the scope for the statements after it. -/
inductive Block (σ : Signature) (ε I S E : Type) : Type → Type → Type 1 where
  | last {V R : Type} (step : V → Process σ ε I S E R) : Block σ ε I S E V R
  | next {V Q V' R : Type} (step : V → Process σ ε I S E Q) (bind : Q → V → V')
      (rest : Block σ ε I S E V' R) : Block σ ε I S E V R

def Block.named {A : Type} (name : Option String) (step : Scope A → Process σ ε I S E A)
    (rest : Block σ ε I S E (Scope A) R) : Block σ ε I S E (Scope A) R :=
  .next step (fun value scope => scope.bind name value) rest

def block {V R : Type} : V → Block σ ε I S E V R → Process σ ε I S E R
  | scope, .last step => step scope
  | scope, .next step bind rest => (step scope).bind fun value => block (bind value scope) rest

end Workflow.Process

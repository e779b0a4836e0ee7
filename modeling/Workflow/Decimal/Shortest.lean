import Workflow.Decimal

/-!
# Shortest decimals

The decimal fraction with the fewest digits whose nearest double is a given double. Of several
with equally many digits it is the one nearest to the double.

On the grid of decimals with a given last place only the two next to the double need a test: if
any decimal of that grid reads back as the double, one of these does.
-/

namespace Workflow.Decimal

def fraction (x : Float) : Nat × Nat :=
  let bits := x.toBits.toNat
  let hidden := 4503599627370496
  let power := bits / hidden % 2048
  let rest := bits % hidden
  if power = 0 then (rest, Nat.pow 2 1074)
  else if power < 1075 then (hidden + rest, Nat.pow 2 (1075 - power))
  else ((hidden + rest) * Nat.pow 2 (power - 1075), 1)

/-- The power of ten that the first digit of a positive fraction stands at. For a power of ten
below 1 it is the place after that. -/
def firstPlace (num den : Nat) : Int :=
  if den ≤ num then (Nat.toDigits 10 (num / den)).length - 1
  else -(Nat.toDigits 10 (den / num)).length

/-- The digits of the two decimals next to a fraction whose last digit stands at `place`, the
nearer first and of two equally near the even one. -/
def neighbours (num den : Nat) (place : Int) : List Nat :=
  let num := if place < 0 then num * Nat.pow 10 place.natAbs else num
  let den := if place < 0 then den else den * Nat.pow 10 place.natAbs
  let below := num / den
  let twice := 2 * (num % den)
  if twice < den ∨ (twice = den ∧ below % 2 = 0) then [below, below + 1] else [below + 1, below]

def strip (digits : Nat) (exponent : Int) : Nat × Int :=
  if h : 0 < digits ∧ digits % 10 = 0 then strip (digits / 10) (exponent + 1)
  else (digits, exponent)
termination_by digits
decreasing_by exact Nat.div_lt_self h.1 (by decide)

/-- The shortest decimal of a finite double. Seventeen digits always suffice. -/
def shortest (x : Float) : Decimal :=
  let negative := 9223372036854775808 ≤ x.toBits.toNat
  let (num, den) := fraction x
  if num = 0 then ⟨negative, 0, 0⟩
  else
    let candidates := (List.range 17).flatMap fun (n : Nat) =>
      let place := firstPlace num den - n
      (neighbours num den place).map fun digits =>
        let (digits, exponent) := strip digits place
        Decimal.mk negative digits exponent
    (candidates.find? fun d => d.toFloat == x).getD ⟨negative, num / den, 0⟩

end Workflow.Decimal

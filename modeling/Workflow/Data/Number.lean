import Workflow.Data
import Workflow.Decimal.Shortest

/-!
# Numbers as data

How a number that is written becomes a data value. An integer that fits a 64-bit word, signed or
unsigned, is kept as it is. Every other number becomes a double: its digits are rounded to a double
and that is scaled by a power of ten, so the result may differ in its last bit from the nearest
double.
-/

namespace Workflow

structure WrittenNumber where
  negative : Bool
  /-- Its digits before and after the point, read as one number. -/
  digits : Nat
  /-- The power of ten that the last digit stands at. -/
  exponent : Int
  /-- Whether it is written without a point and without an exponent. -/
  plain : Bool

namespace WrittenNumber

/-- The digits that fit an unsigned 64-bit word, those in front, and the place of the last of
them. -/
def leading (digits : Nat) (exponent : Int) : Nat × Int :=
  if h : digits < Word.count64 then (digits, exponent) else leading (digits / 10) (exponent + 1)
termination_by digits
decreasing_by exact Nat.div_lt_self (Nat.lt_of_lt_of_le (by decide) (Nat.le_of_not_lt h)) (by decide)

def powerOfTen (n : Nat) : Float :=
  Float.ofScientific 1 false n

def divide (x : Float) (n : Nat) : Float :=
  if n ≤ 308 then x / powerOfTen n else divide (x / powerOfTen 308) (n - 308)
termination_by n

def toFloat (w : WrittenNumber) : Float :=
  let (digits, exponent) := leading w.digits w.exponent
  let size := Float.ofNat digits
  let scaled :=
    if digits = 0 then size
    else if exponent < 0 then divide size exponent.natAbs
    else size * powerOfTen exponent.natAbs
  if w.negative then -scaled else scaled

end WrittenNumber

namespace Data

def ofWritten? (w : WrittenNumber) : Option Data :=
  let fits :=
    if w.negative then 0 < w.digits && Word.fits (-w.digits) else decide (w.digits < Word.count64)
  if w.plain && fits then some (int (if w.negative then -w.digits else w.digits))
  else if w.toFloat.isFinite then some (decimal (Decimal.shortest w.toFloat))
  else none

def decimal? : Data → Option Decimal
  | int n => some (Decimal.shortest (Float.ofInt n))
  | decimal d => some d
  | _ => none

end Data

end Workflow

/-!
# Decimal fractions

A number in decimal notation, `digits * 10 ^ exponent` with a sign of its own: zero has one too.
Main definitions: the nearest double to a decimal fraction, and its text.
-/

namespace Workflow

structure Decimal where
  negative : Bool
  digits : Nat
  exponent : Int
  deriving DecidableEq, Repr, Inhabited

namespace Decimal

def toFloat (d : Decimal) : Float :=
  let size := Float.ofScientific d.digits (d.exponent < 0) d.exponent.natAbs
  if d.negative then -size else size

/-- The text of a decimal fraction without its sign. It is positional if its first digit stands at
a place from the 16th before the point to the 5th after it, and then it has at least one place on
either side of the point. All others have their point after the first digit, if it has others, and
an exponent. -/
def magnitudeText (digits : Nat) (exponent : Int) : String :=
  let ds := Nat.toDigits 10 digits
  let whole := ds.length + exponent
  if 0 ≤ exponent ∧ whole ≤ 16 then
    String.ofList (ds ++ List.replicate exponent.toNat '0' ++ ['.', '0'])
  else if 0 < whole ∧ whole ≤ 16 then
    String.ofList (ds.take whole.toNat ++ '.' :: ds.drop whole.toNat)
  else if -5 < whole ∧ whole ≤ 0 then
    String.ofList (['0', '.'] ++ List.replicate whole.natAbs '0' ++ ds)
  else
    let power := 'e' :: (toString (whole - 1)).toList
    String.ofList (ds.take 1 ++ (if ds.length = 1 then power else '.' :: ds.drop 1 ++ power))

def text (d : Decimal) : String :=
  (if d.negative then "-" else "") ++ magnitudeText d.digits d.exponent

end Decimal

end Workflow

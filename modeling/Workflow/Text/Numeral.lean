/-!
# Numerals

An unsigned numeral is one or more ASCII digits, after an optional plus sign. `numeral? bound`
reads one whose value is below `bound`, with no wrap-around.
-/

namespace Workflow.Text

def digit? (c : Char) : Option Nat :=
  if '0' ≤ c ∧ c ≤ '9' then some (c.toNat - '0'.toNat) else none

def digitsFrom (acc : Nat) : List Char → Option Nat
  | [] => some acc
  | c :: cs => (digit? c).bind fun d => digitsFrom (10 * acc + d) cs

def digits? : List Char → Option Nat
  | [] => none
  | cs => digitsFrom 0 cs

def unsigned : List Char → List Char
  | '+' :: cs => cs
  | cs => cs

def numeral? (bound : Nat) (s : String) : Option Nat :=
  (digits? (unsigned s.toList)).filter (· < bound)

end Workflow.Text

import Workflow.Instance
import Workflow.Data.Compact

/-!
# Fresh keys

A fresh key is a time-ordered universally unique identifier: 48 bits of milliseconds since 1970,
the version 7, twelve random bits, the variant and 62 more random bits, written in hexadecimal
digits in groups of 8, 4, 4, 4 and 12.
-/

namespace Workflow.InstanceId

def hexDigits : Nat → Nat → List Char
  | 0, _ => []
  | width + 1, n => hexDigits width (n / 16) ++ [hexDigit (n % 16)]

def freshKey (milliseconds random : Nat) : String :=
  let early := random % Nat.pow 2 12
  let late := random / Nat.pow 2 12 % Nat.pow 2 62
  let clock := hexDigits 12 milliseconds
  let tail := hexDigits 16 (Word.half64 + late)
  String.ofList (clock.take 8 ++ '-' :: clock.drop 8 ++ '-' :: '7' :: hexDigits 3 early
    ++ '-' :: tail.take 4 ++ '-' :: tail.drop 4)

def fresh (process : String) (milliseconds random : Nat) : InstanceId :=
  ⟨process, freshKey milliseconds random⟩

end Workflow.InstanceId

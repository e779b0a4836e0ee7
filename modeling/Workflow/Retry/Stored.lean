import Workflow.Data.Number
import Workflow.Retry

/-!
# Stored retry policies

A policy as a data value: a record of its parts, each duration as its seconds and nanoseconds. It
is read back from such a record, whose other fields are ignored, or from the list of the parts in
their order. Main statement: `Duration.decode_encode`.
-/

namespace Workflow

namespace Data

def natBelow? (bound : Nat) : Data → Option Nat
  | int n => if 0 ≤ n ∧ n < bound then some n.toNat else none
  | _ => none

theorem natBelow?_nat {bound n : Nat} (h : n < bound) : (nat n).natBelow? bound = some n := by
  have hlt : (n : Int) < bound := Int.ofNat_lt.mpr h
  simp only [nat, natBelow?]
  rw [if_pos ⟨Int.natCast_nonneg _, hlt⟩, Int.toNat_natCast]

def parts? (names : List String) : Data → Option (List Data)
  | record fields => names.mapM fun name => fields.lookup name
  | list items => if items.length = names.length then some items else none
  | _ => none

end Data

namespace Duration

def encode (d : Duration) : Data :=
  .record [("nanos", .nat d.subsecond), ("secs", .nat d.seconds)]

def onlyFields (names : List String) (d : Data) : Bool :=
  d.fields.all fun f => names.contains f.1

def decode (d : Data) : Option Duration :=
  match d.parts? ["secs", "nanos"] with
  | some [secs, nanos] =>
    if onlyFields ["secs", "nanos"] d then
      (secs.natBelow? (Word.count64)).bind fun s =>
        (nanos.natBelow? (Word.count32)).bind fun n => ofParts? s n
    else none
  | _ => none

theorem decode_encode (d : Duration) (h : d.seconds < Word.count64) :
    decode (encode d) = some d := by
  have hlt : d.subsecond < second := Nat.mod_lt _ (by decide)
  have hs : (Data.nat d.seconds).natBelow? Word.count64 = some d.seconds := Data.natBelow?_nat h
  have hn : (Data.nat d.subsecond).natBelow? Word.count32 = some d.subsecond :=
    Data.natBelow?_nat (Nat.lt_trans hlt (by decide))
  have hp : (encode d).parts? ["secs", "nanos"]
      = some [.nat d.seconds, .nat d.subsecond] := by rfl
  have ho : onlyFields ["secs", "nanos"] (encode d) = true := by rfl
  have hz : d.subsecond / second = 0 := Nat.div_eq_of_lt hlt
  have hd : d.seconds * second + d.subsecond = d.nanoseconds := Nat.div_add_mod' _ _
  simp only [decode, hp, ho, hs, hn, Option.bind_some, ofParts?, hz, Nat.add_zero, h, hd, ite_true]

end Duration

namespace Backoff

def name : Backoff → String
  | fixed => "fixed"
  | exponential => "exponential"
  | linear => "linear"

def ofName? (s : String) : Option Backoff :=
  [fixed, exponential, linear].find? (·.name = s)

/-- Reads a backoff: its name, alone or as the name of the only field of a record, with nothing in
it. -/
def decode : Data → Option Backoff
  | .text s => ofName? s
  | .record [(s, .null)] => ofName? s
  | _ => none

end Backoff

/-- There is no data value for what is not a finite number. -/
def Jitter.encode : Jitter → Data
  | fraction d => .decimal d
  | infinite _ => .null
  | notANumber => .null

namespace RetryPolicy

def encode (p : RetryPolicy) : Data :=
  .record [("base_delay", p.baseDelay.encode), ("jitter", p.jitter.encode),
    ("max_attempts", .nat p.maxAttempts), ("max_delay", p.maxDelay.encode),
    ("strategy", .text p.backoff.name)]

def decode (d : Data) : Option RetryPolicy :=
  match d.parts? ["max_attempts", "base_delay", "max_delay", "strategy", "jitter"] with
  | some [attempts, base, max, backoff, jitter] => do
    let maxAttempts ← attempts.natBelow? (Word.count32)
    let baseDelay ← Duration.decode base
    let maxDelay ← Duration.decode max
    let backoff ← Backoff.decode backoff
    let jitter ← jitter.decimal?
    some { maxAttempts, baseDelay, maxDelay, backoff, jitter := .fraction jitter }
  | _ => none

end RetryPolicy

end Workflow

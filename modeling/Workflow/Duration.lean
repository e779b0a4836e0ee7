import Workflow.Word

/-!
# Durations

A duration is a number of nanoseconds, with whole seconds that fit a 64-bit word.
-/

namespace Workflow

structure Duration where
  nanoseconds : Nat
  deriving DecidableEq, Repr, Inhabited

namespace Duration

def second : Nat := 1000000000

def millisecond : Nat := 1000000

def zero : Duration := ⟨0⟩

def ofMilliseconds (n : Nat) : Duration := ⟨n * millisecond⟩

/-- Whole seconds and nanoseconds. A full second of nanoseconds carries over; there is no such
duration if the seconds then pass 64 bits. -/
def ofParts? (seconds nanoseconds : Nat) : Option Duration :=
  if seconds + nanoseconds / second < Word.count64 then some ⟨seconds * second + nanoseconds⟩ else none

def seconds (d : Duration) : Nat := d.nanoseconds / second

def subsecond (d : Duration) : Nat := d.nanoseconds % second

def milliseconds (d : Duration) : Nat := d.nanoseconds / millisecond

instance : Max Duration := ⟨fun a b => ⟨max a.nanoseconds b.nanoseconds⟩⟩

instance : Min Duration := ⟨fun a b => ⟨min a.nanoseconds b.nanoseconds⟩⟩

instance : LT Duration := ⟨fun a b => a.nanoseconds < b.nanoseconds⟩

instance (a b : Duration) : Decidable (a < b) :=
  inferInstanceAs (Decidable (a.nanoseconds < b.nanoseconds))

protected theorem lt_irrefl (d : Duration) : ¬ d < d :=
  Nat.lt_irrefl d.nanoseconds

instance : Add Duration := ⟨fun a b => ⟨a.nanoseconds + b.nanoseconds⟩⟩

/-- What is left of a duration. It is never below zero. -/
instance : Sub Duration := ⟨fun a b => ⟨a.nanoseconds - b.nanoseconds⟩⟩

end Duration

end Workflow

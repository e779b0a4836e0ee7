import Workflow.Data
import Workflow.Duration

/-!
# Retry policies

How often a delivery that lost a race tries again, and how long it waits before each new attempt.
The waiting time is computed in double precision from whole milliseconds.
-/

namespace Workflow

inductive Backoff where
  | fixed
  | exponential
  | linear
  deriving DecidableEq, Repr, Inhabited

/-- A double that need not be a number: any that is one is the nearest to a decimal fraction. -/
inductive Jitter where
  | fraction (d : Decimal)
  | infinite (negative : Bool)
  | notANumber
  deriving DecidableEq, Repr, Inhabited

def Jitter.toFloat : Jitter → Float
  | fraction d => d.toFloat
  | infinite negative => if negative then -1 / 0 else 1 / 0
  | notANumber => 0 / 0

structure RetryPolicy where
  maxAttempts : Nat
  baseDelay : Duration
  maxDelay : Duration
  backoff : Backoff
  /-- The fraction of the nominal wait that rivals spread over. -/
  jitter : Jitter
  deriving DecidableEq, Repr, Inhabited

namespace RetryPolicy

def countLimit : Nat := Word.count32 - 1

/-! ## Policies -/

def standard : RetryPolicy where
  maxAttempts := 16
  baseDelay := .ofMilliseconds 5
  maxDelay := .ofMilliseconds 250
  backoff := .exponential
  jitter := .fraction ⟨false, 1, -1⟩

def never : RetryPolicy := { standard with maxAttempts := 0 }

def fixed (maxAttempts : Nat) (delay : Duration) : RetryPolicy where
  maxAttempts := maxAttempts
  baseDelay := delay
  maxDelay := delay
  backoff := .fixed
  jitter := .fraction ⟨false, 0, 0⟩

def exponential (maxAttempts : Nat) (baseDelay maxDelay : Duration) : RetryPolicy where
  maxAttempts := maxAttempts
  baseDelay := baseDelay
  maxDelay := maxDelay
  backoff := .exponential
  jitter := .fraction ⟨false, 1, -1⟩

def unbounded : RetryPolicy := { standard with maxAttempts := countLimit }

def withMaxAttempts (policy : RetryPolicy) (n : Nat) : RetryPolicy :=
  { policy with maxAttempts := n }

def withBaseDelay (policy : RetryPolicy) (delay : Duration) : RetryPolicy :=
  { policy with baseDelay := delay, maxDelay := max policy.maxDelay delay }

/-! ## Waiting -/

def allows (policy : RetryPolicy) (retries : Nat) : Bool :=
  retries < policy.maxAttempts

def nominal (policy : RetryPolicy) (retry : Nat) : Float :=
  let base := Float.ofNat policy.baseDelay.milliseconds
  match policy.backoff with
  | .fixed => base
  | .exponential => base * Float.ofNat (Nat.pow 2 (min (retry - 1) 31))
  | .linear => base * Float.ofNat retry

/-- The jitter of a retry, within `range` on either side of the nominal wait: a fixed scatter
over the numbers of retries. -/
def scatter (range : Float) (retry : Nat) : Float :=
  if range > 0 then range * (Float.ofNat (retry * 17 % 100) / 100 - 0.5) * 2 else 0

def delay (policy : RetryPolicy) (retry : Nat) : Duration :=
  if retry = 0 then .zero
  else
    let longest := Float.ofNat policy.maxDelay.milliseconds
    let nominal := policy.nominal retry
    let wait := if longest < nominal then longest else nominal
    let jittered := wait + scatter (wait * policy.jitter.toFloat) retry
    let limited := if jittered < 0 then 0 else if longest < jittered then longest else jittered
    .ofMilliseconds limited.toUInt64.toNat

end RetryPolicy

/-! ## Keeping a policy -/

/-- A retry policy and the clock it is kept by: for how long a sleep of some time suspends, if it
does. The retries that are allowed can be counted in a 32-bit word. -/
structure PacedPolicy extends RetryPolicy where
  sleep : Duration → Option Duration
  maxAttempts_le : maxAttempts ≤ RetryPolicy.countLimit

def RetryPolicy.pacedBy (policy : RetryPolicy) (sleep : Duration → Option Duration) : PacedPolicy :=
  { policy with
    maxAttempts := min policy.maxAttempts RetryPolicy.countLimit
    sleep
    maxAttempts_le := Nat.min_le_right .. }

def RetryPolicy.punctual (policy : RetryPolicy) : PacedPolicy :=
  policy.pacedBy some

namespace PacedPolicy

theorem toNat_ofNat (policy : PacedPolicy) {n : Nat} (h : n ≤ policy.maxAttempts) :
    (UInt32.ofNat n).toNat = n := by
  have hlimit : policy.maxAttempts ≤ 4294967295 := policy.maxAttempts_le
  apply UInt32.toNat_ofNat_of_lt'
  simp only [UInt32.size]
  omega

/-- The counter does not overflow when another retry is counted that the policy allows. -/
theorem toNat_add_one (policy : PacedPolicy) {retries : UInt32} (h : policy.allows retries.toNat) :
    (retries + 1).toNat = retries.toNat + 1 := by
  have hlt : retries.toNat < policy.maxAttempts := of_decide_eq_true h
  have hnext : (UInt32.ofNat (retries.toNat + 1)).toNat = retries.toNat + 1 := policy.toNat_ofNat hlt
  rw [UInt32.ofNat_add, UInt32.ofNat_toNat] at hnext
  exact hnext

end PacedPolicy

end Workflow

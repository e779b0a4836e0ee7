/-!
# Failures

Why an effect, a store call or a delivery failed, and the wording of each cause.
-/

namespace Workflow

inductive StoreError where
  | concurrency (stream : String) (expected actual : Nat)
  | serialization (reason : String)
  | database (reason : String)
  deriving DecidableEq, Repr, Inhabited

namespace StoreError

/-- Whether the error reports a lost race rather than a fault. -/
def isConcurrency : StoreError → Bool
  | concurrency .. => true
  | _ => false

def message : StoreError → String
  | concurrency stream expected actual =>
    "optimistic concurrency check failed on stream '" ++ stream ++ "': expected version "
      ++ Nat.repr expected ++ ", found " ++ Nat.repr actual
  | serialization reason => "entry serialization failed: " ++ reason
  | database reason => "database error: " ++ reason

end StoreError

inductive HistoryFlaw where
  | empty
  | unstarted (entryType : String)
  /-- The sentinel stands a second time, at this version. -/
  | restarted (version : Nat)
  | described (reason : String)
  deriving DecidableEq, Repr, Inhabited

def HistoryFlaw.message : HistoryFlaw → String
  | empty => "stream is empty"
  | unstarted entryType => "stream starts with " ++ entryType ++ " instead of ProcessStarted"
  | restarted version => "second ProcessStarted at version " ++ Nat.repr version
  | described reason => reason

inductive DeliveryError where
  | store (error : StoreError)
  | invalidHistory (flaw : HistoryFlaw)
  | retriesExhausted (stream : String) (attempts : Nat)
  deriving DecidableEq, Repr, Inhabited

def DeliveryError.message : DeliveryError → String
  | store error => "event store error: " ++ error.message
  | invalidHistory flaw => "invalid process history: " ++ flaw.message
  | retriesExhausted stream attempts =>
    "gave up on stream '" ++ stream ++ "' after " ++ Nat.repr attempts ++ " conflicting attempts"

/-- Why an effect failed. Every combinator passes the cause on as it is. -/
inductive Failure where
  | emptyRace
  | failed (reason : String)
  | store (error : StoreError)
  | delivery (error : DeliveryError)
  | other (reason : String)
  deriving DecidableEq, Repr, Inhabited

def Failure.message : Failure → String
  | emptyRace => "race over an empty list of effects"
  | failed reason => reason
  | store error => error.message
  | delivery error => error.message
  | other reason => reason

end Workflow

import Workflow.History
import Workflow.Process.FollowUp
import Workflow.Retry

/-!
# Delivery

Nothing is kept of an instance but its stream. A delivery starts the stream if it does
not exist, replays it, offers the event to the node it leads to, records the event if the node
accepts it, and then runs the step's effect. Nothing is run that has not been recorded.

An append that lost a race ends the attempt, and the delivery begins anew as long as the retry
policy allows. Every other failure ends the delivery.
-/

namespace Workflow.Delivery

universe u

variable {Ω : Signature} {H I S E R : Type}

abbrev Definition (Ω : Signature) (H I S E R : Type) :=
  Process (requests Ω H E) Failure I S E R

def storeFault {α : Type u} (error : StoreError) : Task Ω H E α :=
  .fail (.delivery (.store error))

/-- An append of the delivery's own: the conflict it met, or what follows it. A fault of the
store fails. -/
def record (stream : String) (entry : Entry E) (expected : Nat)
    (next : Task Ω H E (Option StoreError)) : Task Ω H E (Option StoreError) :=
  .call (.store (.append stream [entry] expected)) fun (reply : Except StoreError Nat) =>
    match reply with
    | .ok _ => next
    | .error e => if e.isConcurrency then .pure (some e) else storeFault e

def conclude (fx : Task Ω H E Unit) : Task Ω H E (Option StoreError) :=
  fx.map fun _ => none

def history (stream : String) (next : List (Entry E) → Task Ω H E α) : Task Ω H E α :=
  .call (.store (.load stream none)) fun (reply : Except StoreError (List (Entry E))) =>
    match reply with
    | .ok entries => next entries
    | .error e => storeFault e

section

variable [Inhabited S]

/-- Starts a stream: records the sentinel, then runs the initial effect. Yields the conflict if
the stream was started already. -/
def begin (p : Definition Ω H I S E R) (i : I) (stream : String) :
    Task Ω H E (Option StoreError) :=
  record stream .started 0 (conclude (p.run i default).1)

def react (p : Definition Ω H I S E R) (i : I) (stream : String) (event : E)
    (entries : List (Entry E)) : Task Ω H E (Option StoreError) :=
  match p.replay i entries with
  | .error flaw => .fail (.delivery (.invalidHistory flaw))
  | .ok node =>
    match node.offer event with
    | none => .pure none
    | some step => record stream (.received event) entries.length (conclude step.1)

/-- One attempt to deliver an event. Yields the conflict if it lost a race. -/
def attempt (p : Definition Ω H I S E R) (i : I) (stream : String) (event : E) :
    Task Ω H E (Option StoreError) :=
  .call (.store (.contains stream)) fun (reply : Except StoreError Bool) =>
    match reply with
    | .error e => storeFault e
    | .ok present =>
      (if present then .pure none else begin p i stream).bind fun conflict =>
        match conflict with
        | some e => .pure (some e)
        | none => history stream (react p i stream event)

/-- Repeats attempts while they lose their races, `left` more times at most. `retries` counts those
that have been made. -/
def retrying (policy : PacedPolicy) (stream : String) (attempt : Task Ω H E (Option StoreError)) :
    (left : Nat) → (retries : UInt32) → Task Ω H E Unit
  | 0, retries =>
    attempt.bind fun conflict =>
      match conflict with
      | none => .unit
      | some _ => .fail (.delivery (.retriesExhausted stream
          (min (retries.toNat + 1) RetryPolicy.countLimit)))
  | left + 1, retries =>
    attempt.bind fun conflict =>
      match conflict with
      | none => .unit
      | some _ =>
        (Effect.suspend (policy.sleep (policy.delay (retries + 1).toNat))).andThen
          (retrying policy stream attempt left (retries + 1))

def deliver (policy : PacedPolicy) (p : Definition Ω H I S E R) (i : I) (stream : String)
    (event : E) : Task Ω H E Unit :=
  retrying policy stream (attempt p i stream event) policy.maxAttempts 0

def start (p : Definition Ω H I S E R) (i : I) (stream : String) : Task Ω H E Unit :=
  (begin p i stream).bind fun conflict =>
    match conflict with
    | none => .unit
    | some e => storeFault e

/-- The node an instance stands at. Without a history that is the node the process starts in. -/
def inspect (p : Definition Ω H I S E R) (i : I) (stream : String) :
    Task Ω H E (Node (requests Ω H E) Failure S E R) :=
  history stream fun entries =>
    if entries.isEmpty then .pure (p.initial i)
    else
      match p.replay i entries with
      | .ok node => .pure node
      | .error flaw => .fail (.delivery (.invalidHistory flaw))

end

def clear (stream : String) : Task Ω H E Unit :=
  .call (.store (.delete stream)) fun (reply : Except StoreError Unit) =>
    match reply with
    | .ok _ => .unit
    | .error e => storeFault e

def followUps [Inhabited S] (policy : PacedPolicy) (p : Definition Ω H I S E R)
    (streamOf : I → String) (f : FollowUp I E) : Task Ω H E Unit :=
  deliver policy p f.target (streamOf f.target) f.event

end Workflow.Delivery

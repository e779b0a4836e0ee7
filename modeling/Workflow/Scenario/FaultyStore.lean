import Workflow.Entry
import Workflow.Store.Memory

/-!
# A store that misbehaves on schedule

A store in memory that can be told to fail, to lose a stream or to gain entries at chosen calls.
It counts its calls by operation and may keep a trace of them.
-/

namespace Workflow.Scenario

inductive Operation where
  | append
  | load
  | contains
  | delete
  deriving DecidableEq, Repr, Inhabited

def Operation.of {T : Type} : StoreCall T → Operation
  | .append .. => append
  | .load .. => load
  | .contains _ => contains
  | .delete _ => delete

def Operation.name : Operation → String
  | append => "append"
  | load => "load"
  | contains => "exists"
  | delete => "delete"

inductive Trouble where
  | conflict (actual : Nat)
  | database (reason : String)
  | serialization (reason : String)
  deriving Repr, Inhabited

/-- What happens at chosen calls: the stream is deleted underneath, entries are added to it
underneath, an error is raised. -/
structure StoreFault where
  operation : Operation
  call : Option Nat
  since : Option Nat
  deletes : Bool
  inserts : List (Entry Data)
  trouble : Option Trouble
  deriving Inhabited

namespace StoreFault

def strikes (fault : StoreFault) (operation : Operation) (number : Nat) : Bool :=
  fault.operation == operation
    && (fault.call == some number || fault.since.any (· ≤ number))

def expected {T : Type} : StoreCall T → Nat
  | .append _ _ expected => expected
  | _ => 0

def error? {T : Type} (call : StoreCall T) (fault : StoreFault) : Option StoreError :=
  fault.trouble.map fun
    | .conflict actual => .concurrency call.stream (expected call) actual
    | .database reason => .database reason
    | .serialization reason => .serialization reason

def tamper (fault : StoreFault) (stream : String) (store : MemoryStore (Entry Data)) :
    MemoryStore (Entry Data) :=
  let store := if fault.deletes then store.erase stream else store
  (store.append stream fault.inserts (store.entries stream).length).2

def strikeAll (call : StoreCall (Entry Data)) :
    List StoreFault → MemoryStore (Entry Data) → Option StoreError × MemoryStore (Entry Data)
  | [], store => (none, store)
  | fault :: rest, store =>
    let store := fault.tamper call.stream store
    match fault.error? call with
    | some error => (some error, store)
    | none => strikeAll call rest store

end StoreFault

structure FaultyStore where
  store : MemoryStore (Entry Data)
  faults : List StoreFault
  traced : Bool
  called : List Operation

namespace FaultyStore

def sound : FaultyStore := ⟨.empty, [], false, []⟩

def trace (call : StoreCall (Entry Data)) : Data :=
  let name := Data.text (Operation.of call).name
  match call with
  | .append stream entries expected =>
    .list [name, .text stream, .list (entries.map (Entry.encode .data)), .nat expected]
  | .load stream after => .list [name, .text stream, (after.map Data.nat).getD .null]
  | .contains stream => .list [name, .text stream]
  | .delete stream => .list [name, .text stream]

def traces (s : FaultyStore) (call : StoreCall (Entry Data)) : List Data :=
  if s.traced then [trace call] else []

def call (s : FaultyStore) (call : StoreCall (Entry Data)) : call.Reply × FaultyStore :=
  let operation := Operation.of call
  let called := operation :: s.called
  let number := called.countP (· == operation)
  match StoreFault.strikeAll call (s.faults.filter (·.strikes operation number)) s.store with
  | (some error, store) => (.error error, { s with store, called })
  | (none, store) =>
    let (reply, store) := MemoryStore.call call store
    (reply, { s with store, called })

end FaultyStore

end Workflow.Scenario

import Workflow.Store.Call

/-!
# The store in memory

Streams are kept in a list of names with their entries. Only an append that passes its version
check and brings entries makes a stream, and deleting takes the name away, so a name always has
entries.
-/

namespace Workflow

structure MemoryStore (T : Type) where
  streams : List (String × List T)

namespace MemoryStore

variable {T : Type}

def empty : MemoryStore T := ⟨[]⟩

def find? (store : MemoryStore T) (stream : String) : Option (List T) :=
  store.streams.lookup stream

def entries (store : MemoryStore T) (stream : String) : List T :=
  (store.find? stream).getD []

def putStream (stream : String) (entries : List T) :
    List (String × List T) → List (String × List T)
  | [] => [(stream, entries)]
  | s :: rest =>
    if s.1 = stream then (stream, entries) :: rest else s :: putStream stream entries rest

def put (store : MemoryStore T) (stream : String) (entries : List T) : MemoryStore T :=
  ⟨putStream stream entries store.streams⟩

def erase (store : MemoryStore T) (stream : String) : MemoryStore T :=
  ⟨store.streams.filter (·.1 ≠ stream)⟩

def append (store : MemoryStore T) (stream : String) (new : List T) (expected : Nat) :
    Except StoreError Nat × MemoryStore T :=
  match store.find? stream with
  | none =>
    if expected ≠ 0 then (.error (.concurrency stream expected 0), store)
    else if new.isEmpty then (.ok 0, store)
    else (.ok new.length, store.put stream new)
  | some stored =>
    if stored.length ≠ expected then
      (.error (.concurrency stream expected stored.length), store)
    else (.ok (stored.length + new.length), store.put stream (stored ++ new))

def call : (q : StoreCall T) → MemoryStore T → q.Reply × MemoryStore T
  | .append stream new expected, store => store.append stream new expected
  | .load stream after, store => (.ok ((store.entries stream).drop (after.getD 0)), store)
  | .contains stream, store => (.ok (!(store.entries stream).isEmpty), store)
  | .delete stream, store => (.ok (), store.erase stream)

end MemoryStore

end Workflow

import Workflow.Data
import Workflow.Store.Memory

/-!
# Storage scenarios

Calls on a store in memory, step by step. A call may be kept under a name and made later, as
often as wanted. Entries are any data values.
-/

namespace Workflow.Scenario

inductive StorageStep where
  | call (call : StoreCall Data)
  | hold (name : String) (call : StoreCall Data)
  | run (name : String)

structure StorageReply where
  call : StoreCall Data
  reply : call.Reply

abbrev StorageReport := Option StorageReply

def storageCall (store : MemoryStore Data) (call : StoreCall Data) :
    StorageReport × MemoryStore Data :=
  let (reply, store) := MemoryStore.call call store
  (some ⟨call, reply⟩, store)

def storageSteps (held : List (String × StoreCall Data)) (store : MemoryStore Data) :
    List StorageStep → List StorageReport
  | [] => []
  | .call call :: rest =>
    let (report, store) := storageCall store call
    report :: storageSteps held store rest
  | .hold name call :: rest => none :: storageSteps ((name, call) :: held) store rest
  | .run name :: rest =>
    let (report, store) :=
      match held.lookup name with
      | some call => storageCall store call
      | none => (none, store)
    report :: storageSteps held store rest

def storage (steps : List StorageStep) : List StorageReport :=
  storageSteps [] .empty steps

end Workflow.Scenario

/-!
# Instances

An instance of a process is named by the process and a key. Its text is `process/key`, its
stream `process-key`. The name of a process holds no slash in a text that is read back, a key may
hold any number of them.
-/

namespace Workflow

inductive IdError where
  | malformed (text : String)
  | empty (part : String)
  deriving DecidableEq, Repr, Inhabited

def IdError.message : IdError → String
  | malformed text => "invalid instance id '" ++ text ++ "': expected '<process>/<key>'"
  | empty part => "invalid instance id: empty " ++ part

class Instance (I : Type) where
  processName : I → String

structure InstanceId where
  process : String
  key : String
  deriving DecidableEq, Repr, Inhabited

namespace InstanceId

instance : Instance InstanceId := ⟨InstanceId.process⟩

def text (id : InstanceId) : String :=
  id.process ++ "/" ++ id.key

def stream (id : InstanceId) : String :=
  id.process ++ "-" ++ id.key

/-- Reads `process/key`, split at the first slash. Both parts must be there, and the process is
looked at first. -/
def parse (s : String) : Except IdError InstanceId :=
  match s.toList.dropWhile (· ≠ '/') with
  | [] => .error (.malformed s)
  | _ :: key =>
    let process := s.toList.takeWhile (· ≠ '/')
    if process = [] then .error (.empty "process name")
    else if key = [] then .error (.empty "key")
    else .ok ⟨String.ofList process, String.ofList key⟩

end InstanceId

end Workflow

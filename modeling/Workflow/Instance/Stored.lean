import Workflow.Data
import Workflow.Instance

/-!
# Stored instances

An instance as a data value: a record of its process and its key. It is read back from such a
record, whose other fields are ignored, or from a list of the two. Main statement:
`InstanceId.decode_encode`.
-/

namespace Workflow.InstanceId

def encode (id : InstanceId) : Data :=
  .record [("key", .text id.key), ("process_name", .text id.process)]

def decode : Data → Option InstanceId
  | .record fields =>
    match fields.lookup "process_name", fields.lookup "key" with
    | some (.text process), some (.text key) => some ⟨process, key⟩
    | _, _ => none
  | .list [.text process, .text key] => some ⟨process, key⟩
  | _ => none

theorem decode_encode (id : InstanceId) : decode (encode id) = some id := by
  rfl

end Workflow.InstanceId

import Workflow.Data

/-!
# Stream entries

A stream holds the sentinel that marks its start and the events that moved its instance on. An
entry is stored as a record whose `type` tells which it is. Main statement: `Entry.decode_encode`,
an entry read back is the entry that was stored.
-/

namespace Workflow

structure Codec (E : Type) where
  encode : E → Data
  decode : Data → Option E

namespace Codec

def data : Codec Data := ⟨id, some⟩

def word : Codec Int where
  encode := .int
  decode
    | .int n => if Word.fits n then some n else none
    | _ => none

def text : Codec String where
  encode := .text
  decode
    | .text s => some s
    | _ => none

end Codec

inductive Entry (E : Type) where
  | started
  | received (event : E)
  deriving DecidableEq, Repr, Inhabited

namespace Entry

variable {E : Type}

def isStart : Entry E → Bool
  | started => true
  | received _ => false

def event? : Entry E → Option E
  | started => none
  | received e => some e

def type : Entry E → String
  | started => "ProcessStarted"
  | received _ => "EventReceived"

def encode (codec : Codec E) : Entry E → Data
  | started => .record [("type", .text "ProcessStarted")]
  | received e => .record [("event", codec.encode e), ("type", .text "EventReceived")]

/-- Reads an entry from a record, whose other fields than `type` and, for an event, `event` are
ignored, or from a list of the type and, for an event, the event. -/
def decode (codec : Codec E) (d : Data) : Option (Entry E) :=
  match d with
  | .list [.text "ProcessStarted"] => some started
  | .list [.text "EventReceived", event] => (codec.decode event).map received
  | _ =>
    match d.field? "type" with
    | some (.text "ProcessStarted") => some started
    | some (.text "EventReceived") => ((d.field? "event").bind codec.decode).map received
    | _ => none

/-- The tag stored beside an entry: the `type` of the event it carries, else its own `type`, else
`Unknown`. -/
def tag (payload : Data) : String :=
  match (payload.field? "event").bind (Data.field? "type") with
  | some (.text t) => t
  | _ =>
    match payload.field? "type" with
    | some (.text t) => t
    | _ => "Unknown"

theorem decode_encode (codec : Codec E) (h : ∀ e, codec.decode (codec.encode e) = some e) :
    ∀ entry : Entry E, decode codec (encode codec entry) = some entry
  | started => by rfl
  | received e => by
    have hf : (encode codec (received e)).field? "type" = some (.text "EventReceived") := by rfl
    have he : (encode codec (received e)).field? "event" = some (codec.encode e) := by rfl
    simp only [decode, encode] at *
    simp [hf, he, h]

end Entry

end Workflow

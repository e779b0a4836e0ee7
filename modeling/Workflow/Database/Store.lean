import Workflow.Database.Statement
import Workflow.Entry
import Workflow.Store.Call

/-!
# The store on a database

Each entry is one row. An append is one transaction: it reads the stream's version, goes back if
that is not the expected one, inserts a row for each entry and commits. A row whose key was taken
in between is a lost race as well. Loading gives all entries or, at the first that cannot be
decoded, none.
-/

namespace Workflow.Database

structure EntryCodec (T : Type) where
  encode : T → Except String Data
  decode : Data → Except String T

def EntryCodec.ofEvents {E : Type} (codec : Codec E) : EntryCodec (Entry E) where
  encode entry := .ok (entry.encode codec)
  decode d :=
    match Entry.decode codec d with
    | some entry => .ok entry
    | none => .error "no stream entry"

/-- Versions are stored in signed 64-bit words. -/
def versionLimit : Nat := Word.half64

def versionParameter (version : Nat) : Query Int :=
  if version < versionLimit then .pure version
  else .fail (.database ("stream version " ++ Nat.repr version ++ " out of range"))

/-- A version as it is read from a row. None is below 0. -/
def storedVersion (version : Int) : Nat := version.toNat

def ensureSchema : Query Unit :=
  Query.send "ensure_schema" .createTable

/-! ## Appending -/

/-- Gives up a transaction: goes back, whatever becomes of that, and fails. -/
def abandon {α : Type} (error : StoreError) : Query α :=
  .call .rollback fun _ => .fail error

def orAbandon {α : Type} (work : Query α) : Query α :=
  work.recover abandon

def readVersion (stream : String) : Query Nat :=
  (Query.send "current_version" (.currentVersion stream)).bind fun (column : Column Int) =>
    (Query.read "current_version" column).map storedVersion

def insertEntry (stream : String) (expected version : Nat) (payload : Data) : Query Unit :=
  (versionParameter version).bind fun parameter =>
    .call (.insert ⟨stream, parameter, Entry.tag payload, payload⟩)
      fun (reply : Except Fault Unit) =>
        match reply with
        | .ok _ => .unit
        | .error fault =>
          if fault.isUniqueViolation then .fail (.concurrency stream expected version)
          else .fail (fault.report "insert_entry")

def insertAll (stream : String) (expected version : Nat) : List Data → Query Nat
  | [] => .pure version
  | payload :: rest =>
    (insertEntry stream expected (version + 1) payload).andThen
      (insertAll stream expected (version + 1) rest)

def refuse (stream : String) (expected actual : Nat) : Query Nat :=
  (Query.send "rollback" .rollback).bind fun _ => .fail (.concurrency stream expected actual)

def insertAndCommit (stream : String) (expected : Nat) (payloads : List Data) : Query Nat :=
  orAbandon <| (insertAll stream expected expected payloads).bind fun version =>
    (Query.send "commit_transaction" .commit).map fun _ => version

def appendPayloads (stream : String) (payloads : List Data) (expected : Nat) : Query Nat :=
  (Query.send "begin_transaction" .begin).bind fun _ =>
    (orAbandon (readVersion stream)).bind fun current =>
      if current = expected then insertAndCommit stream expected payloads
      else refuse stream expected current

variable {T : Type}

def encodeAll (codec : EntryCodec T) (entries : List T) : Except String (List Data) :=
  entries.mapM codec.encode

def append (codec : EntryCodec T) (stream : String) (entries : List T) (expected : Nat) :
    Query Nat :=
  match encodeAll codec entries with
  | .error reason => .fail (.serialization reason)
  | .ok payloads => appendPayloads stream payloads expected

/-! ## Reading -/

def readRows : List (Column Row) → Query (List Row)
  | [] => .pure []
  | column :: rest =>
    (Query.read "entry row" column).bind fun row => (readRows rest).map (row :: ·)

def loadRows (stream : String) (after : Option Nat) : Query (List Row) :=
  (versionParameter (after.getD 0)).bind fun _ =>
    (Query.send "load_stream" (.load stream (after.getD 0))).bind readRows

def decodeRow (codec : EntryCodec T) (row : Row) : Except StoreError T :=
  (codec.decode row.payload).mapError fun reason =>
    .serialization ("entry " ++ Nat.repr (storedVersion row.version) ++ " of stream '"
      ++ row.stream ++ "': " ++ reason)

def load (codec : EntryCodec T) (stream : String) (after : Option Nat) : Query (List T) :=
  (loadRows stream after).bind fun rows => .ofExcept (rows.mapM (decodeRow codec))

def contains (stream : String) : Query Bool :=
  (Query.send "stream_exists" (.contains stream)).bind fun (column : Column Bool) =>
    Query.read "stream_exists" column

def delete (stream : String) : Query Unit :=
  Query.send "delete_stream" (.delete stream)

def query (codec : EntryCodec T) : (call : StoreCall T) → Query call.Answer
  | .append stream entries expected => append codec stream entries expected
  | .load stream after => load codec stream after
  | .contains stream => contains stream
  | .delete stream => delete stream

end Workflow.Database

import Workflow.Decimal
import Workflow.Word

/-!
# Data values

`Data` is what events, domain states, results and stored payloads are made of. Main statement:
`Data.same_iff`, by which equality of data values is decidable.
-/

namespace Workflow

/-- A data value. A record made by `Data.ofFields` or `Data.withField` keeps its fields in
increasing order of their names, each name once. -/
inductive Data where
  | null
  | bool (b : Bool)
  | int (n : Int)
  | decimal (d : Decimal)
  | text (s : String)
  | list (items : List Data)
  | record (fields : List (String × Data))
  deriving Repr, Inhabited

namespace Data

/-! ## Equality -/

mutual

def same : Data → Data → Bool
  | null, null => true
  | bool a, bool b => a == b
  | int m, int n => m == n
  | decimal d, decimal e => d == e
  | text s, text t => s == t
  | list xs, list ys => sameItems xs ys
  | record fs, record gs => sameFields fs gs
  | _, _ => false

def sameItems : List Data → List Data → Bool
  | [], [] => true
  | x :: xs, y :: ys => same x y && sameItems xs ys
  | _, _ => false

def sameFields : List (String × Data) → List (String × Data) → Bool
  | [], [] => true
  | (k, x) :: fs, (l, y) :: gs => (k == l && same x y) && sameFields fs gs
  | _, _ => false

end

mutual

theorem same_iff : ∀ a b : Data, same a b = true ↔ a = b
  | null, b => by cases b <;> simp [same]
  | bool _, b => by cases b <;> simp [same]
  | int _, b => by cases b <;> simp [same]
  | decimal _, b => by cases b <;> simp [same]
  | text _, b => by cases b <;> simp [same]
  | list xs, b => by cases b <;> simp [same, sameItems_iff xs]
  | record fs, b => by cases b <;> simp [same, sameFields_iff fs]

theorem sameItems_iff : ∀ xs ys : List Data, sameItems xs ys = true ↔ xs = ys
  | [], ys => by cases ys <;> simp [sameItems]
  | x :: xs, ys => by cases ys <;> simp [sameItems, same_iff x, sameItems_iff xs]

theorem sameFields_iff : ∀ fs gs : List (String × Data), sameFields fs gs = true ↔ fs = gs
  | [], gs => by cases gs <;> simp [sameFields]
  | (k, x) :: fs, gs => by
    cases gs with
    | nil => simp [sameFields]
    | cons g gs => simp [sameFields, same_iff x, sameFields_iff fs, Prod.ext_iff]

end

instance : DecidableEq Data := fun a b => decidable_of_iff (same a b = true) (same_iff a b)

/-! ## Reading -/

def field? (name : String) : Data → Option Data
  | record fields => fields.lookup name
  | _ => none

def item? (i : Int) : Data → Option Data
  | list items => if i < 0 then none else items[i.toNat]?
  | _ => none

def items : Data → List Data
  | list items => items
  | _ => []

def fields : Data → List (String × Data)
  | record fields => fields
  | _ => []

def toInt : Data → Int
  | int n => if Word.fits n then n else 0
  | _ => 0

def holds : Data → Bool
  | bool b => b
  | _ => false

def length : Data → Nat
  | list items => items.length
  | text s => s.length
  | record fields => fields.length
  | _ => 0

/-! ## Building -/

def putField (name : String) (value : Data) : List (String × Data) → List (String × Data)
  | [] => [(name, value)]
  | (k, v) :: rest =>
    if name < k then (name, value) :: (k, v) :: rest
    else if name = k then (name, value) :: rest
    else (k, v) :: putField name value rest

/-- A record of these fields. Of two fields with one name the later counts. -/
def ofFields (fields : List (String × Data)) : Data :=
  record (fields.foldl (fun acc f => putField f.1 f.2 acc) [])

/-- The record with one field set. A value that is no record counts as the empty record. -/
def withField (d : Data) (name : String) (value : Data) : Data :=
  record (putField name value d.fields)

def push (d value : Data) : Data :=
  list (d.items ++ [value])

def nat (n : Nat) : Data :=
  int n

end Data

end Workflow

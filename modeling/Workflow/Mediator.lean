import Workflow.Instance

/-!
# Mediators

A mediator is the table of handlers that follow-up events are routed by. A handler is registered
under a key; the follow-up events of a process have the key `process.enqueueEvent`. Handlers are
names here, and the host says what a handler does.
-/

namespace Workflow

structure FollowUp (I E : Type) where
  target : I
  event : E

def followUpKey (process : String) : String :=
  process ++ ".enqueueEvent"

def FollowUp.key {I E : Type} [Instance I] (f : FollowUp I E) : String :=
  followUpKey (Instance.processName f.target)

/-- A table of handlers. The handler registered last under a key stands first. -/
structure Mediator (H : Type) where
  handlers : List (String × H)

namespace Mediator

variable {H : Type}

def empty : Mediator H := ⟨[]⟩

def register (m : Mediator H) (key : String) (handler : H) : Mediator H :=
  ⟨(key, handler) :: m.handlers.filter (·.1 ≠ key)⟩

def onFollowUp (m : Mediator H) (process : String) (handler : H) : Mediator H :=
  m.register (followUpKey process) handler

def handler? (m : Mediator H) (key : String) : Option H :=
  m.handlers.lookup key

def keys (m : Mediator H) : List String :=
  (m.handlers.map (·.1)).mergeSort (· ≤ ·)

def route {I E F : Type} [Instance I] (serve : H → FollowUp I E → F) (dropped : F)
    (m : Mediator H) (f : FollowUp I E) : F :=
  match m.handler? f.key with
  | some handler => serve handler f
  | none => dropped

end Mediator

end Workflow

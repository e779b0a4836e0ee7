import Workflow.Host
import Workflow.Store.Memory
import Workflow.Proofs.Effect.Run

/-!
# A host with its store in memory

The world outside has acts, a mediator and a clock; beside it stands a store in memory. An effect that
only acts runs as it would in the world outside alone and leaves the store as it is.
-/

namespace Workflow

universe u

/-- All of a host but its store. -/
structure Outside (Ω : Signature) (H V : Type) where
  act : Answers Ω V
  mediator : V → Mediator H
  wait : Duration → V → V

def Request.IsAct {Ω : Signature} {H E : Type} : Request Ω H E → Prop
  | .act _ => True
  | _ => False

namespace Outside

variable {Ω : Signature} {H E V : Type} {α : Type u} (o : Outside Ω H V)

def host : Host (requests Ω H E) (V × MemoryStore (Entry E)) :=
  HostParts.host {
    act := fun op w => (o.act op w.1).map fun answered => (answered.1, answered.2, w.2)
    store := fun call w => ((MemoryStore.call call w.2).1, w.1, (MemoryStore.call call w.2).2)
    mediator := fun w => o.mediator w.1
    wait := fun time w => (o.wait time w.1, w.2) }

def alone : Host (requests Ω H E) V where
  answer
    | .act op, v => o.act op v
    | _, _ => none
  wait := o.wait

theorem answer_store (call : StoreCall (Entry E)) (v : V) (store : MemoryStore (Entry E)) :
    o.host.answer (.store call) (v, store) =
      some ((MemoryStore.call call store).1, v, (MemoryStore.call call store).2) := rfl

theorem answer_act (op : Ω.Op) (v : V) (store : MemoryStore (Entry E)) :
    (o.host (E := E)).answer (.act op) (v, store) =
      (o.act op v).map fun answered => (answered.1, answered.2, store) := rfl

theorem store_of_act {o : Outside Ω H V} {op : Ω.Op} {x : Ω.Answer op} {w w' : V × MemoryStore (Entry E)}
    (ha : o.host.answer (.act op) w = some (x, w')) : w'.2 = w.2 := by
  obtain ⟨answered, -, h⟩ := Option.map_eq_some_iff.mp ha
  obtain ⟨-, rfl⟩ := Prod.mk.inj h
  rfl

theorem run_of_acts {e : Task Ω H E α} (h : e.Asks Request.IsAct) (v : V) (store : MemoryStore (Entry E)) :
    e.run o.host (v, store) = ((e.run o.alone v).1, (e.run o.alone v).2, store) := by
  induction e generalizing v with
  | pure a => rfl
  | fail err => rfl
  | pause time next ih => exact ih h (o.wait time v)
  | call op next ih =>
    cases op with
    | act op =>
      rw [Effect.run_call, Effect.run_call, answer_act]
      cases ha : o.act op v with
      | none => simp [alone, ha]
      | some answered => simp [alone, ha, ih answered.1 (h.2 answered.1)]
    | store call => exact h.1.elim
    | mediator => exact h.1.elim
    | nestedTooDeep => exact h.1.elim

end Outside

end Workflow

import Workflow.Effect.Basic

/-!
# Running effects

A `Host` answers questions, lets time pass and keeps a state. `run` walks an effect down to its
outcome, and `pausesOf` counts the pauses on the same way. A host may refuse to answer, which
stops the run where it is.
-/

namespace Workflow

universe u

inductive Outcome (ε : Type) (α : Type u) where
  | done (value : α)
  | failed (error : ε)
  | stopped

abbrev Answers (σ : Signature) (W : Type) :=
  (op : σ.Op) → W → Option (σ.Answer op × W)

structure Host (σ : Signature) (W : Type) where
  answer : Answers σ W
  wait : Duration → W → W

namespace Effect

variable {σ : Signature} {ε : Type} {α : Type u} {W : Type}

def run (host : Host σ W) : Effect σ ε α → W → Outcome ε α × W
  | pure a, w => (.done a, w)
  | fail e, w => (.failed e, w)
  | call op next, w =>
    match host.answer op w with
    | none => (.stopped, w)
    | some (x, w') => run host (next x) w'
  | pause time next, w => run host next (host.wait time w)

def pausesOf (host : Host σ W) : Effect σ ε α → W → Nat
  | pure _, _ => 0
  | fail _, _ => 0
  | call op next, w =>
    match host.answer op w with
    | none => 0
    | some (x, w') => pausesOf host (next x) w'
  | pause time next, w => pausesOf host next (host.wait time w) + 1

@[simp] theorem run_pure (host : Host σ W) (a : α) (w : W) :
    run host (pure a : Effect σ ε α) w = (.done a, w) := rfl

@[simp] theorem run_fail (host : Host σ W) (e : ε) (w : W) :
    run host (fail e : Effect σ ε α) w = (.failed e, w) := rfl

@[simp] theorem run_pause (host : Host σ W) (time : Duration) (e : Effect σ ε α) (w : W) :
    run host (pause time e) w = run host e (host.wait time w) := rfl

end Effect

end Workflow

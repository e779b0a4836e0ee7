import Workflow.Process.Basic
import Workflow.Proofs.Node.Walk

/-!
# Walks of a process

Where a process stands after the first events of a list. What has come to its end stands still.
-/

namespace Workflow.Process

variable {σ : Signature} {ε I S E R : Type}

/-- The node that a process has reached for an instance after the first `n` events. -/
def walk (p : Process σ ε I S E R) (i : I) (s : S) (events : List E) (n : Nat) : Node σ ε S E R :=
  (p.run i s).2.advanceAll (events.take n)

theorem walk_of_le (p : Process σ ε I S E R) (i : I) (s : S) (events : List E) {m n : Nat} (h : m ≤ n) :
    p.walk i s events n = (p.walk i s events m).advanceAll ((events.drop m).take (n - m)) := by
  obtain ⟨d, rfl⟩ := Nat.exists_eq_add_of_le h
  unfold walk
  rw [← Node.advanceAll_append, List.take_add, Nat.add_sub_cancel_left]

section
variable {p : Process σ ε I S E R} {i : I} {s : S} {events : List E} {m n : Nat}

theorem walk_of_terminal (h : m ≤ n) (ht : (p.walk i s events m).isTerminal) :
    p.walk i s events n = p.walk i s events m := by
  rw [walk_of_le p i s events h, Node.advanceAll_of_terminal ht]

theorem walk_of_failed (h : m ≤ n) (hf : (p.walk i s events m).Failed) :
    p.walk i s events n = p.walk i s events m :=
  walk_of_terminal h hf.isTerminal

theorem failed_walk (h : m ≤ n) (hf : (p.walk i s events m).Failed) : (p.walk i s events n).Failed := by
  rw [walk_of_failed h hf]; exact hf

theorem succeeded_walk (h : m ≤ n) (hk : (p.walk i s events m).kind = .succeeded) :
    (p.walk i s events n).kind = .succeeded := by
  have ht : (p.walk i s events m).isTerminal := by unfold Node.isTerminal; rw [hk]; rfl
  rw [walk_of_terminal h ht]; exact hk

end

end Workflow.Process

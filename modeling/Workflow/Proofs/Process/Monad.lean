import Workflow.Proofs.Process.Sequential

/-!
# The monad of processes

Processes that look alike for every instance and initial state cannot be told apart by events and runs of
their effects. Up to that they form a monad: `bind_laws`. `map` goes its own way and is `bind` with `pure` all
the same.
-/

namespace Workflow

open Node Node.Follow

variable {σ : Signature} {ε I S E R R' R'' : Type}

structure Step.Alike (a b : Step σ ε S E R) : Prop where
  effect : a.1.Alike b.1
  node : a.2.Alike b.2

theorem Step.Alike.symm {a b : Step σ ε S E R} (h : Step.Alike a b) : Step.Alike b a :=
  ⟨h.effect.symm, h.node.symm⟩

theorem Step.Alike.trans {a b c : Step σ ε S E R} (h : Step.Alike a b) (h' : Step.Alike b c) : Step.Alike a c :=
  ⟨h.effect.trans h'.effect, h.node.trans h'.node⟩

theorem Node.map_id (n : Node σ ε S E R) : n.map id = n := by
  have hlook : (fun p => (n.look p).map id) = n.look := by
    funext p
    cases n.look p <;> rfl
  unfold map
  rw [hlook]

namespace Process

def Alike (p q : Process σ ε I S E R) : Prop :=
  ∀ i s, Step.Alike (p.run i s) (q.run i s)

namespace Alike

variable {p q r : Process σ ε I S E R}

theorem of_eq (h : p = q) : p.Alike q := by
  subst h
  exact fun i s => ⟨.of_eq rfl, .of_eq rfl⟩

theorem symm (h : p.Alike q) : q.Alike p :=
  fun i s => (h i s).symm

theorem trans (h : p.Alike q) (h' : q.Alike r) : p.Alike r :=
  fun i s => (h i s).trans (h' i s)

end Alike

theorem pure_bind (v : R) (f : R → Process σ ε I S E R') : ((pure v).bind f).Alike (f v) := by
  intro i s
  have hresult : ((Node.succeeded s v : Node σ ε S E R).moveTo ()).result? = some (s, v) := rfl
  rw [run_bind_eq]
  refine ⟨.of_eq ?_, within_alike hresult⟩
  exact (joined_of_result hresult .unit).trans (Effect.pure_bind ..)

theorem map_eq_bind_pure (p : Process σ ε I S E R) (h : R → R') : (p.map h).Alike (p.bind fun x => pure (h x)) := by
  intro i s
  rw [run_bind_eq]
  refine ⟨.of_eq ?_, (carries_map h (p.run i s).2).alike (p.run i s).2.here⟩
  exact (joined_yielding h (p.run i s).2 _ _).symm

theorem bind_pure (p : Process σ ε I S E R) : (p.bind pure).Alike p := by
  intro i s
  have hmap : p.map id = p := by unfold map; simp only [Node.map_id]
  have halike := map_eq_bind_pure p id i s
  rw [hmap] at halike
  exact halike.symm

theorem bind_assoc (p : Process σ ε I S E R) (f : R → Process σ ε I S E R') (g : R' → Process σ ε I S E R'') :
    ((p.bind f).bind g).Alike (p.bind fun x => (f x).bind g) := by
  intro i s
  rw [run_bind_eq, run_bind_eq, run_bind_eq]
  have heffect := joined_assoc (p.run i s).2 (continuing f i) (continuing g i) (p.run i s).1 (p.run i s).2.here
  have hplace := landing_assoc (p.run i s).2 (continuing f i) (continuing g i) (p.run i s).2.here
  have hnode := (carries_assoc (p.run i s).2 (continuing f i) (continuing g i)).alike
    (landing (p.run i s).2 (inTurn (continuing f i) (continuing g i)) (p.run i s).2.here)
  rw [← hplace] at hnode
  exact ⟨.of_eq heffect, hnode.symm⟩

theorem bind_laws :
    (∀ (v : R) (f : R → Process σ ε I S E R'), ((pure v).bind f).Alike (f v)) ∧
    (∀ p : Process σ ε I S E R, (p.bind pure).Alike p) ∧
    (∀ (p : Process σ ε I S E R) (f : R → Process σ ε I S E R') (g : R' → Process σ ε I S E R''),
      ((p.bind f).bind g).Alike (p.bind fun x => (f x).bind g)) ∧
    ∀ (p : Process σ ε I S E R) (h : R → R'), (p.map h).Alike (p.bind fun x => pure (h x)) :=
  ⟨pure_bind, bind_pure, bind_assoc, map_eq_bind_pure⟩

end Process

end Workflow

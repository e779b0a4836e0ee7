import Mathlib.Logic.Equiv.Prod
import Workflow.Proofs.Node.Alike
import Workflow.Proofs.Node.Zip

/-!
# Nodes side by side as a product

`zip` is associative up to the grouping of the pairs (`zip_assoc`), a branch that has succeeded only adds its value and
state to those of the other (`zip_of_succeeded`, `zip_succeeded`), and mapping both branches maps the pairs (`map_zip_map`,
`mapState_zip_mapState`). Main statement: `zip_laws`.
-/

namespace Workflow

variable {σ : Signature} {ε S S' S'' T T' E R R' R'' Q Q' P P' P'' : Type}

/-! ## Stages -/

namespace Stage

theorem bothSteps_assoc (p : P) (p' : P') (p'' : P'') (x : Option (Effect σ ε Unit × P))
    (y : Option (Effect σ ε Unit × P')) (z : Option (Effect σ ε Unit × P'')) :
    (bothSteps (p, p') p'' (bothSteps p p' x y) z).map (fun step => (step.1, Equiv.prodAssoc P P' P'' step.2)) =
      bothSteps p (p', p'') x (bothSteps p' p'' y z) := by
  cases x <;> cases y <;> cases z <;> simp [bothSteps, Effect.andThen, Effect.bind_assoc]

theorem bothSteps_none_left (p : P) (p' : P') (y : Option (Effect σ ε Unit × P')) :
    bothSteps p p' none y = y.map fun step => (step.1, (p, step.2)) := by
  cases y <;> rfl

theorem bothSteps_none_right (p : P) (p' : P') (x : Option (Effect σ ε Unit × P)) :
    bothSteps p p' x none = x.map fun step => (step.1, (step.2, p')) := by
  cases x <;> rfl

theorem zip_assoc (p : P) (p' : P') (p'' : P'') (a : Stage σ ε S E R P) (b : Stage σ ε S' E R' P')
    (c : Stage σ ε S'' E R'' P'') :
    (((zip (p, p') p'' (zip p p' a b) c).map (Equiv.prodAssoc R R' R'')).mapState (Equiv.prodAssoc S S' S'')).move
        (Equiv.prodAssoc P P' P'') =
      zip p (p', p'') a (zip p' p'' b c) := by
  -- unless all have succeeded or one has failed, either grouping offers an event to all three
  have hsteps e := bothSteps_assoc p p' p'' (a.offer e) (b.offer e) (c.offer e)
  cases a <;> cases b <;> cases c <;> first | rfl | exact congrArg (inProgress _) (funext hsteps)

theorem zip_of_succeeded (p : P) (p' : P') (s : S) (v : R) (b : Stage σ ε S' E R' P') :
    zip p p' (.succeeded s v) b = ((b.map (Prod.mk v)).mapState (Prod.mk s)).move (Prod.mk p) := by
  cases b with
  | inProgress s' next => exact congrArg (inProgress _) (funext fun e => bothSteps_none_left p p' (next e))
  | _ => rfl

theorem zip_succeeded (p : P) (p' : P') (s' : S') (v' : R') (a : Stage σ ε S E R P) :
    zip p p' a (.succeeded s' v') = ((a.map (·, v')).mapState (·, s')).move (·, p') := by
  cases a with
  | inProgress s next => exact congrArg (inProgress _) (funext fun e => bothSteps_none_right p p' (next e))
  | _ => rfl

theorem map_zip_map (p : P) (p' : P') (f : R → Q) (g : R' → Q') (a : Stage σ ε S E R P) (b : Stage σ ε S' E R' P') :
    zip p p' (a.map f) (b.map g) = (zip p p' a b).map (Prod.map f g) := by
  cases a <;> cases b <;> rfl

theorem mapState_zip_mapState (p : P) (p' : P') (f : S → T) (g : S' → T') (a : Stage σ ε S E R P)
    (b : Stage σ ε S' E R' P') :
    zip p p' (a.mapState f) (b.mapState g) = (zip p p' a b).mapState (Prod.map f g) := by
  cases a <;> cases b <;> rfl

end Stage

/-! ## Nodes -/

namespace Node

theorem stage_of_value? {n : Node σ ε S E R} {v : R} (h : n.value? = some v) : n.stage = .succeeded n.state v := by
  unfold value? at h
  unfold state
  cases hs : n.stage with
  | succeeded s v' =>
    rw [hs] at h
    obtain rfl : v' = v := Option.some.inj h
    rfl
  | _ => rw [hs] at h; cases h

theorem zip_assoc (a : Node σ ε S E R) (b : Node σ ε S' E R') (c : Node σ ε S'' E R'') :
    ((((a.zip b).zip c).map (Equiv.prodAssoc R R' R'')).mapState (Equiv.prodAssoc S S' S'')).Alike
      (a.zip (b.zip c)) := by
  have hcarries : Carries ((((a.zip b).zip c).map (Equiv.prodAssoc R R' R'')).mapState (Equiv.prodAssoc S S' S''))
      (a.zip (b.zip c)) (Equiv.prodAssoc a.Place b.Place c.Place) :=
    fun q => (Stage.zip_assoc q.1.1 q.1.2 q.2 (a.look q.1.1) (b.look q.1.2) (c.look q.2)).symm
  exact hcarries.alike ((a.here, b.here), c.here)

theorem zip_of_succeeded {a : Node σ ε S E R} {v : R} (h : a.value? = some v) (b : Node σ ε S' E R') :
    (a.zip b).Alike ((b.map (Prod.mk v)).mapState (Prod.mk a.state)) := by
  have hstage : a.look a.here = .succeeded a.state v := stage_of_value? h
  have hcarries : Carries ((b.map (Prod.mk v)).mapState (Prod.mk a.state)) (a.zip b) (Prod.mk a.here) := by
    intro q
    show Stage.zip a.here q (a.look a.here) (b.look q) = _
    rw [hstage]
    exact Stage.zip_of_succeeded a.here q a.state v (b.look q)
  exact (hcarries.alike b.here).symm

theorem zip_succeeded (a : Node σ ε S E R) {b : Node σ ε S' E R'} {v' : R'} (h : b.value? = some v') :
    (a.zip b).Alike ((a.map (·, v')).mapState (·, b.state)) := by
  have hstage : b.look b.here = .succeeded b.state v' := stage_of_value? h
  have hcarries : Carries ((a.map (·, v')).mapState (·, b.state)) (a.zip b) (·, b.here) := by
    intro q
    show Stage.zip q b.here (a.look q) (b.look b.here) = _
    rw [hstage]
    exact Stage.zip_succeeded q b.here b.state v' (a.look q)
  exact (hcarries.alike a.here).symm

theorem map_zip_map (f : R → Q) (g : R' → Q') (a : Node σ ε S E R) (b : Node σ ε S' E R') :
    (a.map f).zip (b.map g) = (a.zip b).map (Prod.map f g) := by
  have hlook : ((a.map f).zip (b.map g)).look = ((a.zip b).map (Prod.map f g)).look := by
    funext q
    exact Stage.map_zip_map q.1 q.2 f g (a.look q.1) (b.look q.2)
  exact congrArg (Node.mk (a.Place × b.Place) (a.here, b.here)) hlook

theorem mapState_zip_mapState (f : S → T) (g : S' → T') (a : Node σ ε S E R) (b : Node σ ε S' E R') :
    (a.mapState f).zip (b.mapState g) = (a.zip b).mapState (Prod.map f g) := by
  have hlook : ((a.mapState f).zip (b.mapState g)).look = ((a.zip b).mapState (Prod.map f g)).look := by
    funext q
    exact Stage.mapState_zip_mapState q.1 q.2 f g (a.look q.1) (b.look q.2)
  exact congrArg (Node.mk (a.Place × b.Place) (a.here, b.here)) hlook

/-- Nodes side by side form a product: the grouping does not count, also not for whose error is seen when several
branches fail on one event. What has succeeded takes no part any more, and maps go into the branches. -/
theorem zip_laws :
    (∀ {S S' S'' R R' R'' : Type} (a : Node σ ε S E R) (b : Node σ ε S' E R') (c : Node σ ε S'' E R''),
      ((((a.zip b).zip c).map (Equiv.prodAssoc R R' R'')).mapState (Equiv.prodAssoc S S' S'')).Alike
        (a.zip (b.zip c))) ∧
    (∀ {S S' R R' : Type} (a : Node σ ε S E R) (b : Node σ ε S' E R'),
      (∀ v, a.value? = some v → (a.zip b).Alike ((b.map (v, ·)).mapState (a.state, ·))) ∧
      ∀ v', b.value? = some v' → (a.zip b).Alike ((a.map (·, v')).mapState (·, b.state))) ∧
    ∀ {S S' R R' : Type} (a : Node σ ε S E R) (b : Node σ ε S' E R'),
      (∀ {Q Q' : Type} (f : R → Q) (g : R' → Q'),
        ((a.map f).zip (b.map g)).Alike ((a.zip b).map (Prod.map f g))) ∧
      ∀ {T T' : Type} (f : S → T) (g : S' → T'),
        ((a.mapState f).zip (b.mapState g)).Alike ((a.zip b).mapState (Prod.map f g)) := by
  refine ⟨zip_assoc, fun a b => ⟨?_, ?_⟩, fun a b => ⟨?_, ?_⟩⟩
  · intro v h
    exact zip_of_succeeded h b
  · intro v' h
    exact zip_succeeded a h
  · intro Q Q' f g
    exact .of_eq (map_zip_map f g a b)
  · intro T T' f g
    exact .of_eq (mapState_zip_mapState f g a b)

theorem zip_laws_settled :
    let settled : Node ⟨Unit, fun _ => Unit⟩ Empty Nat Nat Nat := (waiting 0 fun e => some (.success e)).advance 7
    let fussy : Node ⟨Unit, fun _ => Unit⟩ Empty Nat Nat Nat :=
      waiting 1 fun e => if e = 2 then some (.failure "two") else none
    settled.value? = some 7 ∧ (settled.zip fussy).Alike ((fussy.map (7, ·)).mapState (0, ·)) ∧
      (fussy.zip settled).Alike ((fussy.map (·, 7)).mapState (·, 0)) ∧
      ((fussy.zip settled).advance 2).error? = some "two" := by
  intro settled fussy
  have hvalue : settled.value? = some 7 := rfl
  obtain ⟨hleft, -⟩ := zip_laws.2.1 settled fussy
  obtain ⟨-, hright⟩ := zip_laws.2.1 fussy settled
  exact ⟨hvalue, hleft 7 hvalue, hright 7 hvalue, rfl⟩

end Node

end Workflow

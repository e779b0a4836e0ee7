import Workflow.Proofs.Process.Monad

/-!
# Like for like

On either side of a seam a process may be replaced by one that looks alike: `Process.Alike.bind`. The two wholes stand
in the first process together, until both go on to continuations that look alike.
-/

namespace Workflow

open Node Node.Follow

universe u v

variable {σ : Signature} {ε I S E R R' : Type}

/-! ## Effects -/

namespace Effect

variable {α : Type u} {β : Type v} {W : Type}

theorem pausesOf_bind (host : Host σ W) (e : Effect σ ε α) (f : α → Effect σ ε β) (w : W) :
    (e.bind f).pausesOf host w = e.pausesOf host w +
      match e.run host w with
      | (.done a, w') => (f a).pausesOf host w'
      | _ => 0 := by
  induction e generalizing w with
  | pure a => exact (Nat.zero_add _).symm
  | fail err => rfl
  | pause time next ih =>
    show (next.bind f).pausesOf host (host.wait time w) + 1 = _
    rw [ih]
    exact Nat.add_right_comm ..
  | call op next ih =>
    rw [call_bind, run_call]
    cases ha : host.answer op w with
    | none => simp only [pausesOf, ha]
    | some answered => simp only [pausesOf, ha, ih]

theorem Alike.andThen {e e' : Effect σ ε α} {d d' : Effect σ ε β} (he : e.Alike e') (hd : d.Alike d') :
    (e.andThen d).Alike (e'.andThen d') := by
  intro W host w
  obtain ⟨hrun, hpauses⟩ := he host w
  unfold Effect.andThen
  rw [run_bind, run_bind, pausesOf_bind, pausesOf_bind, hrun, hpauses]
  rcases e'.run host w with ⟨outcome, w'⟩
  cases outcome with
  | done a => exact ⟨(hd host w').1, congrArg _ (hd host w').2⟩
  | _ => exact ⟨rfl, rfl⟩

end Effect

/-! ## Nodes -/

theorem Node.SameLook.result? {n m : Node σ ε S E R} (h : SameLook n m) : n.result? = m.result? := by
  have hkind := h.kind
  have hstate := h.state
  have hvalue := h.value
  unfold Node.kind at hkind
  unfold Node.state at hstate
  unfold Node.value? at hvalue
  unfold Node.result?
  generalize n.stage = stage, m.stage = stage' at hkind hstate hvalue
  cases stage with
  | succeeded s v =>
    cases stage' with
    | succeeded s' v' => cases hstate; cases hvalue; rfl
    | _ => cases hkind
  | _ =>
    cases stage' with
    | succeeded s' v' => cases hkind
    | _ => rfl

namespace Node

variable {n m : Node σ ε S E R} {next next' : S → R → Step σ ε S E R'} {p : n.Place} {q : m.Place}

theorem joined_alike (hnext : ∀ s v, Step.Alike (next s v) (next' s v)) {fx fx' : Effect σ ε Unit} (hfx : fx.Alike fx')
    (h : (n.moveTo p).Alike (m.moveTo q)) : (joined n next fx p).Alike (joined m next' fx' q) := by
  have hresult : (n.look p).result? = (m.look q).result? := (h []).result?
  unfold joined
  rw [← hresult]
  cases (n.look p).result? with
  | none => exact hfx
  | some result => exact hfx.andThen (hnext result.1 result.2).effect

inductive Abreast (n m : Node σ ε S E R) (next next' : S → R → Step σ ε S E R') :
    Node σ ε S E R' → Node σ ε S E R' → Prop
  | first {p : n.Place} {q : m.Place} (hp : (n.moveTo p).result? = none) (hq : (m.moveTo q).result? = none)
      (h : (n.moveTo p).Alike (m.moveTo q)) : Abreast n m next next' (n.within next p) (m.within next' q)
  | second {a b} (h : a.Alike b) : Abreast n m next next' a b

theorem abreast_within (hnext : ∀ s v, Step.Alike (next s v) (next' s v)) (h : (n.moveTo p).Alike (m.moveTo q)) :
    Abreast n m next next' (n.within next p) (m.within next' q) := by
  have hresult := (h []).result?
  cases hp : (n.moveTo p).result? with
  | none => exact .first hp (hresult.symm.trans hp) h
  | some result =>
    have hq := hresult.symm.trans hp
    exact .second ((within_alike hp).trans ((hnext result.1 result.2).node.trans (within_alike hq).symm))

theorem bisimulation_abreast (hnext : ∀ s v, Step.Alike (next s v) (next' s v)) :
    Bisimulation (Abreast n m next next') where
  kind h := by
    cases h with
    | first hp hq h => exact (seen_within next hp).1.trans ((h []).kind.trans (seen_within next' hq).1.symm)
    | second h => exact (h []).kind
  state h := by
    cases h with
    | first hp hq h => exact (seen_within next hp).2.1.trans ((h []).state.trans (seen_within next' hq).2.1.symm)
    | second h => exact (h []).state
  value h := by
    cases h with
    | @first p q hp hq h =>
      have hnone := (seen_within next hp).1.trans_ne (Stage.result?_eq_none.mp hp)
      have hnone' := (seen_within next' hq).1.trans_ne (Stage.result?_eq_none.mp hq)
      exact (value?_of_kind hnone).trans (value?_of_kind hnone').symm
    | second h => exact (h []).value
  error h := by
    cases h with
    | first hp hq h => exact (seen_within next hp).2.2.trans ((h []).error.trans (seen_within next' hq).2.2.symm)
    | second h => exact (h []).error
  offer {a b} h e := by
    cases h with
    | second h =>
      have hoffer := bisimulation_alike.offer h e
      generalize a.offer e = step, b.offer e = step' at hoffer
      cases hoffer with
      | none => exact .none
      | some hstep => exact .some ⟨hstep.1, .second hstep.2⟩
    | @first p q hp hq h =>
      have hoffer : Option.Rel _ (((n.look p).offer e).map fun step => (step.1, n.moveTo step.2))
          (((m.look q).offer e).map fun step => (step.1, m.moveTo step.2)) := bisimulation_alike.offer h e
      rw [offer_within next hp, offer_within next' hq]
      generalize (n.look p).offer e = step, (m.look q).offer e = step' at hoffer
      cases step with
      | none =>
        cases step' with
        | none => exact .none
        | some _ => cases hoffer
      | some step =>
        cases step' with
        | none => cases hoffer
        | some step' =>
          cases hoffer with
          | some hstep => exact .some ⟨joined_alike hnext hstep.1 hstep.2, abreast_within hnext hstep.2⟩

end Node

/-! ## Processes -/

namespace Process

theorem Alike.bind {p p' : Process σ ε I S E R} {f f' : R → Process σ ε I S E R'} (hp : p.Alike p')
    (hf : ∀ v, (f v).Alike (f' v)) : (p.bind f).Alike (p'.bind f') := by
  intro i s
  have hnext : ∀ s v, Step.Alike (continuing f i s v) (continuing f' i s v) := fun s v => hf v i s
  rw [run_bind_eq, run_bind_eq]
  refine ⟨joined_alike hnext (hp i s).effect (hp i s).node, ?_⟩
  exact (bisimulation_abreast hnext).alike (abreast_within hnext (hp i s).node)

theorem bind_congr (p : Process σ ε I S E R) {f f' : R → Process σ ε I S E R'} (hf : ∀ v, (f v).Alike (f' v)) :
    (p.bind f).Alike (p.bind f') :=
  Alike.bind (.of_eq rfl) hf

end Process

end Workflow

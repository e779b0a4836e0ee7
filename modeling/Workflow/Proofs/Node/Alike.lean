import Workflow.Proofs.Effect.Run
import Workflow.Proofs.Node.Walk

/-!
# Nodes that look alike

The places of a node do not count, only what is to be seen of it along events. Two nodes are alike if the same
is to be seen of both whatever events they are offered. Main statements: `Bisimulation.alike`, by which it is enough to
look at one event, and `Carries.alike`, by which a map of places that keeps what is to be seen makes two nodes alike.
-/

namespace Workflow

universe u

/-- No host can tell the effects apart: they end the same way, leave the same world and pause as often. -/
def Effect.Alike {σ : Signature} {ε : Type} {α : Type u} (e d : Effect σ ε α) : Prop :=
  ∀ ⦃W : Type⦄ (host : Host σ W) (w : W), e.run host w = d.run host w ∧ e.pausesOf host w = d.pausesOf host w

theorem Effect.Alike.of_eq {σ : Signature} {ε : Type} {α : Type u} {e d : Effect σ ε α} (h : e = d) :
    e.Alike d := by
  subst h; exact fun _ _ _ => ⟨rfl, rfl⟩

theorem Effect.Alike.symm {σ : Signature} {ε : Type} {α : Type u} {e d : Effect σ ε α} (h : e.Alike d) :
    d.Alike e :=
  fun _ host w => ⟨(h host w).1.symm, (h host w).2.symm⟩

theorem Effect.Alike.trans {σ : Signature} {ε : Type} {α : Type u} {e d c : Effect σ ε α} (h : e.Alike d)
    (h' : d.Alike c) : e.Alike c :=
  fun _ host w => ⟨(h host w).1.trans (h' host w).1, (h host w).2.trans (h' host w).2⟩

namespace Node

variable {σ : Signature} {ε S E R : Type}

/-- The same is to be seen of both nodes, and they take the same events with effects that are alike. -/
structure SameLook (n m : Node σ ε S E R) : Prop where
  kind : n.kind = m.kind
  state : n.state = m.state
  value : n.value? = m.value?
  error : n.error? = m.error?
  steps e : Option.Rel Effect.Alike ((n.offer e).map Prod.fst) ((m.offer e).map Prod.fst)

def Alike (n m : Node σ ε S E R) : Prop :=
  ∀ events, SameLook (n.advanceAll events) (m.advanceAll events)

theorem SameLook.refl (n : Node σ ε S E R) : SameLook n n := by
  refine ⟨rfl, rfl, rfl, rfl, fun e => ?_⟩
  cases (n.offer e).map Prod.fst with
  | none => exact .none
  | some fx => exact .some (.of_eq rfl)

theorem Alike.of_eq {n m : Node σ ε S E R} (h : n = m) : n.Alike m := by
  subst h
  intro events
  exact .refl _

theorem SameLook.symm {n m : Node σ ε S E R} (h : SameLook n m) : SameLook m n where
  kind := h.kind.symm
  state := h.state.symm
  value := h.value.symm
  error := h.error.symm
  steps e := by
    have hsteps := h.steps e
    generalize (n.offer e).map Prod.fst = fx, (m.offer e).map Prod.fst = fx' at hsteps
    cases hsteps with
    | none => exact .none
    | some hfx => exact .some hfx.symm

theorem SameLook.trans {n m k : Node σ ε S E R} (h : SameLook n m) (h' : SameLook m k) : SameLook n k where
  kind := h.kind.trans h'.kind
  state := h.state.trans h'.state
  value := h.value.trans h'.value
  error := h.error.trans h'.error
  steps e := by
    have hsteps := h.steps e
    have hsteps' := h'.steps e
    generalize (n.offer e).map Prod.fst = fx, (m.offer e).map Prod.fst = fx', (k.offer e).map Prod.fst = fx''
      at hsteps hsteps'
    cases hsteps with
    | none => cases hsteps'; exact .none
    | some hfx =>
      cases hsteps' with
      | some hfx' => exact .some (hfx.trans hfx')

theorem SameLook.isSome_offer {n m : Node σ ε S E R} (h : SameLook n m) (e : E) :
    (n.offer e).isSome = (m.offer e).isSome := by
  have hsteps := h.steps e
  rw [← Option.isSome_map (f := Prod.fst) (x := n.offer e), ← Option.isSome_map (f := Prod.fst) (x := m.offer e)]
  generalize (n.offer e).map Prod.fst = fx, (m.offer e).map Prod.fst = fx' at hsteps
  cases hsteps <;> rfl

theorem Alike.symm {n m : Node σ ε S E R} (h : n.Alike m) : m.Alike n :=
  fun events => (h events).symm

theorem Alike.trans {n m k : Node σ ε S E R} (h : n.Alike m) (h' : m.Alike k) : n.Alike k :=
  fun events => (h events).trans (h' events)

theorem Alike.advanceAll {n m : Node σ ε S E R} (h : n.Alike m) (events : List E) :
    (n.advanceAll events).Alike (m.advanceAll events) := by
  intro more
  rw [← advanceAll_append, ← advanceAll_append]
  exact h (events ++ more)

/-! ## Bisimulations -/

/-- Related nodes look the same now, and after every event they are related again. -/
structure Bisimulation (Rel : Node σ ε S E R → Node σ ε S E R → Prop) : Prop where
  kind {n m} : Rel n m → n.kind = m.kind
  state {n m} : Rel n m → n.state = m.state
  value {n m} : Rel n m → n.value? = m.value?
  error {n m} : Rel n m → n.error? = m.error?
  offer {n m} : Rel n m → ∀ e, Option.Rel (fun a b => a.1.Alike b.1 ∧ Rel a.2 b.2) (n.offer e) (m.offer e)

theorem Bisimulation.alike {Rel : Node σ ε S E R → Node σ ε S E R → Prop} (hrel : Bisimulation Rel)
    {n m : Node σ ε S E R} (h : Rel n m) : n.Alike m := by
  intro events
  induction events generalizing n m with
  | nil =>
    refine ⟨hrel.kind h, hrel.state h, hrel.value h, hrel.error h, fun e => ?_⟩
    have hoffer := hrel.offer h e
    show Option.Rel Effect.Alike ((n.offer e).map Prod.fst) ((m.offer e).map Prod.fst)
    generalize n.offer e = step, m.offer e = step' at hoffer
    cases hoffer with
    | none => exact .none
    | some hstep => exact .some hstep.1
  | cons e events ih =>
    have hoffer := hrel.offer h e
    rw [advanceAll_cons, advanceAll_cons]
    generalize hn : n.offer e = step, hm : m.offer e = step' at hoffer
    cases hoffer with
    | none => rw [advance_of_ignored hn, advance_of_ignored hm]; exact ih h
    | some hstep => rw [advance_of_offer hn, advance_of_offer hm]; exact ih hstep.2

theorem bisimulation_alike : Bisimulation (Alike (σ := σ) (ε := ε) (S := S) (E := E) (R := R)) where
  kind h := (h []).kind
  state h := (h []).state
  value h := (h []).value
  error h := (h []).error
  offer {n m} h e := by
    have hsteps : Option.Rel Effect.Alike ((n.offer e).map Prod.fst) ((m.offer e).map Prod.fst) := (h []).steps e
    cases hn : n.offer e with
    | none =>
      cases hm : m.offer e with
      | none => exact .none
      | some step' => rw [hn, hm] at hsteps; cases hsteps
    | some step =>
      cases hm : m.offer e with
      | none => rw [hn, hm] at hsteps; cases hsteps
      | some step' =>
        rw [hn, hm] at hsteps
        cases hsteps with
        | some hfx =>
          have hnode : (n.advanceAll [e]).Alike (m.advanceAll [e]) := h.advanceAll [e]
          rw [advanceAll_cons, advanceAll_cons, advance_of_offer hn, advance_of_offer hm] at hnode
          exact .some ⟨hfx, hnode⟩

/-! ## Maps of places -/

/-- What is to be seen at a place of `n` is to be seen at its image in `m`, and the places that lie ahead of it
have their images ahead. -/
def Carries (n m : Node σ ε S E R) (h : n.Place → m.Place) : Prop :=
  ∀ q, m.look (h q) = (n.look q).move h

namespace Carries

variable {n m : Node σ ε S E R} {h : n.Place → m.Place}

theorem offer (hc : Carries n m h) (q : n.Place) (e : E) :
    (m.moveTo (h q)).offer e = ((n.look q).offer e).map fun step => (step.1, m.moveTo (h step.2)) := by
  show ((m.look (h q)).offer e).map _ = _
  rw [hc q]
  cases n.look q with
  | inProgress s next => exact Option.map_map ..
  | _ => rfl

theorem sameLook (hc : Carries n m h) (q : n.Place) : SameLook (n.moveTo q) (m.moveTo (h q)) := by
  have hstage : (m.moveTo (h q)).stage = (n.look q).move h := hc q
  have hsteps e : ((n.moveTo q).offer e).map Prod.fst = ((m.moveTo (h q)).offer e).map Prod.fst := by
    rw [hc.offer, Option.map_map]
    exact Option.map_map ..
  refine ⟨?_, ?_, ?_, ?_, fun e => ?_⟩
  · unfold kind; rw [hstage]; show (n.look q).kind = _; cases n.look q <;> rfl
  · unfold state; rw [hstage]; show (n.look q).state = _; cases n.look q <;> rfl
  · unfold value?; rw [hstage]; show (n.look q).value? = _; cases n.look q <;> rfl
  · unfold error?; rw [hstage]; show (n.look q).error? = _; cases n.look q <;> rfl
  · rw [hsteps e]
    cases ((m.moveTo (h q)).offer e).map Prod.fst with
    | none => exact .none
    | some fx => exact .some (.of_eq rfl)

theorem advance (hc : Carries n m h) (q : n.Place) (e : E) :
    ∃ q', (n.moveTo q).advance e = n.moveTo q' ∧ (m.moveTo (h q)).advance e = m.moveTo (h q') := by
  have hn : (n.moveTo q).offer e = ((n.look q).offer e).map fun step => (step.1, n.moveTo step.2) := rfl
  have hm := hc.offer q e
  cases ho : (n.look q).offer e with
  | none =>
    rw [ho] at hn hm
    exact ⟨q, advance_of_ignored hn, advance_of_ignored hm⟩
  | some step =>
    rw [ho] at hn hm
    exact ⟨step.2, advance_of_offer hn, advance_of_offer hm⟩

theorem advanceAll (hc : Carries n m h) (q : n.Place) (events : List E) :
    ∃ q', (n.moveTo q).advanceAll events = n.moveTo q' ∧ (m.moveTo (h q)).advanceAll events = m.moveTo (h q') := by
  induction events generalizing q with
  | nil => exact ⟨q, rfl, rfl⟩
  | cons e events ih =>
    obtain ⟨q', hn, hm⟩ := hc.advance q e
    rw [advanceAll_cons, advanceAll_cons, hn, hm]
    exact ih q'

theorem alike (hc : Carries n m h) (q : n.Place) : (n.moveTo q).Alike (m.moveTo (h q)) := by
  intro events
  obtain ⟨q', hn, hm⟩ := hc.advanceAll q events
  rw [hn, hm]
  exact hc.sameLook q'

end Carries

end Node

end Workflow

import Workflow.Proofs.Node.Alike

/-!
# Mapped nodes

A node that was mapped takes the steps of the node it was made of, along every list of events; only its values or its
states are seen through the map (`seenThrough_map`, `seenThrough_mapState`). Maps one after another are seen through as
one (`SeenThrough.trans`), and nodes that show the same node through the same maps are alike (`SeenThrough.alike`).
From these the laws of both maps follow: `maps_seen_through`.
-/

namespace Workflow.Node

variable {σ : Signature} {ε S S' S'' E R R' R'' : Type}

/-! ## Mapped values -/

@[simp] theorem stage_map (f : R → R') (n : Node σ ε S E R) : (n.map f).stage = n.stage.map f := rfl

@[simp] theorem kind_map (f : R → R') (n : Node σ ε S E R) : (n.map f).kind = n.kind := by
  unfold kind; rw [stage_map]; cases n.stage <;> rfl

@[simp] theorem state_map (f : R → R') (n : Node σ ε S E R) : (n.map f).state = n.state := by
  unfold state; rw [stage_map]; cases n.stage <;> rfl

@[simp] theorem value?_map (f : R → R') (n : Node σ ε S E R) : (n.map f).value? = n.value?.map f := by
  unfold value?; rw [stage_map]; cases n.stage <;> rfl

@[simp] theorem error?_map (f : R → R') (n : Node σ ε S E R) : (n.map f).error? = n.error? := by
  unfold error?; rw [stage_map]; cases n.stage <;> rfl

theorem offer_map (f : R → R') (n : Node σ ε S E R) (e : E) :
    (n.map f).offer e = (n.offer e).map fun step => (step.1, step.2.map f) := by
  have h : (n.map f).stage.offer e = n.stage.offer e := by
    rw [stage_map]; cases n.stage <;> rfl
  unfold offer; rw [h, Option.map_map]; rfl

theorem advance_map (f : R → R') (n : Node σ ε S E R) (e : E) : (n.map f).advance e = (n.advance e).map f := by
  unfold advance; rw [offer_map]
  cases n.offer e <;> rfl

theorem advanceAll_map (f : R → R') (n : Node σ ε S E R) (events : List E) :
    (n.map f).advanceAll events = (n.advanceAll events).map f := by
  induction events generalizing n with
  | nil => rfl
  | cons e events ih => rw [advanceAll_cons, advance_map, ih, advanceAll_cons]

/-! ## Mapped states -/

@[simp] theorem stage_mapState (g : S → S') (n : Node σ ε S E R) :
    (n.mapState g).stage = n.stage.mapState g := rfl

@[simp] theorem kind_mapState (g : S → S') (n : Node σ ε S E R) : (n.mapState g).kind = n.kind := by
  unfold kind; rw [stage_mapState]; cases n.stage <;> rfl

@[simp] theorem state_mapState (g : S → S') (n : Node σ ε S E R) : (n.mapState g).state = g n.state := by
  unfold state; rw [stage_mapState]; cases n.stage <;> rfl

@[simp] theorem value?_mapState (g : S → S') (n : Node σ ε S E R) : (n.mapState g).value? = n.value? := by
  unfold value?; rw [stage_mapState]; cases n.stage <;> rfl

@[simp] theorem error?_mapState (g : S → S') (n : Node σ ε S E R) : (n.mapState g).error? = n.error? := by
  unfold error?; rw [stage_mapState]; cases n.stage <;> rfl

theorem failed_mapState (g : S → S') (n : Node σ ε S E R) : (n.mapState g).Failed ↔ n.Failed := by
  unfold Failed; rw [kind_mapState]

theorem offer_mapState (g : S → S') (n : Node σ ε S E R) (e : E) :
    (n.mapState g).offer e = (n.offer e).map fun step => (step.1, step.2.mapState g) := by
  have h : (n.mapState g).stage.offer e = n.stage.offer e := by
    rw [stage_mapState]; cases n.stage <;> rfl
  unfold offer; rw [h, Option.map_map]; rfl

theorem advance_mapState (g : S → S') (n : Node σ ε S E R) (e : E) :
    (n.mapState g).advance e = (n.advance e).mapState g := by
  unfold advance; rw [offer_mapState]
  cases n.offer e <;> rfl

theorem advanceAll_mapState (g : S → S') (n : Node σ ε S E R) (events : List E) :
    (n.mapState g).advanceAll events = (n.advanceAll events).mapState g := by
  induction events generalizing n with
  | nil => rfl
  | cons e events ih => rw [advanceAll_cons, advance_mapState, ih, advanceAll_cons]

/-! ## Seeing through maps -/

section
variable {f : R → R'} {g : S → S'} {n : Node σ ε S E R} {m : Node σ ε S' E R'}

/-- What is to be seen of `m` is what is to be seen of `n`, its value through `f` and its state through `g`. Both take
the same events, with the same effects. -/
structure Shows (f : R → R') (g : S → S') (n : Node σ ε S E R) (m : Node σ ε S' E R') : Prop where
  kind : m.kind = n.kind
  state : m.state = g n.state
  value : m.value? = n.value?.map f
  error : m.error? = n.error?
  steps e : (m.offer e).map Prod.fst = (n.offer e).map Prod.fst

def SeenThrough (f : R → R') (g : S → S') (n : Node σ ε S E R) (m : Node σ ε S' E R') : Prop :=
  ∀ events, Shows f g (n.advanceAll events) (m.advanceAll events)

theorem shows_map (f : R → R') (n : Node σ ε S E R) : Shows f id n (n.map f) where
  kind := kind_map f n
  state := state_map f n
  value := value?_map f n
  error := error?_map f n
  steps e := by rw [offer_map, Option.map_map]; rfl

theorem shows_mapState (g : S → S') (n : Node σ ε S E R) : Shows id g n (n.mapState g) where
  kind := kind_mapState g n
  state := state_mapState g n
  value := by simp
  error := error?_mapState g n
  steps e := by rw [offer_mapState, Option.map_map]; rfl

theorem seenThrough_map (f : R → R') (n : Node σ ε S E R) : SeenThrough f id n (n.map f) := by
  intro events
  rw [advanceAll_map]
  exact shows_map f (n.advanceAll events)

theorem seenThrough_mapState (g : S → S') (n : Node σ ε S E R) : SeenThrough id g n (n.mapState g) := by
  intro events
  rw [advanceAll_mapState]
  exact shows_mapState g (n.advanceAll events)

theorem Shows.trans {f' : R' → R''} {g' : S' → S''} {k : Node σ ε S'' E R''} (h : Shows f g n m)
    (h' : Shows f' g' m k) : Shows (f' ∘ f) (g' ∘ g) n k where
  kind := h'.kind.trans h.kind
  state := by rw [h'.state, h.state]; rfl
  value := by rw [h'.value, h.value, Option.map_map]
  error := h'.error.trans h.error
  steps e := (h'.steps e).trans (h.steps e)

theorem Shows.sameLook {k : Node σ ε S' E R'} (h : Shows f g n m) (h' : Shows f g n k) : SameLook m k where
  kind := h.kind.trans h'.kind.symm
  state := h.state.trans h'.state.symm
  value := h.value.trans h'.value.symm
  error := h.error.trans h'.error.symm
  steps e := by
    rw [h.steps e, h'.steps e]
    exact (SameLook.refl n).steps e

namespace SeenThrough

theorem refl (n : Node σ ε S E R) : SeenThrough id id n n :=
  fun _ => ⟨rfl, rfl, Option.map_id'.symm, rfl, fun _ => rfl⟩

theorem trans {f' : R' → R''} {g' : S' → S''} {k : Node σ ε S'' E R''} (h : SeenThrough f g n m)
    (h' : SeenThrough f' g' m k) : SeenThrough (f' ∘ f) (g' ∘ g) n k :=
  fun events => (h events).trans (h' events)

theorem alike {k : Node σ ε S' E R'} (h : SeenThrough f g n m) (h' : SeenThrough f g n k) : m.Alike k :=
  fun events => (h events).sameLook (h' events)

theorem advance (h : SeenThrough f g n m) (e : E) : SeenThrough f g (n.advance e) (m.advance e) :=
  fun events => h (e :: events)

theorem walks (h : SeenThrough f g n m) (events : List E) :
    m.accepted events = n.accepted events ∧ m.effects events = n.effects events := by
  induction events generalizing n m with
  | nil => exact ⟨rfl, rfl⟩
  | cons e events ih =>
    obtain ⟨haccepted, heffects⟩ := ih (h.advance e)
    have hstep : (m.offer e).map Prod.fst = (n.offer e).map Prod.fst := (h []).steps e
    have hfirst : m.accepted [e] = n.accepted [e] ∧ m.effects [e] = n.effects [e] := by
      cases hn : n.offer e <;> cases hm : m.offer e <;> simp_all [accepted, effects]
    rw [accepted_cons, effects_cons, accepted_cons n, effects_cons n, haccepted, heffects, hfirst.1, hfirst.2]
    exact ⟨rfl, rfl⟩

end SeenThrough

end

/-! ## The laws of both maps -/

theorem map_id_alike (n : Node σ ε S E R) : (n.map id).Alike n := by
  apply (seenThrough_map id n).alike
  exact .refl n

theorem mapState_id_alike (n : Node σ ε S E R) : (n.mapState id).Alike n := by
  apply (seenThrough_mapState id n).alike
  exact .refl n

theorem map_map_alike (f : R → R') (f' : R' → R'') (n : Node σ ε S E R) :
    ((n.map f).map f').Alike (n.map (f' ∘ f)) := by
  have hboth : SeenThrough (f' ∘ f) id n ((n.map f).map f') :=
    (seenThrough_map f n).trans (seenThrough_map f' (n.map f))
  exact hboth.alike (seenThrough_map (f' ∘ f) n)

theorem mapState_mapState_alike (g : S → S') (g' : S' → S'') (n : Node σ ε S E R) :
    ((n.mapState g).mapState g').Alike (n.mapState (g' ∘ g)) := by
  have hboth : SeenThrough id (g' ∘ g) n ((n.mapState g).mapState g') :=
    (seenThrough_mapState g n).trans (seenThrough_mapState g' (n.mapState g))
  exact hboth.alike (seenThrough_mapState (g' ∘ g) n)

theorem map_mapState_alike (f : R → R') (g : S → S') (n : Node σ ε S E R) :
    ((n.map f).mapState g).Alike ((n.mapState g).map f) := by
  have hleft : SeenThrough f g n ((n.map f).mapState g) :=
    (seenThrough_map f n).trans (seenThrough_mapState g (n.map f))
  have hright : SeenThrough f g n ((n.mapState g).map f) :=
    (seenThrough_mapState g n).trans (seenThrough_map f (n.mapState g))
  exact hleft.alike hright

/-- Both maps leave alone which events are taken, with which effects, and how a workflow fails. What is mapped is the
value at its end, or the state of every node on the way and of one that failed. -/
theorem maps_seen_through (n : Node σ ε S E R) :
    (∀ {R' : Type} (f : R → R'), SeenThrough f id n (n.map f) ∧
      ∀ events, (n.map f).accepted events = n.accepted events ∧ (n.map f).effects events = n.effects events) ∧
    (∀ {S' : Type} (g : S → S'), SeenThrough id g n (n.mapState g) ∧
      ∀ events, (n.mapState g).accepted events = n.accepted events ∧
        (n.mapState g).effects events = n.effects events) ∧
    (n.map id).Alike n ∧ (n.mapState id).Alike n ∧
    (∀ {R' R'' : Type} (f : R → R') (f' : R' → R''), ((n.map f).map f').Alike (n.map (f' ∘ f))) ∧
    (∀ {S' S'' : Type} (g : S → S') (g' : S' → S''),
      ((n.mapState g).mapState g').Alike (n.mapState (g' ∘ g))) ∧
    ∀ {R' S' : Type} (f : R → R') (g : S → S'), ((n.map f).mapState g).Alike ((n.mapState g).map f) := by
  refine ⟨fun f => ⟨seenThrough_map f n, ?_⟩, fun g => ⟨seenThrough_mapState g n, ?_⟩, map_id_alike n,
    mapState_id_alike n, ?_, ?_, ?_⟩
  · intro events
    exact (seenThrough_map f n).walks events
  · intro events
    exact (seenThrough_mapState g n).walks events
  · intro R' R'' f f'
    exact map_map_alike f f' n
  · intro S' S'' g g'
    exact mapState_mapState_alike g g' n
  · intro R' S' f g
    exact map_mapState_alike f g n

/-- A workflow that fails on the way: its last state is mapped, its error is not. -/
example :
    let n : Node ⟨Unit, fun _ => Unit⟩ Empty Nat Nat Nat := waiting 2 fun e => if e = 1 then some (.failure "x") else none
    let mapped := n.mapState (10 * ·)
    mapped.accepted [0, 1, 2] = [1] ∧ (mapped.advanceAll [0, 1, 2]).state = 20 ∧
      (mapped.advanceAll [0, 1, 2]).error? = some "x" :=
  ⟨rfl, rfl, rfl⟩

end Workflow.Node

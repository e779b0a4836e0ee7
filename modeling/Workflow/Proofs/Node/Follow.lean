import Workflow.Node.Follow
import Workflow.Proofs.Node.Alike

/-!
# Walks of one node after another

As long as the first node has not succeeded it is seen through (`advanceAll_within`), and from the event
that completes it on the continuation stands in its place (`carries_second`). Two seams may be joined in either
order (`carries_assoc`), and a continuation that succeeds at once maps the value (`carries_map`).
-/

namespace Workflow

variable {σ : Signature} {ε S E R R' R'' P Q : Type}

/-! ## Results -/

def Stage.result? : Stage σ ε S E R P → Option (S × R)
  | succeeded s v => some (s, v)
  | _ => none

@[simp] theorem Stage.result?_move (h : P → Q) (stage : Stage σ ε S E R P) :
    (stage.move h).result? = stage.result? := by
  cases stage <;> rfl

theorem Stage.eq_of_result? {stage : Stage σ ε S E R P} {s : S} {v : R} (h : stage.result? = some (s, v)) :
    stage = .succeeded s v := by
  cases stage with
  | succeeded s' v' => cases h; rfl
  | _ => cases h

theorem Stage.result?_eq_none {stage : Stage σ ε S E R P} : stage.result? = none ↔ stage.kind ≠ .succeeded := by
  cases stage <;> simp [result?, kind]

theorem Stage.move_move {P' : Type} (h : P → Q) (g : Q → P') (stage : Stage σ ε S E R P) :
    (stage.move h).move g = stage.move fun p => g (h p) := by
  cases stage with
  | inProgress s next => simp only [move, Option.map_map, Function.comp_def]
  | _ => rfl

def Node.result? (n : Node σ ε S E R) : Option (S × R) :=
  n.stage.result?

/-! ## Places of the whole -/

namespace Node.Follow

section
variable (n : Node σ ε S E R) (next : S → R → Step σ ε S E R')

def landing (p : n.Place) : Place n next :=
  match (n.look p).result? with
  | some (s, v) => .second s v (next s v).2.here
  | none => .first p

/-- The effect by which the first node comes to a place, and after it the first effect of the continuation if
it has succeeded there. -/
def joined (fx : Effect σ ε Unit) (p : n.Place) : Effect σ ε Unit :=
  match (n.look p).result? with
  | some (s, v) => fx.andThen (next s v).1
  | none => fx

abbrev whole : Node σ ε S E R' :=
  ⟨Place n next, landing n next n.here, look n next⟩

theorem arrive_eq (fx : Effect σ ε Unit) (p : n.Place) :
    arrive n next fx p = (joined n next fx p, landing n next p) := by
  unfold arrive joined landing
  cases n.look p <;> rfl

theorem look_first (p : n.Place) :
    (whole n next).look (.first p) =
      match n.look p with
      | .succeeded s v => (whole n next).look (.second s v (next s v).2.here)
      | .failed s error => .failed s error
      | .inProgress s advance => .inProgress s fun e =>
          (advance e).map fun step => (joined n next step.1 step.2, landing n next step.2) := by
  show look n next (.first p) = _
  rw [look]
  cases n.look p with
  | inProgress s advance => simp only [arrive_eq]
  | _ => rfl

theorem look_second (s : S) (v : R) (p : (next s v).2.Place) :
    (whole n next).look (.second s v p) = ((next s v).2.look p).move (.second s v) := rfl

theorem here_followedBy (step : Step σ ε S E R) (next : S → R → Step σ ε S E R') :
    (step.followedBy next).2.here = landing step.2 next step.2.here :=
  congrArg Prod.snd (arrive_eq step.2 next step.1 step.2.here)

theorem fst_followedBy (step : Step σ ε S E R) (next : S → R → Step σ ε S E R') :
    (step.followedBy next).1 = joined step.2 next step.1 step.2.here :=
  congrArg Prod.fst (arrive_eq step.2 next step.1 step.2.here)

end

section
variable {n : Node σ ε S E R} {next : S → R → Step σ ε S E R'} {p : n.Place}

theorem landing_of_result {s : S} {v : R} (h : (n.look p).result? = some (s, v)) :
    landing n next p = .second s v (next s v).2.here := by
  unfold landing; rw [h]

theorem landing_of_none (h : (n.look p).result? = none) : landing n next p = .first p := by
  unfold landing; rw [h]

theorem joined_of_result {s : S} {v : R} (h : (n.look p).result? = some (s, v)) (fx : Effect σ ε Unit) :
    joined n next fx p = fx.andThen (next s v).1 := by
  unfold joined; rw [h]

theorem joined_of_none (h : (n.look p).result? = none) (fx : Effect σ ε Unit) : joined n next fx p = fx := by
  unfold joined; rw [h]

theorem result?_first (h : (n.look p).result? = none) : ((whole n next).look (.first p)).result? = none := by
  rw [look_first]
  cases hp : n.look p with
  | succeeded s v => rw [hp] at h; cases h
  | _ => rfl

theorem look_first_congr {q : n.Place} (h : n.look p = n.look q) :
    (whole n next).look (.first p) = (whole n next).look (.first q) := by
  rw [look_first, look_first, h]

theorem look_landing : (whole n next).look (landing n next p) = (whole n next).look (.first p) := by
  cases h : (n.look p).result? with
  | none => rw [landing_of_none h]
  | some result => rw [landing_of_result h, look_first, Stage.eq_of_result? h]

end

end Node.Follow

namespace Node

open Follow

/-! ## Before the first node has succeeded -/

section
variable {n : Node σ ε S E R} (next : S → R → Step σ ε S E R') {p : n.Place}

abbrev within (n : Node σ ε S E R) (next : S → R → Step σ ε S E R') (p : n.Place) : Node σ ε S E R' :=
  (whole n next).moveTo (landing n next p)

theorem seen_within (h : (n.moveTo p).result? = none) :
    (n.within next p).kind = (n.moveTo p).kind ∧ (n.within next p).state = (n.moveTo p).state ∧
      (n.within next p).error? = (n.moveTo p).error? := by
  have hstage : (n.within next p).stage = (whole n next).look (.first p) := look_landing
  have hfirst : (n.moveTo p).stage = n.look p := rfl
  have hresult : (n.look p).result? = none := h
  unfold kind state error?
  rw [hstage, look_first, hfirst]
  cases hp : n.look p with
  | succeeded s v => rw [hp] at hresult; cases hresult
  | _ => exact ⟨rfl, rfl, rfl⟩

theorem offer_within (h : (n.moveTo p).result? = none) (e : E) :
    (n.within next p).offer e = ((n.look p).offer e).map fun step =>
      (joined n next step.1 step.2, n.within next step.2) := by
  have hstage : (n.within next p).stage = (whole n next).look (.first p) := look_landing
  have hresult : (n.look p).result? = none := h
  unfold offer
  rw [hstage, look_first]
  cases hp : n.look p with
  | succeeded s v => rw [hp] at hresult; cases hresult
  | failed s error => rfl
  | inProgress s advance => exact Option.map_map ..

theorem advance_within (h : (n.moveTo p).result? = none) (e : E) :
    ∃ q, (n.moveTo p).advance e = n.moveTo q ∧ (n.within next p).advance e = n.within next q := by
  have hn : (n.moveTo p).offer e = ((n.look p).offer e).map fun step => (step.1, n.moveTo step.2) := rfl
  have hw := offer_within next h e
  cases ho : (n.look p).offer e with
  | none =>
    rw [ho] at hn hw
    exact ⟨p, advance_of_ignored hn, advance_of_ignored hw⟩
  | some step =>
    rw [ho] at hn hw
    exact ⟨step.2, advance_of_offer hn, advance_of_offer hw⟩

theorem advanceAll_within (events : List E)
    (h : ∀ k < events.length, ((n.moveTo p).advanceAll (events.take k)).result? = none) :
    ∃ q, (n.moveTo p).advanceAll events = n.moveTo q ∧ (n.within next p).advanceAll events = n.within next q := by
  -- `p` moves along: after an event both stand at the place it led the first node to
  induction events generalizing p with
  | nil => exact ⟨p, rfl, rfl⟩
  | cons e events ih =>
    obtain ⟨q, hn, hw⟩ := advance_within next (h 0 (by simp)) e
    rw [advanceAll_cons, advanceAll_cons, hn, hw]
    refine ih fun k hk => ?_
    rw [← hn]
    exact h (k + 1) (by simpa using hk)

/-! ## From the seam on -/

theorem carries_second (n : Node σ ε S E R) (next : S → R → Step σ ε S E R') (s : S) (v : R) :
    Carries (next s v).2 (whole n next) (.second s v) :=
  fun _ => rfl

variable {next} in
theorem within_alike {s : S} {v : R} (h : (n.moveTo p).result? = some (s, v)) :
    (n.within next p).Alike (next s v).2 := by
  have hlanding : landing n next p = .second s v (next s v).2.here := landing_of_result h
  have hseam := (carries_second n next s v).alike (next s v).2.here
  unfold within
  rw [hlanding]
  exact hseam.symm

end

/-! ## One first node for another -/

section
variable {n m : Node σ ε S E R} {h : n.Place → m.Place} {next : S → R → Step σ ε S E R'}

def lift (next : S → R → Step σ ε S E R') (h : n.Place → m.Place) : (whole n next).Place → (whole m next).Place
  | .first p => .first (h p)
  | .second s v p => .second s v p

theorem Carries.result? (hc : Carries n m h) (p : n.Place) : (m.look (h p)).result? = (n.look p).result? := by
  rw [hc p, Stage.result?_move]

theorem Carries.landing (hc : Carries n m h) (p : n.Place) :
    landing m next (h p) = lift next h (landing n next p) := by
  unfold Follow.landing
  rw [hc.result?]
  cases (n.look p).result? <;> rfl

theorem Carries.joined (hc : Carries n m h) (fx : Effect σ ε Unit) (p : n.Place) :
    joined m next fx (h p) = joined n next fx p := by
  unfold Follow.joined
  rw [hc.result?]

theorem Carries.whole (hc : Carries n m h) : Carries (whole n next) (whole m next) (lift next h) := by
  intro p
  cases p with
  | second s v p => exact (Stage.move_move (Place.second s v) (lift next h) ((next s v).2.look p)).symm
  | first p =>
    show (Follow.whole m next).look (.first (h p)) = ((Follow.whole n next).look (.first p)).move (lift next h)
    rw [look_first, look_first, hc p]
    cases n.look p with
    | succeeded s v => exact (Stage.move_move (Place.second s v) (lift next h) _).symm
    | failed s error => rfl
    | inProgress s advance =>
      simp only [Stage.move, Option.map_map, Function.comp_def, hc.landing, hc.joined]

end

/-! ## Two seams -/

section
variable (n : Node σ ε S E R) (next : S → R → Step σ ε S E R') (last : S → R' → Step σ ε S E R'')

abbrev inTurn (s : S) (v : R) : Step σ ε S E R'' :=
  (next s v).followedBy last

def reassociate : (whole n (inTurn next last)).Place → (whole (whole n next) last).Place
  | .first p => .first (.first p)
  | .second s v p => lift last (.second s v) p

theorem joined_andThen (fx fx' : Effect σ ε Unit) (p : n.Place) :
    joined n next (fx.andThen fx') p = fx.andThen (joined n next fx' p) := by
  unfold joined
  cases (n.look p).result? with
  | none => rfl
  | some result => exact Effect.bind_assoc ..

theorem landing_assoc (p : n.Place) :
    landing (whole n next) last (landing n next p) = reassociate n next last (landing n (inTurn next last) p) := by
  cases hp : (n.look p).result? with
  | none => rw [landing_of_none hp, landing_of_none hp, landing_of_none (result?_first hp)]; rfl
  | some result =>
    obtain ⟨s, v⟩ := result
    rw [landing_of_result hp, landing_of_result hp, (carries_second n next s v).landing]
    exact congrArg (lift (m := whole n next) last (.second s v)) (here_followedBy (next s v) last).symm

theorem joined_assoc (fx : Effect σ ε Unit) (p : n.Place) :
    joined (whole n next) last (joined n next fx p) (landing n next p) = joined n (inTurn next last) fx p := by
  cases hp : (n.look p).result? with
  | none =>
    rw [landing_of_none hp, joined_of_none hp, joined_of_none hp]
    exact joined_of_none (result?_first hp) fx
  | some result =>
    obtain ⟨s, v⟩ := result
    -- the effect of the second seam comes after both others in either grouping
    rw [landing_of_result hp, (carries_second n next s v).joined, joined_of_result hp, joined_of_result hp,
      joined_andThen]
    exact congrArg fx.andThen (fst_followedBy (next s v) last).symm

theorem carries_assoc :
    Carries (whole n (inTurn next last)) (whole (whole n next) last) (reassociate n next last) := by
  have second s v p : (whole (whole n next) last).look (reassociate n next last (.second s v p)) =
      ((whole n (inTurn next last)).look (.second s v p)).move (reassociate n next last) := by
    rw [look_second, Stage.move_move]
    exact (carries_second n next s v).whole p
  intro p
  cases p with
  | second s v p => exact second s v p
  | first p =>
    show (whole (whole n next) last).look (.first (.first p)) = _
    have hfirst := look_first n next p
    cases hp : n.look p with
    | failed s error =>
      rw [hp] at hfirst
      rw [look_first, hfirst, look_first, hp]
      rfl
    | inProgress s advance =>
      rw [hp] at hfirst
      rw [look_first, hfirst, look_first, hp]
      simp only [Stage.move, Option.map_map, Function.comp_def, joined_assoc, landing_assoc]
    | succeeded s v =>
      -- both have gone on to the continuation, which has been dealt with
      have hresult : (n.look p).result? = some (s, v) := by rw [hp]; rfl
      calc (whole (whole n next) last).look (.first (.first p))
        _ = (whole (whole n next) last).look (.first (landing n next p)) := look_first_congr look_landing.symm
        _ = (whole (whole n next) last).look (landing (whole n next) last (landing n next p)) := look_landing.symm
        _ = (whole (whole n next) last).look (reassociate n next last (landing n (inTurn next last) p)) := by
          rw [landing_assoc]
        _ = ((whole n (inTurn next last)).look (landing n (inTurn next last) p)).move (reassociate n next last) := by
          rw [landing_of_result hresult, second]
        _ = ((whole n (inTurn next last)).look (.first p)).move (reassociate n next last) := by rw [look_landing]

end

/-! ## Mapped values -/

section
variable (f : R → R') (n : Node σ ε S E R)

abbrev yielding (s : S) (v : R) : Step σ ε S E R' :=
  (.unit, succeeded s (f v))

theorem joined_yielding (fx : Effect σ ε Unit) (p : n.Place) : joined n (yielding f) fx p = fx := by
  unfold joined
  cases (n.look p).result? with
  | none => rfl
  | some result => exact Effect.bind_pure fx

theorem look_yielding (p : n.Place) :
    (whole n (yielding f)).look (.first p) = ((n.look p).map f).move (landing n (yielding f)) := by
  rw [look_first]
  cases n.look p with
  | inProgress s advance => simp only [joined_yielding]; rfl
  | _ => rfl

theorem carries_map : Carries (n.map f) (whole n (yielding f)) (landing n (yielding f)) :=
  fun p => look_landing.trans (look_yielding f n p)

end

end Node

end Workflow

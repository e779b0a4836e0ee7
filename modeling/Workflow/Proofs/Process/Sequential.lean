import Mathlib.Order.Nat
import Workflow.Proofs.Node.Follow
import Workflow.Proofs.Process.Walk

/-!
# Sequential composition

One process after another splits the events at the seam: `walk_bind` compares the walk of the whole with the
walk of the first process and, from the event that completes it on, with the walk of the continuation over the
events after that one.
-/

namespace Workflow.Process

open Node Node.Follow

variable {σ : Signature} {ε I S E R R' : Type}

/-! ## The seam -/

abbrev continuing (f : R → Process σ ε I S E R') (i : I) (s : S) (v : R) : Step σ ε S E R' :=
  (f v).run i s

/-- The effect of a step of the first process, in the whole: followed by the initial effect of the continuation
if the process has succeeded by it. -/
def seam (f : R → Process σ ε I S E R') (i : I) (step : Step σ ε S E R) : Effect σ ε Unit :=
  joined step.2 (continuing f i) step.1 step.2.here

theorem run_seam (f : R → Process σ ε I S E R') (i : I) (step : Step σ ε S E R) {W : Type} (host : Host σ W) (w : W) :
    (seam f i step).run host w =
      match step.1.run host w, step.2.result? with
      | (.done _, w'), some (s, v) => ((f v).run i s).1.run host w'
      | ran, _ => ran := by
  cases hr : step.2.result? with
  | none =>
    rw [seam, joined_of_none hr]
    rcases step.1.run host w with ⟨outcome, w'⟩
    cases outcome <;> rfl
  | some result =>
    rw [seam, joined_of_result hr, Effect.andThen, Effect.run_bind]
    rcases step.1.run host w with ⟨outcome, w'⟩
    cases outcome <;> rfl

theorem run_bind_eq (p : Process σ ε I S E R) (f : R → Process σ ε I S E R') (i : I) (s : S) :
    (p.bind f).run i s = (seam f i (p.run i s), whole (p.run i s).2 (continuing f i)) := by
  unfold bind Step.followedBy
  simp only [arrive_eq]
  rfl

/-! ## Walks of the whole -/

section
variable (p : Process σ ε I S E R) (f : R → Process σ ε I S E R') (i : I) (s : S) (events : List E) {n : Nat}

theorem walk_bind_eq (h : ∀ m < n, (p.walk i s events m).kind ≠ .succeeded) :
    ∃ q, p.walk i s events n = (p.run i s).2.moveTo q ∧
      (p.bind f).walk i s events n = (p.run i s).2.within (continuing f i) q := by
  have hnode : ((p.bind f).run i s).2 = (p.run i s).2.within (continuing f i) (p.run i s).2.here :=
    congrArg Prod.snd (run_bind_eq p f i s)
  unfold walk
  rw [hnode]
  refine advanceAll_within (p := (p.run i s).2.here) _ _ fun m hm => ?_
  have hmn : m < n := Nat.lt_of_lt_of_le hm (List.length_take_le n events)
  rw [List.take_take, Nat.min_eq_left (Nat.le_of_lt hmn)]
  exact Stage.result?_eq_none.mpr (h m hmn)

theorem walk_bind_before (h : (p.walk i s events n).kind ≠ .succeeded) :
    let first := p.walk i s events n
    let whole := (p.bind f).walk i s events n
    whole.kind = first.kind ∧ whole.state = first.state ∧ whole.error? = first.error? ∧
      ∀ e, (whole.offer e).map Prod.fst = (first.offer e).map (seam f i) := by
  intro first whole
  obtain ⟨q, hq, hw⟩ := walk_bind_eq p f i s events fun m hm hk => h (succeeded_walk (Nat.le_of_lt hm) hk)
  have hnone : ((p.run i s).2.moveTo q).result? = none := Stage.result?_eq_none.mpr (hq ▸ h)
  have hfirst : first = (p.run i s).2.moveTo q := hq
  have hwhole : whole = (p.run i s).2.within (continuing f i) q := hw
  rw [hfirst, hwhole]
  obtain ⟨hkind, hstate, herror⟩ := seen_within (continuing f i) hnone
  refine ⟨hkind, hstate, herror, fun e => ?_⟩
  have hoffer : ((p.run i s).2.moveTo q).offer e =
      (((p.run i s).2.look q).offer e).map fun step => (step.1, (p.run i s).2.moveTo step.2) := rfl
  rw [offer_within _ hnone, hoffer, Option.map_map, Option.map_map]
  rfl

theorem walk_bind_after {k : Nat} (hk : IsLeast {n | (p.walk i s events n).kind = .succeeded} k) :
    ∃ v, (p.walk i s events k).value? = some v ∧ ∀ n, k ≤ n →
      ((p.bind f).walk i s events n).Alike
        ((f v).walk i (p.walk i s events k).state (events.drop k) (n - k)) := by
  obtain ⟨q, hq, hw⟩ := walk_bind_eq p f i s events fun m hm hdone => Nat.not_le_of_lt hm (hk.2 hdone)
  have hkind : ((p.run i s).2.moveTo q).kind = .succeeded := hq ▸ hk.1
  rw [hq]
  cases hr : ((p.run i s).2.moveTo q).result? with
  | none => exact absurd hkind (Stage.result?_eq_none.mp hr)
  | some result =>
    obtain ⟨s', v⟩ := result
    have hstage : ((p.run i s).2.moveTo q).stage = .succeeded s' v := Stage.eq_of_result? hr
    have hstate : ((p.run i s).2.moveTo q).state = s' := by unfold Node.state; rw [hstage]; rfl
    refine ⟨v, by unfold value?; rw [hstage]; rfl, fun n hkn => ?_⟩
    rw [walk_of_le (p.bind f) i s events hkn, hw, hstate]
    exact (within_alike hr).advanceAll _

theorem walk_bind_failed {m : Nat} (hmn : m ≤ n) (hm : (p.walk i s events m).Failed) :
    let whole := (p.bind f).walk i s events n
    whole.Failed ∧ whole.state = (p.walk i s events m).state ∧ whole.error? = (p.walk i s events m).error? ∧
      ∀ e, whole.offer e = none := by
  have hfailed : (p.walk i s events m).kind = .failed := hm
  obtain ⟨hkind, hstate, herror, -⟩ := walk_bind_before p f i s events (by rw [hfailed]; decide)
  have hf : ((p.bind f).walk i s events m).Failed := hkind.trans hm
  dsimp only
  rw [walk_of_failed hmn hf]
  exact ⟨hf, hstate, herror, hf.offer⟩

end

/-! ## What is asked of the continuation -/

section
variable {p : Process σ ε I S E R} {f f' : R → Process σ ε I S E R'} {i : I} {s : S} {events : List E}

/-- The continuations agree at the value that the walk of the first process ends with, if it ends. -/
def AgreeAt (p : Process σ ε I S E R) (f f' : R → Process σ ε I S E R') (i : I) (s : S) (events : List E) : Prop :=
  ∀ k v, IsLeast {n | (p.walk i s events n).kind = .succeeded} k → (p.walk i s events k).value? = some v → f' v = f v

theorem fst_bind_congr (h : AgreeAt p f f' i s events) : ((p.bind f').run i s).1 = ((p.bind f).run i s).1 := by
  rw [run_bind_eq, run_bind_eq]
  cases hr : (p.run i s).2.result? with
  | none => exact (joined_of_none hr _).trans (joined_of_none hr _).symm
  | some result =>
    obtain ⟨s', v⟩ := result
    have hstage : (p.walk i s events 0).stage = .succeeded s' v := Stage.eq_of_result? hr
    have hv : f' v = f v := by
      refine h 0 v ⟨?_, fun _ _ => Nat.zero_le _⟩ ?_
      · show (p.walk i s events 0).stage.kind = _; rw [hstage]; rfl
      · show (p.walk i s events 0).stage.value? = _; rw [hstage]; rfl
    have hnext : continuing f' i s' v = continuing f i s' v := by unfold continuing; rw [hv]
    calc seam f' i (p.run i s)
      _ = (p.run i s).1.andThen (continuing f' i s' v).1 := joined_of_result hr _
      _ = (p.run i s).1.andThen (continuing f i s' v).1 := by rw [hnext]
      _ = seam f i (p.run i s) := (joined_of_result hr _).symm

theorem walk_bind_congr (h : AgreeAt p f f' i s events) (n : Nat) :
    let other := (p.bind f').walk i s events n
    let whole := (p.bind f).walk i s events n
    other.kind = whole.kind ∧ other.state = whole.state ∧ other.value? = whole.value? ∧
      other.error? = whole.error? ∧ ∀ e, (other.offer e).isSome = (whole.offer e).isSome := by
  by_cases hdone : (p.walk i s events n).kind = .succeeded
  · obtain ⟨k, hk⟩ : ∃ k, IsLeast {n | (p.walk i s events n).kind = .succeeded} k :=
      ⟨_, Nat.isLeast_find ⟨n, hdone⟩⟩
    have hkn : k ≤ n := hk.2 hdone
    obtain ⟨v, hv, hafter⟩ := walk_bind_after p f i s events hk
    obtain ⟨v', hv', hafter'⟩ := walk_bind_after p f' i s events hk
    obtain rfl := Option.some_inj.mp (hv.symm.trans hv')
    have hsame := hafter n hkn []
    have hsame' := hafter' n hkn []
    rw [h k v hk hv] at hsame'
    exact ⟨hsame'.kind.trans hsame.kind.symm, hsame'.state.trans hsame.state.symm,
      hsame'.value.trans hsame.value.symm, hsame'.error.trans hsame.error.symm,
      fun e => (hsame'.isSome_offer e).trans (hsame.isSome_offer e).symm⟩
  · obtain ⟨hkind, hstate, herror, hoffer⟩ := walk_bind_before p f i s events hdone
    obtain ⟨hkind', hstate', herror', hoffer'⟩ := walk_bind_before p f' i s events hdone
    have hvalue := value?_of_kind (hkind.trans_ne hdone)
    have hvalue' := value?_of_kind (hkind'.trans_ne hdone)
    refine ⟨hkind'.trans hkind.symm, hstate'.trans hstate.symm, hvalue'.trans hvalue.symm,
      herror'.trans herror.symm, fun e => ?_⟩
    have hsome := congrArg Option.isSome (hoffer e)
    have hsome' := congrArg Option.isSome (hoffer' e)
    simp only [Option.isSome_map] at hsome hsome'
    exact hsome'.trans hsome.symm

end

/-- Until the first process succeeds the whole is not to be told from it, and from the event by which it does
the whole is the continuation. That event is not offered to the continuation and none after it is lost. -/
theorem walk_bind (p : Process σ ε I S E R) (f : R → Process σ ε I S E R') (i : I) (s : S) (events : List E) :
    let first := p.walk i s events
    let whole := (p.bind f).walk i s events
    let done := fun n => (first n).kind = .succeeded
    ((p.bind f).run i s).1 = seam f i (p.run i s) ∧
    (∀ n, ¬ done n →
      (whole n).kind = (first n).kind ∧ (whole n).state = (first n).state ∧ (whole n).error? = (first n).error? ∧
      ∀ e, ((whole n).offer e).map Prod.fst = ((first n).offer e).map (seam f i)) ∧
    (∀ m, (first m).Failed → ∀ n, m ≤ n →
      (whole n).Failed ∧ (whole n).state = (first m).state ∧ (whole n).error? = (first m).error? ∧
      ∀ e, (whole n).offer e = none) ∧
    (∀ k, IsLeast {n | done n} k → ∃ v, (first k).value? = some v ∧
      ∀ n, k ≤ n → (whole n).Alike ((f v).walk i (first k).state (events.drop k) (n - k))) ∧
    -- the continuation is asked for the value of the first process alone, and not before there is one
    (∀ f', AgreeAt p f f' i s events → ((p.bind f').run i s).1 = ((p.bind f).run i s).1 ∧ ∀ n,
      let other := (p.bind f').walk i s events n
      other.kind = (whole n).kind ∧ other.state = (whole n).state ∧ other.value? = (whole n).value? ∧
      other.error? = (whole n).error? ∧ ∀ e, (other.offer e).isSome = ((whole n).offer e).isSome) ∧
    (∀ step {W : Type} (host : Host σ W) w, (seam f i step).run host w =
      match step.1.run host w, step.2.result? with
      | (.done _, w'), some (s', v) => ((f v).run i s').1.run host w'
      | ran, _ => ran) := by
  intro first whole done
  exact ⟨congrArg Prod.fst (run_bind_eq p f i s), fun n => walk_bind_before p f i s events,
    fun m hm n hmn => walk_bind_failed p f i s events hmn hm, fun k => walk_bind_after p f i s events,
    fun f' h => ⟨fst_bind_congr h, walk_bind_congr h⟩, fun step _ => run_seam f i step⟩

end Workflow.Process

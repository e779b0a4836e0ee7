import Mathlib.Data.List.Forall2
import Workflow.Proofs.Effect.Chronicle

/-!
# Rounds

Between two pauses an effect has the world to itself. `Proceeds` is such a stretch of a run, and `Round` is one
stretch of each member of a list, in list order. A round of `all` and of `race` is a round of their members:
`Round.joinAll_pause`, `Round.joinAll_done`, `Round.joinAll_fail`, `Round.selectFirst_pause`, `Round.selectFirst_end`.
-/

namespace Workflow.Effect

universe u v w

variable {σ : Signature} {ε : Type} {α : Type u} {β : Type v} {γ : Type w} {W : Type} {host : Host σ W}

/-! ## Stretches -/

/-- Without a pause the effect has these exchanges, and then this is left of it. -/
inductive Proceeds (host : Host σ W) : Effect σ ε α → W → List (Exchange σ) → Effect σ ε α → W → Prop
  | nil {e w} : Proceeds host e w [] e w
  | call {op next w x w₁ t r w₂} (ha : host.answer op w = some (x, w₁)) (rest : Proceeds host (next x) w₁ t r w₂) :
      Proceeds host (.call op next) w (⟨op, x⟩ :: t) r w₂

namespace Proceeds

variable {e r r' : Effect σ ε α} {w w₁ w₂ : W} {t t' : List (Exchange σ)}

theorem trans (h : Proceeds host e w t r w₁) (h' : Proceeds host r w₁ t' r' w₂) :
    Proceeds host e w (t ++ t') r' w₂ := by
  induction h with
  | nil => exact h'
  | call ha _ ih => exact .call ha (ih h')

theorem bind (h : Proceeds host e w t r w₁) (f : α → Effect σ ε β) : Proceeds host (e.bind f) w t (r.bind f) w₁ := by
  induction h with
  | nil => exact .nil
  | call ha _ ih => exact .call ha ih

theorem recover (h : Proceeds host e w t r w₁) (handler : ε → Effect σ ε α) :
    Proceeds host (e.recover handler) w t (r.recover handler) w₁ := by
  induction h with
  | nil => exact .nil
  | call ha _ ih => exact .call ha ih

theorem map (h : Proceeds host e w t r w₁) (f : α → β) : Proceeds host (e.map f) w t (r.map f) w₁ := by
  induction h with
  | nil => exact .nil
  | call ha _ ih => exact .call ha ih

theorem lockstep (h : Proceeds host e w t r w₁) (f : α → β → γ) (d : Effect σ ε β) :
    Proceeds host (lockstep f e d) w t (lockstep f r d) w₁ := by
  induction h with
  | nil => exact .nil
  | call ha _ ih => exact .call ha ih

theorem rival (h : Proceeds host e w t r w₁) (d : Effect σ ε α) :
    Proceeds host (rival e d) w t (rival r d) w₁ := by
  induction h with
  | nil => exact .nil
  | call ha _ ih => exact .call ha ih

theorem halfRound (h : Proceeds host e w t r w₁) (onward : Effect σ ε α → Effect σ ε γ)
    (alone : Duration → α → Effect σ ε γ) (time : Duration) :
    Proceeds host (halfRound onward alone time e) w t (halfRound onward alone time r) w₁ := by
  induction h with
  | nil => exact .nil
  | call ha _ ih => exact .call ha ih

theorem run_eq (h : Proceeds host e w t r w₁) : e.run host w = r.run host w₁ := by
  induction h with
  | nil => rfl
  | call ha _ ih => rw [run_call_of_answer host ha, ih]

theorem pausesOf_eq (h : Proceeds host e w t r w₁) : e.pausesOf host w = r.pausesOf host w₁ := by
  induction h with
  | nil => rfl
  | call ha _ ih => rw [← ih]; simp only [pausesOf, ha]

theorem transcript_eq (h : Proceeds host e w t r w₁) : e.transcript host w = t ++ r.transcript host w₁ := by
  induction h with
  | nil => rfl
  | call ha _ ih =>
    rw [transcript_call, ha]
    exact congrArg (List.cons _) ih

end Proceeds

/-! ## Members of a round -/

inductive Round (host : Host σ W) : List (Effect σ ε α) → W → List (Exchange σ) → List (Effect σ ε α) → W → Prop
  | nil {w} : Round host [] w [] [] w
  | cons {e es w t r w₁ t' rs w₂} (first : Proceeds host e w t r w₁) (rest : Round host es w₁ t' rs w₂) :
      Round host (e :: es) w (t ++ t') (r :: rs) w₂

/-- A member at the end of its part in a round, and what it is in the next: one that has succeeded stays as it
is. -/
inductive Resting (tick : Duration) : Effect σ ε α → Effect σ ε α → Prop
  | ended (a : α) : Resting tick (pure a) (pure a)
  | paused (next : Effect σ ε α) : Resting tick (pause tick next) next

variable {tick : Duration}

theorem pause_mem_or_all_ended {rs nexts : List (Effect σ ε α)} (h : List.Forall₂ (Resting tick) rs nexts) :
    (∃ next, pause tick next ∈ rs) ∨ ∃ values : List α, rs = values.map pure ∧ nexts = values.map pure := by
  induction h with
  | nil => exact .inr ⟨[], rfl, rfl⟩
  | @cons _ next _ _ first _ ih =>
    cases first with
    | paused => exact .inl ⟨next, List.mem_cons_self⟩
    | ended a =>
      rcases ih with ⟨next, hnext⟩ | ⟨values, rfl, rfl⟩
      · exact .inl ⟨next, List.mem_cons_of_mem _ hnext⟩
      · exact .inr ⟨a :: values, rfl, rfl⟩

/-! ## Rounds of `all` -/

theorem lockstep_of_pure_right (f : α → β → γ) (e : Effect σ ε α) (b : β) :
    lockstep f e (pure b) = e.map fun a => f a b := by
  induction e with
  | pure a => rfl
  | fail err => rfl
  | call op next ih => exact congrArg (call op) (funext ih)
  | pause time next _ => rfl

theorem joinAll_map_pure (values : List α) : joinAll (values.map pure) = (pure values : Effect σ ε (List α)) := by
  induction values with
  | nil => rfl
  | cons a values ih => rw [List.map_cons, joinAll_cons, ih, lockstep_pure]; rfl

namespace Round

variable {es rs nexts later : List (Effect σ ε α)} {e : Effect σ ε α} {w w₁ w₂ : W} {t t' : List (Exchange σ)}

theorem joinAll_done {values : List α} (h : Round host es w t (values.map pure) w₁) :
    Proceeds host (joinAll es) w t (pure values) w₁ := by
  generalize hrs : values.map pure = rs at h
  induction h generalizing values with
  | nil =>
    obtain rfl := List.map_eq_nil_iff.mp hrs
    exact .nil
  | cons first _ ih =>
    obtain ⟨a, values, rfl, rfl, rfl⟩ := List.map_eq_cons_iff.mp hrs
    refine (first.lockstep List.cons _).trans ?_
    rw [lockstep_pure]
    exact (ih rfl).map _

theorem joinAll_pause (h : Round host es w t rs w₁) (hrest : List.Forall₂ (Resting tick) rs nexts)
    (hpause : ∃ next, pause tick next ∈ rs) : Proceeds host (joinAll es) w t (pause tick (joinAll nexts)) w₁ := by
  induction h generalizing nexts with
  | nil => exact absurd hpause.choose_spec List.not_mem_nil
  | @cons e es w t r w₁ t' rs w₂ first rest ih =>
    cases hrest with
    | @cons _ next _ nexts hr hrs =>
    refine (first.lockstep List.cons _).trans ?_
    cases hr with
    | ended a =>
      obtain ⟨next, hnext⟩ := hpause
      have htail := ih hrs ⟨next, (List.mem_cons.mp hnext).resolve_left nofun⟩
      rw [lockstep_pure, joinAll_cons, lockstep_pure]
      exact htail.map _
    | paused =>
      -- If no later member pauses, the second part of the round ends with their values and the first waits alone.
      have second {t rest} (h : Proceeds host (joinAll es) w₁ t rest w₂) := h.halfRound (lockstep List.cons next)
        (fun time values => pause time (next.map (· :: values))) tick
      rcases pause_mem_or_all_ended hrs with hpause | ⟨values, rfl, rfl⟩
      · rw [joinAll_cons, ← lockstep_pause]
        exact second (ih hrs hpause)
      · rw [joinAll_cons, joinAll_map_pure, lockstep_of_pure_right]
        exact second (joinAll_done rest)

theorem joinAll_fail {err : ε} (h : Round host es w t rs w₁) (hrest : List.Forall₂ (Resting tick) rs nexts)
    (hfail : Proceeds host e w₁ t' (fail err) w₂) :
    Proceeds host (joinAll (es ++ e :: later)) w (t ++ t') (fail err) w₂ := by
  induction h generalizing nexts with
  | nil => exact hfail.lockstep List.cons (joinAll later)
  | @cons e₁ es w t r w₁ t₁ rs w' first rest ih =>
    cases hrest with
    | cons hr hrs =>
    rw [List.append_assoc]
    refine (first.lockstep List.cons _).trans ?_
    cases hr with
    | ended a => exact (ih hrs hfail).map _
    | paused => exact (ih hrs hfail).halfRound _ _ tick

/-! ## Rounds of `race` -/

theorem selectFirst_pause (none : ε) (h : Round host es w t (nexts.map (pause tick)) w₁) (hes : es ≠ []) :
    Proceeds host (selectFirst none es) w t (pause tick (selectFirst none nexts)) w₁ := by
  generalize hrs : nexts.map (pause tick) = rs at h
  induction h generalizing nexts with
  | nil => exact absurd rfl hes
  | @cons e es w t r w₁ t' rs w' first rest ih =>
    obtain ⟨next, nexts, rfl, rfl, rfl⟩ := List.map_eq_cons_iff.mp hrs
    cases nexts with
    | nil =>
      cases rest
      rw [List.append_nil]
      exact first
    | cons next' nexts =>
      cases rest with
      | @cons e' es _ _ _ _ _ _ _ first' rest' =>
      have hrest := @ih (next' :: nexts) (List.cons_ne_nil e' es) rfl
      rw [selectFirst_cons, selectFirst_cons, ← rival_pause]
      exact (first.rival _).trans (hrest.halfRound (rival next) (fun _ => pure) tick)

theorem selectFirst_end (none : ε) {out : Except ε α} (h : Round host es w t (nexts.map (pause tick)) w₁)
    (hend : Proceeds host e w₁ t' (ofExcept out) w₂) :
    Proceeds host (selectFirst none (es ++ e :: later)) w (t ++ t') (ofExcept out) w₂ := by
  generalize hrs : nexts.map (pause tick) = rs at h
  induction h generalizing nexts with
  | nil =>
    cases later with
    | nil => exact hend
    | cons d later =>
      have hfirst := hend.rival (selectFirst none (d :: later))
      cases out <;> exact hfirst
  | @cons e₁ es w t r w₁ t₁ rs w' first rest ih =>
    obtain ⟨next, nexts, rfl, rfl, rfl⟩ := List.map_eq_cons_iff.mp hrs
    have hrest := (ih hend rfl).halfRound (rival next) (fun _ => pure) tick
    obtain ⟨d, ds, hd⟩ := List.exists_cons_of_ne_nil (List.append_ne_nil_of_right_ne_nil es (List.cons_ne_nil e later))
    rw [hd] at hrest
    rw [List.append_assoc, List.cons_append, hd, selectFirst_cons]
    refine (first.rival _).trans ?_
    cases out <;> exact hrest

end Round

end Workflow.Effect

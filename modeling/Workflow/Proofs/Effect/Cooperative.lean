import Workflow.Proofs.Effect.Trace

/-!
# Effects that share a thread

Effects side by side give way to each other at their pauses alone: between two pauses a member has the world
to itself. A discipline says what holds of the exchanges so far and the world at every point of a run, and
what more holds wherever others may go on. `Safe`: an effect that keeps a discipline if the others do. The
combinators lead from safe effects to safe effects, and a safe effect keeps the discipline at every point
that a run of it reaches.
-/

namespace Workflow

universe u v w

/-- What has to hold of the exchanges so far and the world: `Point` always, `Calm` at pauses and ends. -/
structure Discipline {σ : Signature} {W : Type} (host : Host σ W) where
  Point : List (Exchange σ) → W → Prop
  Calm : List (Exchange σ) → W → Prop
  point {τ w} : Calm τ w → Point τ w
  wait {τ w} (time : Duration) : Calm τ w → Calm τ (host.wait time w)

namespace Effect

variable {σ : Signature} {ε : Type} {α : Type u} {β : Type v} {γ : Type w} {W : Type} {host : Host σ W}

/-- From here on the effect keeps the discipline, if whoever goes on while it pauses does. -/
def Safe (d : Discipline host) : Effect σ ε α → List (Exchange σ) → W → Prop
  | pure _, τ, w => d.Calm τ w
  | fail _, τ, w => d.Calm τ w
  | call op next, τ, w =>
    d.Point τ w ∧ ∀ x w', host.answer op w = some (x, w') → Safe d (next x) (τ ++ [⟨op, x⟩]) w'
  | pause _ next, τ, w => d.Calm τ w ∧ ∀ τ' w', τ <+: τ' → d.Calm τ' w' → Safe d next τ' w'

def Ready (d : Discipline host) (e : Effect σ ε α) (τ : List (Exchange σ)) : Prop :=
  ∀ τ' w, τ <+: τ' → d.Calm τ' w → Safe d e τ' w

variable {d : Discipline host} {τ τ' : List (Exchange σ)} {w : W}

theorem Ready.mono {e : Effect σ ε α} (h : Ready d e τ) (hle : τ <+: τ') : Ready d e τ' := by
  intro τ'' w hle'
  exact h τ'' w (hle.trans hle')

theorem Ready.pause {e : Effect σ ε α} (h : Ready d e τ) (time : Duration) : Ready d (pause time e) τ := by
  intro τ' w hle hc
  exact ⟨hc, h.mono hle⟩

theorem ready_pure (a : α) : Ready d (pure a : Effect σ ε α) τ := by
  intro τ' w _ hc
  exact hc

theorem ready_fail (err : ε) : Ready d (fail err : Effect σ ε α) τ := by
  intro τ' w _ hc
  exact hc

theorem Safe.point {e : Effect σ ε α} (h : Safe d e τ w) : d.Point τ w := by
  cases e with
  | pure a => exact d.point h
  | fail err => exact d.point h
  | call op next => exact h.1
  | pause time next => exact d.point h.1

/-! ## One after another -/

theorem Safe.bind {e : Effect σ ε α} {f : α → Effect σ ε β} (he : Safe d e τ w) (hf : ∀ a, Ready d (f a) τ) :
    Safe d (e.bind f) τ w := by
  induction e generalizing τ w with
  | pure a => exact hf a τ w List.prefix_rfl he
  | fail err => exact he
  | call op next ih =>
    obtain ⟨hpoint, hnext⟩ := he
    refine ⟨hpoint, ?_⟩
    intro x w' ha
    have hf' : ∀ a, Ready d (f a) (τ ++ [⟨op, x⟩]) := fun a => (hf a).mono (List.prefix_append _ _)
    exact ih x (hnext x w' ha) hf'
  | pause time next ih =>
    obtain ⟨hcalm, hnext⟩ := he
    refine ⟨hcalm, ?_⟩
    intro τ' w' hle hc
    have hf' : ∀ a, Ready d (f a) τ' := fun a => (hf a).mono hle
    exact ih (hnext τ' w' hle hc) hf'

theorem Safe.recover {e : Effect σ ε α} {handler : ε → Effect σ ε α} (he : Safe d e τ w)
    (hh : ∀ err, Ready d (handler err) τ) : Safe d (e.recover handler) τ w := by
  induction e generalizing τ w with
  | pure a => exact he
  | fail err => exact hh err τ w List.prefix_rfl he
  | call op next ih =>
    obtain ⟨hpoint, hnext⟩ := he
    refine ⟨hpoint, ?_⟩
    intro x w' ha
    have hh' : ∀ err, Ready d (handler err) (τ ++ [⟨op, x⟩]) := fun err => (hh err).mono (List.prefix_append _ _)
    exact ih x (hnext x w' ha) hh'
  | pause time next ih =>
    obtain ⟨hcalm, hnext⟩ := he
    refine ⟨hcalm, ?_⟩
    intro τ' w' hle hc
    have hh' : ∀ err, Ready d (handler err) τ' := fun err => (hh err).mono hle
    exact ih (hnext τ' w' hle hc) hh'

theorem Safe.map {e : Effect σ ε α} (he : Safe d e τ w) (f : α → β) : Safe d (e.map f) τ w := by
  rw [map_eq_bind]
  exact he.bind fun a => ready_pure (f a)

theorem Ready.bind {e : Effect σ ε α} {f : α → Effect σ ε β} (he : Ready d e τ) (hf : ∀ a, Ready d (f a) τ) :
    Ready d (e.bind f) τ := by
  intro τ' w hle hc
  exact (he τ' w hle hc).bind fun a => (hf a).mono hle

theorem Ready.recover {e : Effect σ ε α} {handler : ε → Effect σ ε α} (he : Ready d e τ)
    (hh : ∀ err, Ready d (handler err) τ) : Ready d (e.recover handler) τ := by
  intro τ' w hle hc
  exact (he τ' w hle hc).recover fun err => (hh err).mono hle

theorem Ready.map {e : Effect σ ε α} (he : Ready d e τ) (f : α → β) : Ready d (e.map f) τ := by
  intro τ' w hle hc
  exact (he τ' w hle hc).map f

def inTurn : List (Effect σ ε Unit) → Effect σ ε Unit
  | [] => unit
  | e :: rest => (e.recover fun _ => unit).andThen (inTurn rest)

theorem ready_inTurn {es : List (Effect σ ε Unit)} (h : ∀ e ∈ es, Ready d e τ) : Ready d (inTurn es) τ := by
  induction es with
  | nil => exact ready_pure ()
  | cons e es ih =>
    have hfirst := (h e List.mem_cons_self).recover fun _ => ready_pure ()
    have hrest := ih fun e' he' => h e' (List.mem_cons_of_mem e he')
    exact hfirst.bind fun _ => hrest

/-! ## Side by side -/

theorem Safe.halfRound {onward : Effect σ ε β → Effect σ ε γ} {alone : Duration → β → Effect σ ε γ}
    (honward : ∀ τ', τ <+: τ' → ∀ e, Ready d e τ' → Ready d (onward e) τ')
    (halone : ∀ time b, Ready d (alone time b) τ) {e : Effect σ ε β} (he : Safe d e τ w) (time : Duration) :
    Safe d (halfRound onward alone time e) τ w := by
  induction e generalizing τ w time with
  | pure b => exact halone time b τ w List.prefix_rfl he
  | fail err => exact he
  | call op next ih =>
    obtain ⟨hpoint, hnext⟩ := he
    refine ⟨hpoint, ?_⟩
    intro x w' ha
    have hle := List.prefix_append τ [⟨op, x⟩]
    refine ih x ?_ ?_ (hnext x w' ha) time
    · intro τ' hle'
      exact honward τ' (hle.trans hle')
    · intro time b
      exact (halone time b).mono hle
  | pause rest next ih =>
    obtain ⟨hcalm, hnext⟩ := he
    unfold Effect.halfRound
    split
    · -- the second member is due first, and the first goes on waiting
      refine ⟨hcalm, ?_⟩
      intro τ' w' hle hc
      refine ih ?_ ?_ (hnext τ' w' hle hc) _
      · intro τ'' hle'
        exact honward τ'' (hle.trans hle')
      · intro time b
        exact (halone time b).mono hle
    · refine ⟨hcalm, honward τ List.prefix_rfl _ ?_⟩
      split
      · exact Ready.pause hnext _
      · exact hnext

theorem Safe.lockstep (f : α → β → γ) {e : Effect σ ε α} {e' : Effect σ ε β} (he : Safe d e τ w)
    (he' : Ready d e' τ) : Safe d (lockstep f e e') τ w := by
  induction e generalizing e' τ w with
  | pure a =>
    rw [lockstep_pure]
    exact (he' τ w List.prefix_rfl he).map (f a)
  | fail err => cases e' <;> exact he
  | call op next ih =>
    obtain ⟨hpoint, hnext⟩ := he
    unfold Effect.lockstep
    refine ⟨hpoint, ?_⟩
    intro x w' ha
    exact ih x (hnext x w' ha) (he'.mono (List.prefix_append _ _))
  | pause time next ih =>
    obtain ⟨hcalm, hnext⟩ := he
    unfold Effect.lockstep
    refine Safe.halfRound ?_ ?_ (he' τ w List.prefix_rfl hcalm) time
    · intro τ' hle e he' τ'' w'' hle' hc
      exact ih (hnext τ'' w'' (hle.trans hle') hc) (he'.mono hle')
    · intro time b
      exact Ready.pause (Ready.map hnext _) time

theorem Safe.rival {e e' : Effect σ ε α} (he : Safe d e τ w) (he' : Ready d e' τ) : Safe d (rival e e') τ w := by
  induction e generalizing e' τ w with
  | pure a => cases e' <;> exact he
  | fail err => cases e' <;> exact he
  | call op next ih =>
    obtain ⟨hpoint, hnext⟩ := he
    unfold Effect.rival
    refine ⟨hpoint, ?_⟩
    intro x w' ha
    exact ih x (hnext x w' ha) (he'.mono (List.prefix_append _ _))
  | pause time next ih =>
    obtain ⟨hcalm, hnext⟩ := he
    unfold Effect.rival
    refine Safe.halfRound ?_ ?_ (he' τ w List.prefix_rfl hcalm) time
    · intro τ' hle e he' τ'' w'' hle' hc
      exact ih (hnext τ'' w'' (hle.trans hle') hc) (he'.mono hle')
    · intro _ b
      exact ready_pure b

theorem ready_joinAll {es : List (Effect σ ε α)} (h : ∀ e ∈ es, Ready d e τ) : Ready d (joinAll es) τ := by
  induction es with
  | nil => exact ready_pure []
  | cons e es ih =>
    have hrest := ih fun e' he' => h e' (List.mem_cons_of_mem e he')
    intro τ' w hle hc
    exact (h e List.mem_cons_self τ' w hle hc).lockstep List.cons (hrest.mono hle)

theorem ready_selectFirst (none : ε) {es : List (Effect σ ε α)} (h : ∀ e ∈ es, Ready d e τ) :
    Ready d (selectFirst none es) τ := by
  induction es with
  | nil => exact ready_fail none
  | cons e es ih =>
    have hrest := ih fun e' he' => h e' (List.mem_cons_of_mem e he')
    cases es with
    | nil => exact h e List.mem_cons_self
    | cons e' es =>
      intro τ' w hle hc
      exact (h e List.mem_cons_self τ' w hle hc).rival (hrest.mono hle)

/-! ## Points of a run -/

/-- A run of the effect gets to where it has had these exchanges, and then this is left of it. -/
inductive Reaches (host : Host σ W) (e : Effect σ ε α) (w : W) : List (Exchange σ) → Effect σ ε α → W → Prop
  | nil : Reaches host e w [] e w
  | call {t op next w' x w''} (h : Reaches host e w t (.call op next) w') (ha : host.answer op w' = some (x, w'')) :
      Reaches host e w (t ++ [⟨op, x⟩]) (next x) w''
  | pause {t time next w'} (h : Reaches host e w t (.pause time next) w') :
      Reaches host e w t next (host.wait time w')

theorem Reaches.run_eq {e r : Effect σ ε α} {t : List (Exchange σ)} {w' : W} (h : Reaches host e w t r w') :
    run host e w = run host r w' := by
  induction h with
  | nil => rfl
  | call _ ha ih => rw [ih, run_call_of_answer host ha]
  | pause _ ih => exact ih

theorem Reaches.trans {e r r' : Effect σ ε α} {t t' : List (Exchange σ)} {w' w'' : W}
    (h : Reaches host e w t r w') (h' : Reaches host r w' t' r' w'') : Reaches host e w (t ++ t') r' w'' := by
  induction h' with
  | nil => rw [List.append_nil]; exact h
  | call _ ha ih => rw [← List.append_assoc]; exact .call ih ha
  | pause _ ih => exact .pause ih

theorem exists_reaches (host : Host σ W) (e : Effect σ ε α) (w : W) :
    ∃ t r, Reaches host e w t r (run host e w).2 := by
  induction e generalizing w with
  | pure a => exact ⟨[], _, .nil⟩
  | fail err => exact ⟨[], _, .nil⟩
  | pause time next ih =>
    obtain ⟨t, r, h⟩ := ih (host.wait time w)
    exact ⟨_, r, (Reaches.pause .nil).trans h⟩
  | call op next ih =>
    rw [run_call]
    cases ha : host.answer op w with
    | none => exact ⟨[], _, .nil⟩
    | some answered =>
      obtain ⟨t, r, h⟩ := ih answered.1 answered.2
      exact ⟨_, r, (Reaches.call .nil ha).trans h⟩

theorem Safe.reaches {e r : Effect σ ε α} {t : List (Exchange σ)} {w' : W} (he : Safe d e τ w)
    (h : Reaches host e w t r w') : Safe d r (τ ++ t) w' := by
  induction h with
  | nil => rw [List.append_nil]; exact he
  | call _ ha ih => rw [← List.append_assoc]; exact ih.2 _ _ ha
  | @pause t time next w' _ ih => exact ih.2 _ _ List.prefix_rfl (d.wait time ih.1)

end Effect

end Workflow

import Workflow.Proofs.Effect.SideBySide

/-!
# Composed plans

Effects put together from effects that follow plans follow plans.
-/

namespace Workflow

universe u v w

namespace Plan

variable {L ε : Type} {α : Type u} {β : Type v}

def prepend (segment : List L) : Plan L ε α → Plan L ε α
  | last first ending => last (segment ++ first) ending
  | more first rest => more (segment ++ first) rest

def append : Plan L ε α → Plan L ε β → Plan L ε β
  | last segment _, q => q.prepend segment
  | more segment rest, q => more segment (rest.append q)

theorem exists_values {ps : List (Plan L ε α)} (h : ¬ ∃ p ∈ ps, p.Fails) :
    ∃ values : List α, ps.map ending = values.map .ok := by
  induction ps with
  | nil => exact ⟨[], rfl⟩
  | cons p ps ih =>
    obtain ⟨values, hvalues⟩ := ih fun ⟨q, hq, hfails⟩ => h ⟨q, List.mem_cons_of_mem p hq, hfails⟩
    cases hp : p.ending with
    | error err => exact absurd ⟨p, List.mem_cons_self, err, hp⟩ h
    | ok a => exact ⟨a :: values, by rw [List.map_cons, hp, hvalues, List.map_cons]⟩

end Plan

namespace Effect

variable {σ : Signature} {L ε : Type} {α : Type u} {β : Type v} {γ : Type w} {W : Type} {host : Host σ W}
  {written : Exchange σ → List L} {tick : Duration}

theorem Follows.prepend {e r : Effect σ ε α} {segment : List L} {q : Plan L ε α} (hr : Follows host written tick r q)
    (he : ∀ w, ∃ t w', Proceeds host e w t r w' ∧ t.flatMap written = segment) :
    Follows host written tick e (q.prepend segment) := by
  cases q with
  | last first ending =>
    intro w
    obtain ⟨t, w₁, hstart, rfl⟩ := he w
    obtain ⟨t', w', hend, rfl⟩ := hr w₁
    exact ⟨t ++ t', w', hstart.trans hend, List.flatMap_append⟩
  | more first rest =>
    intro w
    obtain ⟨t, w₁, hstart, rfl⟩ := he w
    obtain ⟨t', next, w', hpause, rfl, hnext⟩ := hr w₁
    exact ⟨t ++ t', next, w', hstart.trans hpause, List.flatMap_append, hnext⟩

/-- What is built around an effect and does nothing before that has ended. -/
structure Waits (host : Host σ W) (around : Effect σ ε α → Effect σ ε β) : Prop where
  proceeds {e w t r w'} : Proceeds host e w t r w' → Proceeds host (around e) w t (around r) w'
  pause time next : around (pause time next) = pause time (around next)

theorem Follows.append {around : Effect σ ε α → Effect σ ε β} (h : Waits host around) {e : Effect σ ε α}
    {p : Plan L ε α} {q : Plan L ε β} (he : Follows host written tick e p)
    (hq : Follows host written tick (around (ofExcept p.ending)) q) :
    Follows host written tick (around e) (p.append q) := by
  induction p generalizing e with
  | last segment ending =>
    refine hq.prepend fun w => ?_
    obtain ⟨t, w', hend, hwritten⟩ := he w
    exact ⟨t, w', h.proceeds hend, hwritten⟩
  | more segment rest ih =>
    intro w
    obtain ⟨t, next, w', hpause, hwritten, hnext⟩ := he w
    exact ⟨t, around next, w', h.pause tick next ▸ h.proceeds hpause, hwritten, ih hnext hq⟩

theorem waits_bind (host : Host σ W) (f : α → Effect σ ε β) : Waits host fun e => e.bind f :=
  ⟨fun h => h.bind f, fun _ _ => rfl⟩

theorem waits_recover (host : Host σ W) (handler : ε → Effect σ ε α) : Waits host fun e => e.recover handler :=
  ⟨fun h => h.recover handler, fun _ _ => rfl⟩

/-! ## Effects that follow some plan -/

section
variable (host) (written) (tick)

def Planned (e : Effect σ ε α) : Prop := ∃ p, Follows host written tick e p

end

theorem planned_ofExcept (ending : Except ε α) : Planned host written tick (ofExcept ending : Effect σ ε α) :=
  ⟨.last [] ending, fun w => ⟨[], w, .nil, rfl⟩⟩

theorem planned_call {op : σ.Op} {next : σ.Answer op → Effect σ ε α} {e : Effect σ ε α} {entries : List L}
    (hop : ∀ w, ∃ x w', host.answer op w = some (x, w') ∧ next x = e ∧ written ⟨op, x⟩ = entries)
    (he : Planned host written tick e) : Planned host written tick (call op next) := by
  obtain ⟨p, hp⟩ := he
  refine ⟨p.prepend entries, hp.prepend fun w => ?_⟩
  obtain ⟨x, w', ha, rfl, rfl⟩ := hop w
  exact ⟨[⟨op, x⟩], w', .call ha .nil, List.append_nil _⟩

namespace Planned

variable {e : Effect σ ε α}

theorem pause (he : Planned host written tick e) : Planned host written tick (pause tick e) := by
  obtain ⟨p, hp⟩ := he
  exact ⟨.more [] p, fun w => ⟨[], e, w, .nil, rfl, hp⟩⟩

theorem bind {f : α → Effect σ ε β} (he : Planned host written tick e) (hf : ∀ a, Planned host written tick (f a)) :
    Planned host written tick (e.bind f) := by
  obtain ⟨p, hp⟩ := he
  have hnext : Planned host written tick ((ofExcept p.ending).bind f) := by
    cases p.ending with
    | error err => exact planned_ofExcept (.error err)
    | ok a => exact hf a
  obtain ⟨q, hq⟩ := hnext
  exact ⟨p.append q, hp.append (waits_bind host f) hq⟩

theorem recover {handler : ε → Effect σ ε α} (he : Planned host written tick e)
    (hh : ∀ err, Planned host written tick (handler err)) : Planned host written tick (e.recover handler) := by
  obtain ⟨p, hp⟩ := he
  have hnext : Planned host written tick ((ofExcept p.ending).recover handler) := by
    cases p.ending with
    | error err => exact hh err
    | ok a => exact planned_ofExcept (.ok a)
  obtain ⟨q, hq⟩ := hnext
  exact ⟨p.append q, hp.append (waits_recover host handler) hq⟩

theorem map (he : Planned host written tick e) (f : α → β) : Planned host written tick (e.map f) := by
  rw [map_eq_bind]
  exact he.bind fun a => planned_ofExcept (.ok (f a))

theorem map2 {d : Effect σ ε β} (he : Planned host written tick e) (hd : Planned host written tick d) (f : α → β → γ) :
    Planned host written tick (map2 f e d) :=
  he.bind fun a => hd.map (f a)

theorem exists_plans {es : List (Effect σ ε α)} (h : ∀ e ∈ es, Planned host written tick e) :
    ∃ ps, List.Forall₂ (Follows host written tick) es ps := by
  induction es with
  | nil => exact ⟨[], .nil⟩
  | cons e es ih =>
    obtain ⟨p, hp⟩ := h e List.mem_cons_self
    obtain ⟨ps, hps⟩ := ih fun e' he' => h e' (List.mem_cons_of_mem e he')
    exact ⟨p :: ps, .cons hp hps⟩

theorem sequence {es : List (Effect σ ε α)} (h : ∀ e ∈ es, Planned host written tick e) :
    Planned host written tick (sequence es) := by
  induction es with
  | nil => exact planned_ofExcept (.ok [])
  | cons e es ih =>
    exact (h e List.mem_cons_self).map2 (ih fun e' he' => h e' (List.mem_cons_of_mem e he')) List.cons

theorem joinAll {es : List (Effect σ ε α)} (h : ∀ e ∈ es, Planned host written tick e) :
    Planned host written tick (joinAll es) := by
  obtain ⟨ps, hps⟩ := exists_plans h
  by_cases hfails : ∃ p ∈ ps, p.Fails
  · obtain ⟨before, p, after, rfl, first⟩ := Plan.exists_foremost hfails
    obtain ⟨err, herr⟩ := first.holds
    obtain ⟨q, hq, hend⟩ := Plan.exists_plan (Plan.roundsTo_ne_nil before p after) (.error err)
    exact ⟨q, follows_joinAll_of_failed hps first herr hq hend⟩
  · obtain ⟨values, hok⟩ := Plan.exists_values hfails
    obtain ⟨q, hq, hend⟩ := Plan.exists_plan (Plan.rounds_ne_nil ps) (.ok values)
    exact ⟨q, follows_joinAll hps hok hq hend⟩

theorem selectFirst (none : ε) {es : List (Effect σ ε α)} (h : ∀ e ∈ es, Planned host written tick e) :
    Planned host written tick (selectFirst none es) := by
  obtain ⟨ps, hps⟩ := exists_plans h
  by_cases hne : ∃ p ∈ ps, True
  · obtain ⟨before, p, after, rfl, first⟩ := Plan.exists_foremost hne
    obtain ⟨q, hq, hend⟩ := Plan.exists_plan (Plan.roundsTo_ne_nil before p after) p.ending
    exact ⟨q, follows_selectFirst none hps first hq hend⟩
  · cases hps with
    | nil => exact planned_ofExcept (.error none)
    | cons => exact absurd ⟨_, List.mem_cons_self, trivial⟩ hne

theorem pipe (he : Planned host written tick e) {steps : List (α → Effect σ ε α)}
    (h : ∀ step ∈ steps, ∀ a, Planned host written tick (step a)) : Planned host written tick (e.pipe steps) := by
  unfold Effect.pipe
  induction steps generalizing e with
  | nil => exact he
  | cons step steps ih =>
    exact ih (he.bind (h step List.mem_cons_self)) fun step' hstep => h step' (List.mem_cons_of_mem step hstep)

end Planned

end Effect

end Workflow

import Mathlib.Logic.Function.Basic
import Workflow.Proofs.Effect.Run

/-!
# Traces

An exchange is a question with its answer. `Leads` walks down an effect along a list of exchanges. In a pool
of effects the members take turns on one shared world: a turn is one question of one member with its
answer, or a pause that is over. `Run.leads`: what a member asks in a pool is a walk down that member.
-/

namespace Workflow

universe u v w

structure Exchange (σ : Signature) where
  op : σ.Op
  answer : σ.Answer op

namespace Effect

variable {σ : Signature} {ε : Type} {α : Type u} {β : Type v}

/-- The effect comes to these exchanges, and then this is left of it. -/
inductive Leads (e : Effect σ ε α) : List (Exchange σ) → Effect σ ε α → Prop
  | nil : Leads e [] e
  | call {t op next} (h : Leads e t (.call op next)) (x : σ.Answer op) : Leads e (t ++ [⟨op, x⟩]) (next x)
  | pause {t time next} (h : Leads e t (.pause time next)) : Leads e t next

namespace Leads

theorem bind {e r : Effect σ ε α} {t : List (Exchange σ)} (h : e.Leads t r) (f : α → Effect σ ε β) :
    (e.bind f).Leads t (r.bind f) := by
  induction h with
  | nil => exact .nil
  | call _ x ih => exact .call ih x
  | pause _ ih => exact .pause ih

theorem of_pure {a : α} {t : List (Exchange σ)} {r : Effect σ ε α} (h : (pure a).Leads t r) :
    t = [] ∧ r = pure a := by
  induction h with
  | nil => exact ⟨rfl, rfl⟩
  | call _ _ ih => cases ih.2
  | pause _ ih => cases ih.2

theorem of_fail {err : ε} {t : List (Exchange σ)} {r : Effect σ ε α} (h : (fail err).Leads t r) :
    t = [] ∧ r = fail err := by
  induction h with
  | nil => exact ⟨rfl, rfl⟩
  | call _ _ ih => cases ih.2
  | pause _ ih => cases ih.2

theorem first {op : σ.Op} {next : σ.Answer op → Effect σ ε α} (x : σ.Answer op) :
    (Effect.call op next).Leads [⟨op, x⟩] (next x) :=
  .call .nil x

theorem trans {e r s : Effect σ ε α} {t t' : List (Exchange σ)} (h : e.Leads t r) (h' : r.Leads t' s) :
    e.Leads (t ++ t') s := by
  induction h' with
  | nil => rw [List.append_nil]; exact h
  | call _ x ih => rw [← List.append_assoc]; exact .call ih x
  | pause _ ih => exact .pause ih

theorem of_call {op : σ.Op} {next : σ.Answer op → Effect σ ε α} {r : Effect σ ε α} {t : List (Exchange σ)}
    (h : (Effect.call op next).Leads t r) :
    (t = [] ∧ r = .call op next) ∨ ∃ x t', t = ⟨op, x⟩ :: t' ∧ (next x).Leads t' r := by
  induction h with
  | nil => exact .inl ⟨rfl, rfl⟩
  | call _ x ih =>
    rcases ih with ⟨rfl, hr⟩ | ⟨y, t', rfl, hnext⟩
    · cases hr
      exact .inr ⟨x, [], rfl, .nil⟩
    · exact .inr ⟨y, t' ++ [_], rfl, .call hnext x⟩
  | pause _ ih =>
    rcases ih with ⟨-, hr⟩ | ⟨y, t', rfl, hnext⟩
    · cases hr
    · exact .inr ⟨y, t', rfl, .pause hnext⟩

theorem of_pause {time : Duration} {next r : Effect σ ε α} {t : List (Exchange σ)}
    (h : (Effect.pause time next).Leads t r) : (t = [] ∧ r = .pause time next) ∨ next.Leads t r := by
  induction h with
  | nil => exact .inl ⟨rfl, rfl⟩
  | call _ x ih =>
    rcases ih with ⟨-, hr⟩ | hnext
    · cases hr
    · exact .inr (.call hnext x)
  | pause _ ih =>
    rcases ih with ⟨rfl, hr⟩ | hnext
    · cases hr
      exact .inr .nil
    · exact .inr (.pause hnext)

theorem of_suspend {time? : Option Duration} {e r : Effect σ ε α} {t : List (Exchange σ)}
    (h : ((suspend time?).andThen e).Leads t r) : (t = [] ∧ r = (suspend time?).andThen e) ∨ e.Leads t r := by
  cases time? with
  | none => exact .inr h
  | some time => exact h.of_pause

theorem suspend_andThen (time? : Option Duration) (e : Effect σ ε α) : ((suspend time?).andThen e).Leads [] e := by
  cases time? with
  | none => exact .nil
  | some time => exact .pause .nil

theorem of_bind {e : Effect σ ε α} {f : α → Effect σ ε β} {r : Effect σ ε β} {t : List (Exchange σ)}
    (h : (e.bind f).Leads t r) :
    (∃ rest, e.Leads t rest ∧ r = rest.bind f) ∨
      ∃ t₁ t₂ a, t = t₁ ++ t₂ ∧ e.Leads t₁ (pure a) ∧ (f a).Leads t₂ r := by
  induction h with
  | nil => exact .inl ⟨e, .nil, rfl⟩
  | @call t op next _ x ih =>
    rcases ih with ⟨rest, hrest, hr⟩ | ⟨t₁, t₂, a, rfl, hfirst, hsecond⟩
    · cases rest with
      | pure a =>
        have hsecond : (f a).Leads [] (.call op next) := by rw [hr]; exact .nil
        exact .inr ⟨t, [⟨op, x⟩], a, rfl, hrest, .call hsecond x⟩
      | fail err => cases hr
      | pause time rest => cases hr
      | call op' rest =>
        cases hr
        exact .inl ⟨rest x, .call hrest x, rfl⟩
    · exact .inr ⟨t₁, t₂ ++ [⟨op, x⟩], a, List.append_assoc .., hfirst, .call hsecond x⟩
  | @pause t time next _ ih =>
    rcases ih with ⟨rest, hrest, hr⟩ | ⟨t₁, t₂, a, rfl, hfirst, hsecond⟩
    · cases rest with
      | pure a =>
        have hsecond : (f a).Leads [] (.pause time next) := by rw [hr]; exact .nil
        exact .inr ⟨t, [], a, (List.append_nil t).symm, hrest, .pause hsecond⟩
      | fail err => cases hr
      | call op rest => cases hr
      | pause time' rest =>
        cases hr
        exact .inl ⟨rest, .pause hrest, rfl⟩
    · exact .inr ⟨t₁, t₂, a, rfl, hfirst, .pause hsecond⟩

/-- A walk can be cut at every exchange: into what went before it, the question and what came after. -/
theorem cut {e r : Effect σ ε α} {t₁ t₂ : List (Exchange σ)} {x : Exchange σ} (h : e.Leads (t₁ ++ x :: t₂) r) :
    ∃ next, e.Leads t₁ (.call x.op next) ∧ (next x.answer).Leads t₂ r := by
  generalize ht : t₁ ++ x :: t₂ = t at h
  induction h generalizing t₂ with
  | nil => exact absurd ht (by simp)
  | @call t op next h y ih =>
    rcases List.eq_nil_or_concat t₂ with rfl | ⟨t₂, last, rfl⟩
    · obtain ⟨rfl, hlast⟩ := List.append_inj' ht rfl
      obtain rfl := List.singleton_inj.mp hlast
      exact ⟨next, h, .nil⟩
    · rw [List.concat_eq_append, ← List.cons_append, ← List.append_assoc] at ht
      obtain ⟨hinit, hlast⟩ := List.append_inj' ht rfl
      obtain rfl := List.singleton_inj.mp hlast
      obtain ⟨next₁, h₁, h₂⟩ := ih hinit
      rw [List.concat_eq_append]
      exact ⟨next₁, h₁, .call h₂ y⟩
  | pause h ih =>
    obtain ⟨next₁, h₁, h₂⟩ := ih ht
    exact ⟨next₁, h₁, .pause h₂⟩

theorem asks {P : σ.Op → Prop} {e r : Effect σ ε α} {t : List (Exchange σ)} (h : e.Leads t r)
    (he : e.Asks P) : (∀ x ∈ t, P x.op) ∧ r.Asks P := by
  induction h with
  | nil => exact ⟨fun x hx => absurd hx List.not_mem_nil, he⟩
  | call _ x ih =>
    refine ⟨fun y hy => ?_, ih.2.2 x⟩
    rcases List.mem_append.mp hy with hy | hy
    · exact ih.1 y hy
    · obtain rfl := List.mem_singleton.mp hy
      exact ih.2.1
  | pause _ ih => exact ih

end Leads

theorem asks_of_leads {P : σ.Op → Prop} {e : Effect σ ε α} (h : ∀ t op next, e.Leads t (call op next) → P op) :
    e.Asks P := by
  induction e with
  | pure a => trivial
  | fail err => trivial
  | pause time next ih => exact ih fun t op rest hrest => h t op rest (.trans (.pause .nil) hrest)
  | call op next ih =>
    refine ⟨h [] op next .nil, fun x => ih x fun t op' rest hrest => ?_⟩
    exact h _ op' rest ((Leads.first x).trans hrest)

end Effect

/-! ## Pools -/

/-- A world that several effects ask, one question at a time. It may answer a question in more ways than
one, and it may change while nobody asks. -/
structure Shared (σ : Signature) (W : Type w) where
  answers : (op : σ.Op) → W → σ.Answer op → W → Prop
  rests : W → W → Prop

def exchangesOf {σ : Signature} {ι : Type v} [DecidableEq ι] (j : ι) (τ : List (ι × Exchange σ)) :
    List (Exchange σ) :=
  τ.filterMap fun turn => if turn.1 = j then some turn.2 else none

namespace Pool

variable {σ : Signature} {ε : Type} {α : Type u} {W : Type w} {ι : Type v} [DecidableEq ι]
variable (world : Shared σ W)

/-- The members of a pool have taken these turns, in some order that respects the order within each member.
What is left of them and the world after it. -/
inductive Run (pool₀ : ι → Effect σ ε α) (w₀ : W) : List (ι × Exchange σ) → (ι → Effect σ ε α) → W → Prop
  | nil : Run pool₀ w₀ [] pool₀ w₀
  | call {τ pool w j op next x w'} (run : Run pool₀ w₀ τ pool w) (hj : pool j = .call op next)
      (ha : world.answers op w x w') :
      Run pool₀ w₀ (τ ++ [(j, ⟨op, x⟩)]) (Function.update pool j (next x)) w'
  | pause {τ pool w j time next} (run : Run pool₀ w₀ τ pool w) (hj : pool j = .pause time next) :
      Run pool₀ w₀ τ (Function.update pool j next) w
  | rest {τ pool w w'} (run : Run pool₀ w₀ τ pool w) (hw : world.rests w w') : Run pool₀ w₀ τ pool w'

variable {world}

theorem exchangesOf_append (j : ι) (τ τ' : List (ι × Exchange σ)) :
    exchangesOf j (τ ++ τ') = exchangesOf j τ ++ exchangesOf j τ' :=
  List.filterMap_append

theorem exchangesOf_cons_self (j : ι) (x : Exchange σ) (τ : List (ι × Exchange σ)) :
    exchangesOf j ((j, x) :: τ) = x :: exchangesOf j τ := by
  simp [exchangesOf]

theorem exchangesOf_of_ne {j k : ι} (h : j ≠ k) (x : Exchange σ) : exchangesOf k [(j, x)] = [] := by
  simp [exchangesOf, h]

theorem mem_exchangesOf {j : ι} {τ : List (ι × Exchange σ)} {x : Exchange σ} :
    x ∈ exchangesOf j τ ↔ (j, x) ∈ τ := by
  unfold exchangesOf
  rw [List.mem_filterMap]
  constructor
  · rintro ⟨⟨k, y⟩, hmem, h⟩
    by_cases hk : k = j
    · subst hk
      rw [if_pos rfl] at h
      cases h
      exact hmem
    · rw [if_neg hk] at h
      cases h
  · exact fun h => ⟨(j, x), h, if_pos rfl⟩

theorem exists_turn_of_exchangesOf {j : ι} {τ : List (ι × Exchange σ)} {t t' : List (Exchange σ)} {x : Exchange σ}
    (h : exchangesOf j τ = t ++ x :: t') :
    ∃ τ₁ τ₂, τ = τ₁ ++ (j, x) :: τ₂ ∧ exchangesOf j τ₁ = t ∧ exchangesOf j τ₂ = t' := by
  obtain ⟨τ₁, rest, rfl, hτ₁, hrest⟩ := List.filterMap_eq_append_iff.mp h
  obtain ⟨others, turn, τ₂, rfl, hothers, hturn, hτ₂⟩ := List.filterMap_eq_cons_iff.mp hrest
  obtain ⟨k, y⟩ := turn
  obtain ⟨rfl, hy⟩ := Option.ite_none_right_eq_some.mp hturn
  cases hy
  refine ⟨τ₁ ++ others, τ₂, (List.append_assoc ..).symm, ?_, hτ₂⟩
  rw [exchangesOf_append, show exchangesOf k others = [] from List.filterMap_eq_nil_iff.mpr hothers, List.append_nil]
  exact hτ₁

namespace Run

variable {pool₀ pool : ι → Effect σ ε α} {w₀ w : W} {τ : List (ι × Exchange σ)}

theorem leads (run : Run world pool₀ w₀ τ pool w) (j : ι) : (pool₀ j).Leads (exchangesOf j τ) (pool j) := by
  induction run with
  | nil => exact .nil
  | @call τ pool w k op next x w' _ hk _ ih =>
    rw [exchangesOf_append]
    by_cases h : k = j
    · subst h
      rw [exchangesOf_cons_self, Function.update_self]
      rw [hk] at ih
      exact .call ih x
    · rw [exchangesOf_of_ne h, List.append_nil, Function.update_of_ne (Ne.symm h)]
      exact ih
  | @pause τ pool w k time next _ hk ih =>
    by_cases h : k = j
    · subst h
      rw [Function.update_self]
      rw [hk] at ih
      exact .pause ih
    · rw [Function.update_of_ne (Ne.symm h)]
      exact ih
  | rest _ _ ih => exact ih

theorem append {pool' : ι → Effect σ ε α} {w' : W} {τ' : List (ι × Exchange σ)}
    (run : Run world pool₀ w₀ τ pool w) (next : Run world pool w τ' pool' w') :
    Run world pool₀ w₀ (τ ++ τ') pool' w' := by
  induction next with
  | nil => rw [List.append_nil]; exact run
  | call _ hk ha ih => rw [← List.append_assoc]; exact .call ih hk ha
  | pause _ hk ih => exact .pause ih hk
  | rest _ hw ih => exact .rest ih hw

theorem cut {τ₁ τ₂ : List (ι × Exchange σ)} {j : ι} {x : Exchange σ}
    (run : Run world pool₀ w₀ (τ₁ ++ (j, x) :: τ₂) pool w) :
    ∃ pool₁ w₁ next w₂, Run world pool₀ w₀ τ₁ pool₁ w₁ ∧ pool₁ j = .call x.op next ∧
      world.answers x.op w₁ x.answer w₂ ∧
      Run world (Function.update pool₁ j (next x.answer)) w₂ τ₂ pool w := by
  generalize hτ : τ₁ ++ (j, x) :: τ₂ = τ at run
  induction run generalizing τ₂ with
  | nil => exact absurd hτ (by simp)
  | @call τ pool w k op next y w' run hk ha ih =>
    rcases List.eq_nil_or_concat τ₂ with rfl | ⟨τ₂, last, rfl⟩
    · obtain ⟨rfl, hlast⟩ := List.append_inj' hτ rfl
      obtain ⟨rfl, rfl⟩ := Prod.mk.inj (List.singleton_inj.mp hlast)
      exact ⟨pool, w, next, w', run, hk, ha, .nil⟩
    · rw [List.concat_eq_append, ← List.cons_append, ← List.append_assoc] at hτ
      obtain ⟨hinit, hlast⟩ := List.append_inj' hτ rfl
      obtain rfl := List.singleton_inj.mp hlast
      obtain ⟨pool₁, w₁, next₁, w₂, h₁, h₂, h₃, h₄⟩ := ih hinit
      rw [List.concat_eq_append]
      exact ⟨pool₁, w₁, next₁, w₂, h₁, h₂, h₃, .call h₄ hk ha⟩
  | pause run hk ih =>
    obtain ⟨pool₁, w₁, next₁, w₂, h₁, h₂, h₃, h₄⟩ := ih hτ
    exact ⟨pool₁, w₁, next₁, w₂, h₁, h₂, h₃, .pause h₄ hk⟩
  | rest run hw ih =>
    obtain ⟨pool₁, w₁, next₁, w₂, h₁, h₂, h₃, h₄⟩ := ih hτ
    exact ⟨pool₁, w₁, next₁, w₂, h₁, h₂, h₃, .rest h₄ hw⟩

theorem split {τ₁ τ₂ : List (ι × Exchange σ)} (run : Run world pool₀ w₀ (τ₁ ++ τ₂) pool w) :
    ∃ pool₁ w₁, Run world pool₀ w₀ τ₁ pool₁ w₁ ∧ Run world pool₁ w₁ τ₂ pool w := by
  cases τ₂ with
  | nil => rw [List.append_nil] at run; exact ⟨pool, w, run, .nil⟩
  | cons turn τ₂ =>
    obtain ⟨pool₁, w₁, next, w₂, first, hj, ha, rest⟩ := run.cut
    exact ⟨pool₁, w₁, first, Run.append (.call .nil hj ha) rest⟩

end Run

end Pool

/-! ## Hosts -/

def Host.shared {σ : Signature} {W : Type} (host : Host σ W) : Shared σ W where
  answers op w x w' := host.answer op w = some (x, w')
  rests w w' := ∃ time, host.wait time w = w'

namespace Effect

variable {σ : Signature} {ε : Type} {α : Type u} {β : Type v} {W : Type} (host : Host σ W)

def transcript : Effect σ ε α → W → List (Exchange σ)
  | pure _, _ => []
  | fail _, _ => []
  | call op next, w =>
    match host.answer op w with
    | none => []
    | some (x, w') => ⟨op, x⟩ :: transcript (next x) w'
  | pause time next, w => transcript next (host.wait time w)

theorem transcript_call (op : σ.Op) (next : σ.Answer op → Effect σ ε α) (w : W) :
    (call op next).transcript host w =
      match host.answer op w with
      | none => []
      | some (x, w') => ⟨op, x⟩ :: (next x).transcript host w' := by
  cases h : host.answer op w <;> simp only [transcript, h]

theorem transcript_bind (e : Effect σ ε α) (f : α → Effect σ ε β) (w : W) :
    (e.bind f).transcript host w = e.transcript host w ++
      match e.run host w with
      | (.done a, w') => (f a).transcript host w'
      | _ => [] := by
  induction e generalizing w with
  | pure a => rfl
  | fail err => rfl
  | pause time next ih => exact ih (host.wait time w)
  | call op next ih =>
    rw [call_bind, run_call, transcript_call, transcript_call]
    cases host.answer op w with
    | none => rfl
    | some answered => exact congrArg (List.cons _) (ih answered.1 answered.2)

theorem leads_of_run {e : Effect σ ε α} {w w' : W} {err : ε} (h : e.run host w = (.failed err, w')) :
    e.Leads (e.transcript host w) (fail err) := by
  induction e generalizing w with
  | pure a => cases h
  | fail err => cases h; exact .nil
  | pause time next ih => exact .trans (.pause .nil) (ih h)
  | call op next ih =>
    rw [run_call] at h
    rw [transcript_call]
    cases ha : host.answer op w with
    | none => rw [ha] at h; cases h
    | some answered =>
      rw [ha] at h
      exact (Leads.first answered.1).trans (ih answered.1 h)

end Effect

namespace Pool

variable {σ : Signature} {ε : Type} {α : Type u} {W : Type} {ι : Type v} [DecidableEq ι] (host : Host σ W)

abbrev State (σ : Signature) (ε : Type) (α : Type u) (ι : Type v) (W : Type) :=
  List (ι × Exchange σ) × (ι → Effect σ ε α) × W

def turn (s : State σ ε α ι W) (j : ι) : State σ ε α ι W :=
  match s.2.1 j with
  | .call op next =>
    match host.answer op s.2.2 with
    | some (x, w) => (s.1 ++ [(j, ⟨op, x⟩)], Function.update s.2.1 j (next x), w)
    | none => s
  | .pause _ next => (s.1, Function.update s.2.1 j next, s.2.2)
  | _ => s

def play (pool : ι → Effect σ ε α) (w : W) (schedule : List ι) : State σ ε α ι W :=
  schedule.foldl (turn host) ([], pool, w)

variable {host} {pool : ι → Effect σ ε α} {w : W}

theorem Run.turn {s : State σ ε α ι W} (run : Run host.shared pool w s.1 s.2.1 s.2.2) (j : ι) :
    Run host.shared pool w (turn host s j).1 (turn host s j).2.1 (turn host s j).2.2 := by
  unfold Pool.turn
  cases hj : s.2.1 j with
  | pure a => exact run
  | fail err => exact run
  | pause time next => exact .pause run hj
  | call op next =>
    dsimp only
    cases ha : host.answer op s.2.2 with
    | none => exact run
    | some answered => exact .call run hj ha

theorem run_play (schedule : List ι) :
    Run host.shared pool w (play host pool w schedule).1 (play host pool w schedule).2.1
      (play host pool w schedule).2.2 := by
  unfold play
  have played : ∀ s : State σ ε α ι W, Run host.shared pool w s.1 s.2.1 s.2.2 →
      let s' := schedule.foldl (turn host) s
      Run host.shared pool w s'.1 s'.2.1 s'.2.2 := by
    induction schedule with
    | nil => exact fun _ run => run
    | cons j schedule ih => exact fun s run => ih _ (run.turn j)
  exact played _ .nil

end Pool

end Workflow

import Workflow.Effect.Cold
import Workflow.Proofs.Effect.Trace

/-!
# Effects that keep to a protocol

A protocol is an automaton over questions, calm wherever others may go on. An effect obeys it if it asks only what
may be asked, pauses and succeeds in calm, and fails only as it may. What may become of a failure differs from place
to place, so it is no part of the protocol. The combinators lead from obedient effects to obedient effects, and a run
of an obedient effect keeps to the protocol from its first question to its end: `Obeys.run`.
-/

namespace Workflow

universe u v w

structure Protocol (σ : Signature) where
  State : Type
  calm : State
  asks : State → σ.Op → Prop
  after : State → σ.Op → State

namespace Protocol

variable {σ : Signature} (P : Protocol σ)

def along (q : P.State) (t : List (Exchange σ)) : P.State :=
  t.foldl (fun q x => P.after q x.op) q

theorem along_concat (q : P.State) (t : List (Exchange σ)) (x : Exchange σ) :
    P.along q (t ++ [x]) = P.after (P.along q t) x.op := by
  unfold along
  rw [List.foldl_append]
  rfl

def Allows (q : P.State) (t : List (Exchange σ)) : Prop :=
  ∀ before x after, t = before ++ x :: after → P.asks (P.along q before) x.op

variable {P}

theorem allows_nil (q : P.State) : P.Allows q [] := by
  intro before x after h
  exact absurd h.symm (List.append_ne_nil_of_right_ne_nil _ (List.cons_ne_nil _ _))

theorem Allows.cons {q : P.State} {x : Exchange σ} {t : List (Exchange σ)} (hx : P.asks q x.op)
    (ht : P.Allows (P.after q x.op) t) : P.Allows q (x :: t) := by
  intro before y later h
  cases before with
  | nil =>
    obtain ⟨rfl, -⟩ := List.cons.inj h
    exact hx
  | cons z before =>
    obtain ⟨rfl, htail⟩ := List.cons.inj h
    exact ht before y later htail

end Protocol

namespace Effect

variable {σ : Signature} {ε : Type} {α : Type u} {β : Type v} {γ : Type w} {P : Protocol σ}

/-- From this state on the effect keeps to the protocol, whatever it is answered. -/
def Obeys (P : Protocol σ) (fails : P.State → ε → Prop) : Effect σ ε α → P.State → Prop
  | pure _, q => q = P.calm
  | fail err, q => fails q err
  | call op next, q => P.asks q op ∧ ∀ x, Obeys P fails (next x) (P.after q op)
  | pause _ next, q => q = P.calm ∧ Obeys P fails next P.calm

variable {fails fails' : P.State → ε → Prop} {q : P.State}

theorem Obeys.imp {e : Effect σ ε α} (he : e.Obeys P fails q) (h : ∀ q err, fails q err → fails' q err) :
    e.Obeys P fails' q := by
  induction e generalizing q with
  | pure a => exact he
  | fail err => exact h q err he
  | call op next ih => exact ⟨he.1, fun x => ih x (he.2 x)⟩
  | pause time next ih => exact ⟨he.1, ih he.2⟩

/-! ## One after another -/

theorem Obeys.bind {e : Effect σ ε α} {f : α → Effect σ ε β} (he : e.Obeys P fails q)
    (hf : ∀ a, (f a).Obeys P fails P.calm) : (e.bind f).Obeys P fails q := by
  induction e generalizing q with
  | pure a =>
    obtain rfl : q = P.calm := he
    exact hf a
  | fail err => exact he
  | call op next ih => exact ⟨he.1, fun x => ih x (he.2 x)⟩
  | pause time next ih => exact ⟨he.1, ih he.2⟩

theorem Obeys.map {e : Effect σ ε α} (he : e.Obeys P fails q) (f : α → β) : (e.map f).Obeys P fails q := by
  rw [map_eq_bind]
  exact he.bind fun _ => rfl

theorem Obeys.recover {e : Effect σ ε α} {handler : ε → Effect σ ε α} (he : e.Obeys P fails' q)
    (hh : ∀ q err, fails' q err → (handler err).Obeys P fails q) : (e.recover handler).Obeys P fails q := by
  induction e generalizing q with
  | pure a => exact he
  | fail err => exact hh q err he
  | call op next ih => exact ⟨he.1, fun x => ih x (he.2 x)⟩
  | pause time next ih => exact ⟨he.1, ih he.2⟩

theorem obeys_sequence {es : List (Effect σ ε α)} (h : ∀ e ∈ es, e.Obeys P fails P.calm) :
    (sequence es).Obeys P fails P.calm := by
  induction es with
  | nil => rfl
  | cons e es ih =>
    have hrest := ih fun e' he' => h e' (List.mem_cons_of_mem e he')
    exact (h e List.mem_cons_self).bind fun a => hrest.map (List.cons a)

theorem obeys_suspend (time? : Option Duration) : (suspend time? : Effect σ ε Unit).Obeys P fails P.calm := by
  cases time? with
  | none => rfl
  | some time => exact ⟨rfl, rfl⟩

/-! ## Side by side -/

theorem Obeys.halfRound {onward : Effect σ ε β → Effect σ ε γ} {alone : Duration → β → Effect σ ε γ}
    (honward : ∀ e : Effect σ ε β, e.Obeys P fails P.calm → (onward e).Obeys P fails P.calm)
    (halone : ∀ time b, (alone time b).Obeys P fails P.calm) {e : Effect σ ε β} (he : e.Obeys P fails q)
    (time : Duration) : (halfRound onward alone time e).Obeys P fails q := by
  induction e generalizing q time with
  | pure b =>
    obtain rfl : q = P.calm := he
    exact halone time b
  | fail err => exact he
  | call op next ih => exact ⟨he.1, fun x => ih x (he.2 x) time⟩
  | pause rest next ih =>
    unfold Effect.halfRound
    split
    · exact ⟨he.1, ih he.2 _⟩
    · refine ⟨he.1, honward _ ?_⟩
      split
      · exact ⟨rfl, he.2⟩
      · exact he.2

theorem Obeys.lockstep (f : α → β → γ) {e : Effect σ ε α} {d : Effect σ ε β} (he : e.Obeys P fails q)
    (hd : d.Obeys P fails P.calm) : (lockstep f e d).Obeys P fails q := by
  induction e generalizing d q with
  | pure a =>
    obtain rfl : q = P.calm := he
    rw [lockstep_pure]
    exact hd.map (f a)
  | fail err => cases d <;> exact he
  | call op next ih =>
    unfold Effect.lockstep
    exact ⟨he.1, fun x => ih x (he.2 x) hd⟩
  | pause time next ih =>
    obtain ⟨rfl, hnext⟩ := he
    unfold Effect.lockstep
    have halone (time : Duration) (b : β) : (pause time (next.map fun a => f a b)).Obeys P fails P.calm :=
      ⟨rfl, hnext.map fun a => f a b⟩
    exact Obeys.halfRound (fun _ => ih hnext) halone hd time

theorem Obeys.rival {e d : Effect σ ε α} (he : e.Obeys P fails q) (hd : d.Obeys P fails P.calm) :
    (rival e d).Obeys P fails q := by
  induction e generalizing d q with
  | pure a => cases d <;> exact he
  | fail err => cases d <;> exact he
  | call op next ih =>
    unfold Effect.rival
    exact ⟨he.1, fun x => ih x (he.2 x) hd⟩
  | pause time next ih =>
    obtain ⟨rfl, hnext⟩ := he
    unfold Effect.rival
    have halone (a : α) : (pure a : Effect σ ε α).Obeys P fails P.calm := rfl
    exact Obeys.halfRound (fun _ => ih hnext) (fun _ => halone) hd time

theorem obeys_joinAll {es : List (Effect σ ε α)} (h : ∀ e ∈ es, e.Obeys P fails P.calm) :
    (joinAll es).Obeys P fails P.calm := by
  induction es with
  | nil => rfl
  | cons e es ih =>
    have hrest := ih fun e' he' => h e' (List.mem_cons_of_mem e he')
    exact (h e List.mem_cons_self).lockstep List.cons hrest

theorem obeys_selectFirst {none : ε} {es : List (Effect σ ε α)} (hes : es = [] → fails P.calm none)
    (h : ∀ e ∈ es, e.Obeys P fails P.calm) : (selectFirst none es).Obeys P fails P.calm := by
  induction es with
  | nil => exact hes rfl
  | cons e es ih =>
    cases es with
    | nil => exact h e List.mem_cons_self
    | cons d es =>
      have hrest := ih nofun fun e' he' => h e' (List.mem_cons_of_mem e he')
      exact (h e List.mem_cons_self).rival hrest

/-! ## Runs -/

variable {W : Type} (host : Host σ W)

def MayEnd (fails : P.State → ε → Prop) (q : P.State) : Outcome ε α → Prop
  | .done _ => q = P.calm
  | .failed err => fails q err
  | .stopped => ∃ op w, P.asks q op ∧ host.answer op w = none

theorem Obeys.run {e : Effect σ ε α} (h : e.Obeys P fails q) (w : W) :
    P.Allows q (e.transcript host w) ∧ MayEnd host fails (P.along q (e.transcript host w)) (e.run host w).1 := by
  induction e generalizing q w with
  | pure a => exact ⟨Protocol.allows_nil q, h⟩
  | fail err => exact ⟨Protocol.allows_nil q, h⟩
  | pause time next ih =>
    obtain ⟨rfl, hnext⟩ := h
    exact ih hnext (host.wait time w)
  | call op next ih =>
    rw [run_call, transcript_call]
    cases ha : host.answer op w with
    | none => exact ⟨Protocol.allows_nil q, op, w, h.1, ha⟩
    | some answered =>
      obtain ⟨hallows, hend⟩ := ih answered.1 (h.2 answered.1) answered.2
      exact ⟨hallows.cons h.1, hend⟩

end Effect

/-! ## Effects before they are executed -/

namespace Cold

variable {σ : Signature} {ε : Type} {α : Type u} {β : Type v} {γ : Type w} {P : Protocol σ}

def Obeys (P : Protocol σ) (fails : P.State → ε → Prop) : Cold σ ε α → Prop
  | ready work => work.Obeys P fails P.calm
  | call op next => P.asks P.calm op ∧ P.after P.calm op = P.calm ∧ ∀ x, Obeys P fails (next x)

variable {fails fails' : P.State → ε → Prop} {c : Cold σ ε α} {cs : List (Cold σ ε α)}

theorem Obeys.execute (h : c.Obeys P fails) : c.execute.Obeys P fails P.calm := by
  induction c with
  | ready work => exact h
  | call op next ih =>
    obtain ⟨hasks, hafter, hnext⟩ := h
    refine ⟨hasks, ?_⟩
    intro x
    rw [hafter]
    exact ih x (hnext x)

theorem Obeys.start (h : c.Obeys P fails) {f : Effect σ ε α → Cold σ ε β}
    (hf : ∀ e, e.Obeys P fails P.calm → (f e).Obeys P fails') : (c.start f).Obeys P fails' := by
  induction c with
  | ready work => exact hf work h
  | call op next ih => exact ⟨h.1, h.2.1, fun x => ih x (h.2.2 x)⟩

theorem obeys_startAll (h : ∀ c ∈ cs, c.Obeys P fails) {f : List (Effect σ ε α) → Cold σ ε β}
    (hf : ∀ es, (∀ e ∈ es, e.Obeys P fails P.calm) → (f es).Obeys P fails') : (startAll cs f).Obeys P fails' := by
  induction cs generalizing f with
  | nil => exact hf [] fun _ he => absurd he List.not_mem_nil
  | cons c cs ih =>
    apply (h c List.mem_cons_self).start
    intro e he
    apply ih fun d hd => h d (List.mem_cons_of_mem c hd)
    intro es hes
    exact hf (e :: es) (List.forall_mem_cons.mpr ⟨he, hes⟩)

theorem Obeys.bind {f : α → Cold σ ε β} (h : c.Obeys P fails) (hf : ∀ a, (f a).Obeys P fails) :
    (c.bind f).Obeys P fails :=
  h.start fun _ he => he.bind fun a => (hf a).execute

theorem Obeys.map (h : c.Obeys P fails) (f : α → β) : (c.map f).Obeys P fails :=
  h.start fun _ he => he.map f

theorem Obeys.recover {handler : ε → Cold σ ε α} (h : c.Obeys P fails')
    (hh : ∀ q err, fails' q err → (handler err).execute.Obeys P fails q) : (c.recover handler).Obeys P fails :=
  h.start fun _ he => he.recover hh

theorem Obeys.map2 {d : Cold σ ε β} (h : c.Obeys P fails) (hd : d.Obeys P fails) (f : α → β → γ) :
    (map2 f c d).Obeys P fails :=
  h.execute.bind fun a => hd.execute.map (f a)

theorem obeys_sequence (h : ∀ c ∈ cs, c.Obeys P fails) : (sequence cs).Obeys P fails :=
  Effect.obeys_sequence (List.forall_mem_map.mpr fun c hc => (h c hc).execute)

theorem obeys_all (h : ∀ c ∈ cs, c.Obeys P fails) : (all cs).Obeys P fails :=
  obeys_startAll h fun _ hes => Effect.obeys_joinAll hes

end Cold

end Workflow

import Workflow.Effect.Cold
import Workflow.Proofs.Effect.Run

/-!
# Interpretation

An effect is carried over to other questions by answering each of its own with an effect that asks those. Effects
side by side stay side by side where every answer is prompt, so that no other member can come between.
-/

namespace Workflow.Effect

universe u v w t

variable {σ ρ : Signature} {ε : Type} {α : Type u} {β : Type v} {γ : Type w} {δ : Type t}

def interp (answer : (op : σ.Op) → Effect ρ ε (σ.Answer op)) : Effect σ ε α → Effect ρ ε α
  | pure a => pure a
  | fail err => fail err
  | call op next => (answer op).bind fun x => interp answer (next x)
  | pause time next => pause time (interp answer next)

variable (answer : (op : σ.Op) → Effect ρ ε (σ.Answer op))

theorem interp_bind (e : Effect σ ε α) (f : α → Effect σ ε β) :
    (e.bind f).interp answer = (e.interp answer).bind fun a => (f a).interp answer := by
  induction e with
  | pure a => rfl
  | fail err => rfl
  | pause time next ih => exact congrArg (pause time) ih
  | call op next ih =>
    show (answer op).bind (fun x => ((next x).bind f).interp answer) = _
    simp only [ih]
    exact (bind_assoc ..).symm

theorem interp_map (e : Effect σ ε α) (f : α → β) : (e.map f).interp answer = (e.interp answer).map f := by
  rw [map_eq_bind, map_eq_bind, interp_bind]
  rfl

theorem interp_suspend (time? : Option Duration) :
    (suspend time? : Effect σ ε Unit).interp answer = suspend time? := by
  cases time? <;> rfl

theorem interp_map2 (f : α → β → γ) (e : Effect σ ε α) (d : Effect σ ε β) :
    (map2 f e d).interp answer = map2 f (e.interp answer) (d.interp answer) := by
  unfold map2
  simp only [interp_bind, interp_map]

theorem interp_sequence (es : List (Effect σ ε α)) :
    (sequence es).interp answer = sequence (es.map (interp answer)) := by
  induction es with
  | nil => rfl
  | cons e es ih =>
    rw [List.map_cons, sequence_cons, sequence_cons, interp_map2, ih]

theorem run_interp {W : Type} {host : Host ρ W} {host' : Host σ W} (hwait : host'.wait = host.wait)
    (hanswer : ∀ op w, (answer op).run host w =
      (host'.answer op w).elim (.stopped, w) fun answered => (.done answered.1, answered.2))
    (e : Effect σ ε α) (w : W) : (e.interp answer).run host w = e.run host' w := by
  induction e generalizing w with
  | pure a => rfl
  | fail err => rfl
  | pause time next ih =>
    rw [run_pause, hwait]
    exact ih (host.wait time w)
  | call op next ih =>
    have hbind : (call op next).interp answer = (answer op).bind fun x => (next x).interp answer := rfl
    rw [hbind, run_bind, hanswer, run_call]
    cases host'.answer op w with
    | none => rfl
    | some answered => exact ih answered.1 answered.2

/-! ## Prompt answers -/

/-- The effect gives its value at once, or after one question. -/
def Prompt (m : Effect σ ε α) : Prop :=
  (∃ a, m = pure a) ∨ ∃ (op : σ.Op) (f : σ.Answer op → α), m = call op fun x => pure (f x)

section
variable {m : Effect σ ε α} (hm : m.Prompt)
include hm

theorem Prompt.bind_recover (g : α → Effect σ ε β) (handler : ε → Effect σ ε β) :
    (m.bind g).recover handler = m.bind fun a => (g a).recover handler := by
  obtain ⟨a, rfl⟩ | ⟨op, f, rfl⟩ := hm <;> rfl

theorem Prompt.halfRound_bind (onward : Effect σ ε β → Effect σ ε γ) (alone : Duration → β → Effect σ ε γ)
    (time : Duration) (g : α → Effect σ ε β) :
    halfRound onward alone time (m.bind g) = m.bind fun a => halfRound onward alone time (g a) := by
  obtain ⟨a, rfl⟩ | ⟨op, f, rfl⟩ := hm <;> rfl

theorem Prompt.lockstep_bind (f : β → δ → γ) (g : α → Effect σ ε β) (d : Effect σ ε δ) :
    lockstep f (m.bind g) d = m.bind fun a => lockstep f (g a) d := by
  obtain ⟨a, rfl⟩ | ⟨op, h, rfl⟩ := hm <;> rfl

theorem Prompt.rival_bind (g : α → Effect σ ε β) (d : Effect σ ε β) :
    rival (m.bind g) d = m.bind fun a => rival (g a) d := by
  obtain ⟨a, rfl⟩ | ⟨op, h, rfl⟩ := hm <;> rfl

end

section
variable {answer} (hprompt : ∀ op, (answer op).Prompt)
include hprompt

theorem interp_recover (e : Effect σ ε α) (handler : ε → Effect σ ε α) :
    (e.recover handler).interp answer = (e.interp answer).recover fun err => (handler err).interp answer := by
  induction e with
  | pure a => rfl
  | fail err => rfl
  | pause time next ih => exact congrArg (pause time) ih
  | call op next ih =>
    show (answer op).bind (fun x => ((next x).recover handler).interp answer) = _
    simp only [ih]
    exact ((hprompt op).bind_recover _ _).symm

theorem interp_halfRound {onward : Effect σ ε β → Effect σ ε γ} {onward' : Effect ρ ε β → Effect ρ ε γ}
    {alone : Duration → β → Effect σ ε γ} {alone' : Duration → β → Effect ρ ε γ}
    (honward : ∀ e, (onward e).interp answer = onward' (e.interp answer))
    (halone : ∀ time b, (alone time b).interp answer = alone' time b) (time : Duration) (e : Effect σ ε β) :
    (halfRound onward alone time e).interp answer = halfRound onward' alone' time (e.interp answer) := by
  induction e generalizing time with
  | pure b => exact halone time b
  | fail err => rfl
  | call op next ih =>
    show (answer op).bind (fun x => (halfRound onward alone time (next x)).interp answer) = _
    simp only [ih]
    exact ((hprompt op).halfRound_bind _ _ _ _).symm
  | pause rest next ih =>
    show (halfRound onward alone time (pause rest next)).interp answer =
      halfRound onward' alone' time (pause rest (next.interp answer))
    unfold halfRound
    split
    · exact congrArg (pause rest) (ih _)
    · refine congrArg (pause time) ((honward _).trans ?_)
      split <;> rfl

theorem interp_lockstep (f : α → β → γ) (e : Effect σ ε α) (d : Effect σ ε β) :
    (lockstep f e d).interp answer = lockstep f (e.interp answer) (d.interp answer) := by
  induction e generalizing d with
  | pure a =>
    rw [lockstep_pure, interp_map]
    exact (lockstep_pure f a _).symm
  | fail err => cases d <;> rfl
  | call op next ih =>
    show (answer op).bind (fun x => (lockstep f (next x) d).interp answer) = _
    simp only [ih]
    exact ((hprompt op).lockstep_bind _ _ _).symm
  | pause time next ih =>
    refine interp_halfRound hprompt ih ?_ time d
    intro time b
    exact congrArg (pause time) (interp_map ..)

theorem interp_rival (e d : Effect σ ε α) :
    (rival e d).interp answer = rival (e.interp answer) (d.interp answer) := by
  induction e generalizing d with
  | pure a => cases d <;> rfl
  | fail err => cases d <;> rfl
  | call op next ih =>
    show (answer op).bind (fun x => (rival (next x) d).interp answer) = _
    simp only [ih]
    exact ((hprompt op).rival_bind _ _).symm
  | pause time next ih => exact interp_halfRound hprompt ih (fun _ _ => rfl) time d

theorem interp_joinAll (es : List (Effect σ ε α)) : (joinAll es).interp answer = joinAll (es.map (interp answer)) := by
  induction es with
  | nil => rfl
  | cons e es ih => rw [List.map_cons, joinAll_cons, joinAll_cons, interp_lockstep hprompt, ih]

theorem interp_selectFirst (none : ε) (es : List (Effect σ ε α)) :
    (selectFirst none es).interp answer = selectFirst none (es.map (interp answer)) := by
  induction es with
  | nil => rfl
  | cons e es ih =>
    cases es with
    | nil => rfl
    | cons d es =>
      rw [List.map_cons, List.map_cons, selectFirst_cons, selectFirst_cons, interp_rival hprompt, ih, List.map_cons]

end

/-! ## Outcomes as values -/

def settled (e : Effect σ ε α) : Effect σ ε (Except ε α) :=
  (e.map .ok).recover fun err => pure (.error err)

theorem settled_bind (e : Effect σ ε α) : e.settled.bind ofExcept = e := by
  unfold settled
  induction e with
  | pure a => rfl
  | fail err => rfl
  | pause time next ih => exact congrArg (pause time) ih
  | call op next ih => exact congrArg (call op) (funext ih)

end Workflow.Effect

/-! ## Effects before they are executed -/

namespace Workflow.Cold

universe u v w

variable {σ ρ : Signature} {ε : Type} {α : Type u} {β : Type v} {γ : Type w}

/-- Asks the questions of an effect at once, up to where it pauses. -/
def ahead : Effect ρ ε β → (β → Cold ρ ε α) → Cold ρ ε α
  | .pure b, f => f b
  | .fail err, _ => ready (.fail err)
  | .call op next, f => call op fun x => ahead (next x) f
  | .pause time next, f => ready (.pause time (next.bind fun b => (f b).execute))

def interp (answer : (op : σ.Op) → Effect ρ ε (σ.Answer op)) : Cold σ ε α → Cold ρ ε α
  | ready work => ready (work.interp answer)
  | call op next => ahead (answer op) fun x => interp answer (next x)

theorem execute_ahead (m : Effect ρ ε β) (f : β → Cold ρ ε α) :
    (ahead m f).execute = m.bind fun b => (f b).execute := by
  induction m with
  | pure b => rfl
  | fail err => rfl
  | pause time next _ => rfl
  | call op next ih => exact congrArg (Effect.call op) (funext ih)

theorem execute_interp (answer : (op : σ.Op) → Effect ρ ε (σ.Answer op)) (c : Cold σ ε α) :
    (c.interp answer).execute = c.execute.interp answer := by
  induction c with
  | ready work => rfl
  | call op next ih =>
    show (ahead (answer op) _).execute = _
    rw [execute_ahead, funext ih]
    rfl

theorem start_ahead {m : Effect ρ ε γ} (hm : m.Prompt) (g : γ → Cold ρ ε α) (f : Effect ρ ε α → Cold ρ ε β) :
    (ahead m g).start f = ahead m fun a => (g a).start f := by
  obtain ⟨a, rfl⟩ | ⟨op, h, rfl⟩ := hm <;> rfl

section
variable {answer : (op : σ.Op) → Effect ρ ε (σ.Answer op)} (hprompt : ∀ op, (answer op).Prompt)
include hprompt

theorem interp_start {f : Effect σ ε α → Cold σ ε β} {f' : Effect ρ ε α → Cold ρ ε β}
    (hf : ∀ e, (f e).interp answer = f' (e.interp answer)) (c : Cold σ ε α) :
    (c.start f).interp answer = (c.interp answer).start f' := by
  induction c with
  | ready work => exact hf work
  | call op next ih =>
    show ahead (answer op) (fun x => ((next x).start f).interp answer) = _
    simp only [ih]
    exact (start_ahead (hprompt op) _ _).symm

theorem interp_startAll {f : List (Effect σ ε α) → Cold σ ε β} {f' : List (Effect ρ ε α) → Cold ρ ε β}
    (hf : ∀ es, (f es).interp answer = f' (es.map (Effect.interp answer))) (cs : List (Cold σ ε α)) :
    (startAll cs f).interp answer = startAll (cs.map (interp answer)) f' := by
  induction cs generalizing f f' with
  | nil => exact hf []
  | cons c cs ih => exact interp_start hprompt (fun e => ih fun es => hf (e :: es)) c

theorem interp_bind (c : Cold σ ε α) (f : α → Cold σ ε β) :
    (c.bind f).interp answer = (c.interp answer).bind fun a => (f a).interp answer := by
  apply interp_start hprompt
  intro e
  simp only [interp, Effect.interp_bind, execute_interp]

theorem interp_map (f : α → β) (c : Cold σ ε α) : (c.map f).interp answer = (c.interp answer).map f := by
  apply interp_start hprompt
  intro e
  exact congrArg ready (Effect.interp_map answer e f)

theorem interp_recover (c : Cold σ ε α) (handler : ε → Cold σ ε α) :
    (c.recover handler).interp answer = (c.interp answer).recover fun err => (handler err).interp answer := by
  apply interp_start hprompt
  intro e
  simp only [interp, Effect.interp_recover hprompt, execute_interp]

theorem interp_all (cs : List (Cold σ ε α)) : (all cs).interp answer = all (cs.map (interp answer)) := by
  apply interp_startAll hprompt
  intro es
  exact congrArg ready (Effect.interp_joinAll hprompt es)

end

section
variable (answer : (op : σ.Op) → Effect ρ ε (σ.Answer op))

theorem interp_map2 (f : α → β → γ) (c : Cold σ ε α) (d : Cold σ ε β) :
    (map2 f c d).interp answer = map2 f (c.interp answer) (d.interp answer) := by
  simp only [map2, interp, Effect.interp_map2, execute_interp]

theorem interp_sequence (cs : List (Cold σ ε α)) :
    (sequence cs).interp answer = sequence (cs.map (interp answer)) := by
  simp only [sequence, interp, Effect.interp_sequence, List.map_map, Function.comp_def, execute_interp]

end

end Workflow.Cold

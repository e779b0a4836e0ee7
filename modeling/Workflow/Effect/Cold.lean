import Workflow.Effect.Rounds

/-!
# Effects before they are executed

Executing an effect asks some questions at once, and what comes of that is work, which does the rest when it is
polled. An effect that is executed by itself is polled right away: `execute`. Not so a member of a list. `all` and
`race` execute every member, in list order, before the first of them is polled, while `map2` and `sequence` execute a
member when those before it have ended.
-/

namespace Workflow

universe u v w

inductive Cold (σ : Signature) (ε : Type) (α : Type u) : Type u where
  | ready (work : Effect σ ε α)
  | call (op : σ.Op) (next : σ.Answer op → Cold σ ε α)

namespace Cold

variable {σ : Signature} {ε : Type} {α : Type u} {β : Type v} {γ : Type w}

def execute : Cold σ ε α → Effect σ ε α
  | ready work => work
  | call op next => .call op fun x => (next x).execute

/-- Executing the effect does nothing. -/
def Idle : Cold σ ε α → Prop
  | ready _ => True
  | call _ _ => False

def start : Cold σ ε α → (Effect σ ε α → Cold σ ε β) → Cold σ ε β
  | ready work, f => f work
  | call op next, f => call op fun x => (next x).start f

def startAll : List (Cold σ ε α) → (List (Effect σ ε α) → Cold σ ε β) → Cold σ ε β
  | [], f => f []
  | c :: cs, f => c.start fun work => startAll cs fun works => f (work :: works)

/-! ## Combinators -/

def bind (c : Cold σ ε α) (f : α → Cold σ ε β) : Cold σ ε β :=
  c.start fun work => ready (work.bind fun a => (f a).execute)

def andThen (first : Cold σ ε α) (second : Cold σ ε β) : Cold σ ε β :=
  first.bind fun _ => second

def map (f : α → β) (c : Cold σ ε α) : Cold σ ε β :=
  c.start fun work => ready (work.map f)

def discard (c : Cold σ ε α) : Cold σ ε Unit :=
  c.map fun _ => ()

def recover (c : Cold σ ε α) (handler : ε → Cold σ ε α) : Cold σ ε α :=
  c.start fun work => ready (work.recover fun e => (handler e).execute)

def map2 (f : α → β → γ) (first : Cold σ ε α) (second : Cold σ ε β) : Cold σ ε γ :=
  ready (Effect.map2 f first.execute second.execute)

def sequence (cs : List (Cold σ ε α)) : Cold σ ε (List α) :=
  ready (Effect.sequence (cs.map execute))

def traverse (f : β → Cold σ ε α) (items : List β) : Cold σ ε (List α) :=
  sequence (items.map f)

def pipe (c : Cold σ ε α) (steps : List (α → Cold σ ε α)) : Cold σ ε α :=
  steps.foldl bind c

def all (cs : List (Cold σ ε α)) : Cold σ ε (List α) :=
  startAll cs fun works => ready (Effect.joinAll works)

/-- With no members it fails with `none`. -/
def race (none : ε) (cs : List (Cold σ ε α)) : Cold σ ε α :=
  startAll cs fun works => ready (Effect.selectFirst none works)

/-! ## Executions -/

@[simp] theorem execute_ready (work : Effect σ ε α) : (ready work).execute = work := rfl

@[simp] theorem execute_call (op : σ.Op) (next : σ.Answer op → Cold σ ε α) :
    (call op next).execute = .call op fun x => (next x).execute := rfl

@[simp] theorem execute_bind (c : Cold σ ε α) (f : α → Cold σ ε β) :
    (c.bind f).execute = c.execute.bind fun a => (f a).execute := by
  induction c with
  | ready work => rfl
  | call op next ih => exact congrArg (Effect.call op) (funext ih)

@[simp] theorem execute_andThen (c : Cold σ ε α) (d : Cold σ ε β) :
    (c.andThen d).execute = c.execute.andThen d.execute :=
  execute_bind c _

@[simp] theorem execute_map (f : α → β) (c : Cold σ ε α) : (c.map f).execute = c.execute.map f := by
  induction c with
  | ready work => rfl
  | call op next ih => exact congrArg (Effect.call op) (funext ih)

@[simp] theorem execute_discard (c : Cold σ ε α) : c.discard.execute = c.execute.discard :=
  execute_map _ c

@[simp] theorem execute_recover (c : Cold σ ε α) (handler : ε → Cold σ ε α) :
    (c.recover handler).execute = c.execute.recover fun e => (handler e).execute := by
  induction c with
  | ready work => rfl
  | call op next ih => exact congrArg (Effect.call op) (funext ih)

theorem recover_congr (c : Cold σ ε α) {handler handler' : ε → Cold σ ε α}
    (h : ∀ e, (handler e).execute = (handler' e).execute) : c.recover handler = c.recover handler' := by
  unfold recover
  rw [funext h]

@[simp] theorem execute_map2 (f : α → β → γ) (c : Cold σ ε α) (d : Cold σ ε β) :
    (map2 f c d).execute = Effect.map2 f c.execute d.execute := rfl

@[simp] theorem execute_sequence (cs : List (Cold σ ε α)) :
    (sequence cs).execute = Effect.sequence (cs.map execute) := rfl

@[simp] theorem execute_traverse (f : β → Cold σ ε α) (items : List β) :
    (traverse f items).execute = Effect.traverse (fun item => (f item).execute) items := by
  unfold traverse Effect.traverse
  rw [execute_sequence, List.map_map]
  rfl

@[simp] theorem execute_pipe (c : Cold σ ε α) (steps : List (α → Cold σ ε α)) :
    (c.pipe steps).execute = c.execute.pipe (steps.map fun step a => (step a).execute) := by
  unfold pipe Effect.pipe
  induction steps generalizing c with
  | nil => rfl
  | cons step steps ih => rw [List.foldl_cons, ih, execute_bind]; rfl

@[simp] theorem start_ready (c : Cold σ ε α) : c.start ready = c := by
  induction c with
  | ready work => rfl
  | call op next ih => exact congrArg (call op) (funext ih)

theorem startAll_map_ready (works : List (Effect σ ε α)) (f : List (Effect σ ε α) → Cold σ ε β) :
    startAll (works.map ready) f = f works := by
  induction works generalizing f with
  | nil => rfl
  | cons work works ih => exact ih fun rest => f (work :: rest)

theorem idle_ready (work : Effect σ ε α) : (ready work).Idle := trivial

theorem Idle.start {c : Cold σ ε α} (hc : c.Idle) {f : Effect σ ε α → Cold σ ε β} (hf : ∀ e, (f e).Idle) :
    (c.start f).Idle := by
  cases c with
  | ready work => exact hf work
  | call op next => exact hc.elim

theorem idle_startAll {cs : List (Cold σ ε α)} (hcs : ∀ c ∈ cs, c.Idle) {f : List (Effect σ ε α) → Cold σ ε β}
    (hf : ∀ es, (f es).Idle) : (startAll cs f).Idle := by
  induction cs generalizing f with
  | nil => exact hf []
  | cons c cs ih =>
    apply (hcs c List.mem_cons_self).start
    intro e
    exact ih (fun d hd => hcs d (List.mem_cons_of_mem c hd)) fun es => hf (e :: es)

theorem Idle.pipe {c : Cold σ ε α} (hc : c.Idle) (steps : List (α → Cold σ ε α)) : (c.pipe steps).Idle := by
  unfold Cold.pipe
  induction steps generalizing c with
  | nil => exact hc
  | cons step steps ih => exact ih (hc.start fun _ => trivial)

theorem exists_works {cs : List (Cold σ ε α)} (h : ∀ c ∈ cs, c.Idle) :
    ∃ works : List (Effect σ ε α), cs = works.map ready := by
  induction cs with
  | nil => exact ⟨[], rfl⟩
  | cons c cs ih =>
    cases c with
    | call op next => exact (h _ List.mem_cons_self).elim
    | ready work =>
      obtain ⟨works, rfl⟩ := ih fun d hd => h d (List.mem_cons_of_mem _ hd)
      exact ⟨work :: works, rfl⟩

theorem execute_all_of_idle {cs : List (Cold σ ε α)} (h : ∀ c ∈ cs, c.Idle) :
    (all cs).execute = Effect.joinAll (cs.map execute) := by
  obtain ⟨works, rfl⟩ := exists_works h
  unfold all
  rw [startAll_map_ready, List.map_map]
  exact congrArg Effect.joinAll (List.map_id works).symm

theorem execute_race_of_idle (none : ε) {cs : List (Cold σ ε α)} (h : ∀ c ∈ cs, c.Idle) :
    (race none cs).execute = Effect.selectFirst none (cs.map execute) := by
  obtain ⟨works, rfl⟩ := exists_works h
  unfold race
  rw [startAll_map_ready, List.map_map]
  exact congrArg (Effect.selectFirst none) (List.map_id works).symm

end Cold

end Workflow

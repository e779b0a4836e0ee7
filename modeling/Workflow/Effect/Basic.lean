import Workflow.Duration

/-!
# Effects

An effect is a description of work. It ends with a value, fails with an error, asks the world a
question and goes on with the answer, or pauses for a time to let its neighbours go on. Building
an effect does nothing: an effect is a finite tree, and whoever runs it walks down one branch,
answering the questions on the way.

Main statements: `bind` is associative with `pure` as its unit, and `recover` is its counterpart
for failures.
-/

namespace Workflow

universe u v w

/-- The questions an effect may ask of the world, each with the type of its answers. -/
structure Signature where
  Op : Type
  Answer : Op → Type

/-- Work that asks questions of `σ`, fails with an `ε` or ends with an `α`. -/
inductive Effect (σ : Signature) (ε : Type) (α : Type u) : Type u where
  | pure (value : α)
  | fail (error : ε)
  | call (op : σ.Op) (next : σ.Answer op → Effect σ ε α)
  /-- Goes on when the time has passed. Without a time it goes on in the next round. -/
  | pause (time : Duration) (next : Effect σ ε α)

namespace Effect

variable {σ : Signature} {ε : Type} {α : Type u} {β : Type v} {γ : Type w}

/-! ## Combinators -/

def bind : Effect σ ε α → (α → Effect σ ε β) → Effect σ ε β
  | pure a, f => f a
  | fail e, _ => fail e
  | call op next, f => call op fun x => bind (next x) f
  | pause time next, f => pause time (bind next f)

def map (f : α → β) : Effect σ ε α → Effect σ ε β
  | pure a => pure (f a)
  | fail e => fail e
  | call op next => call op fun x => map f (next x)
  | pause time next => pause time (map f next)

def andThen (first : Effect σ ε α) (second : Effect σ ε β) : Effect σ ε β :=
  first.bind fun _ => second

def unit : Effect σ ε Unit :=
  pure ()

def discard (e : Effect σ ε α) : Effect σ ε Unit :=
  e.map fun _ => ()

def recover : Effect σ ε α → (ε → Effect σ ε α) → Effect σ ε α
  | pure a, _ => pure a
  | fail e, handler => handler e
  | call op next, handler => call op fun x => recover (next x) handler
  | pause time next, handler => pause time (recover next handler)

def map2 (f : α → β → γ) (first : Effect σ ε α) (second : Effect σ ε β) : Effect σ ε γ :=
  first.bind fun a => second.map (f a)

def ask (op : σ.Op) : Effect σ ε (σ.Answer op) :=
  call op pure

def pauses : Nat → Effect σ ε Unit
  | 0 => unit
  | n + 1 => pause .zero (pauses n)

def suspend : Option Duration → Effect σ ε Unit
  | none => unit
  | some time => pause time unit

def ofExcept : Except ε α → Effect σ ε α
  | .ok a => pure a
  | .error e => fail e

/-! ## Lists of effects, one after another -/

def sequence : List (Effect σ ε α) → Effect σ ε (List α)
  | [] => pure []
  | e :: es => map2 List.cons e (sequence es)

def traverse (f : β → Effect σ ε α) (items : List β) : Effect σ ε (List α) :=
  sequence (items.map f)

def pipe (e : Effect σ ε α) (steps : List (α → Effect σ ε α)) : Effect σ ε α :=
  steps.foldl bind e

/-! ## Laws -/

@[simp] theorem pure_bind (a : α) (f : α → Effect σ ε β) : (pure a).bind f = f a := rfl

@[simp] theorem fail_bind (e : ε) (f : α → Effect σ ε β) : (fail e).bind f = fail e := rfl

@[simp] theorem call_bind (op : σ.Op) (next : σ.Answer op → Effect σ ε α)
    (f : α → Effect σ ε β) : (call op next).bind f = call op fun x => (next x).bind f := rfl

@[simp] theorem pause_bind (time : Duration) (e : Effect σ ε α) (f : α → Effect σ ε β) :
    (pause time e).bind f = pause time (e.bind f) := rfl

@[simp] theorem bind_pure (e : Effect σ ε α) : e.bind pure = e := by
  induction e with
  | pure a => rfl
  | fail e => rfl
  | call op next ih => simp [ih]
  | pause time next ih => simp [ih]

theorem bind_assoc (e : Effect σ ε α) (f : α → Effect σ ε β) (g : β → Effect σ ε γ) :
    (e.bind f).bind g = e.bind fun a => (f a).bind g := by
  induction e with
  | pure a => rfl
  | fail e => rfl
  | call op next ih => simp [ih]
  | pause time next ih => simp [ih]

theorem map_eq_bind (f : α → β) (e : Effect σ ε α) : e.map f = e.bind fun a => pure (f a) := by
  induction e with
  | pure a => rfl
  | fail e => rfl
  | call op next ih => simp [map, ih]
  | pause time next ih => simp [map, ih]

@[simp] theorem recover_pure (a : α) (handler : ε → Effect σ ε α) :
    (pure a).recover handler = pure a := rfl

@[simp] theorem recover_fail (e : ε) (handler : ε → Effect σ ε α) :
    (fail e).recover handler = handler e := rfl

@[simp] theorem recover_call (op : σ.Op) (next : σ.Answer op → Effect σ ε α)
    (handler : ε → Effect σ ε α) :
    (call op next).recover handler = call op fun x => (next x).recover handler := rfl

@[simp] theorem recover_pause (time : Duration) (e : Effect σ ε α)
    (handler : ε → Effect σ ε α) :
    (pause time e).recover handler = pause time (e.recover handler) := rfl

theorem recover_with_fail (e : Effect σ ε α) : e.recover fail = e := by
  induction e with
  | pure a => rfl
  | fail e => rfl
  | call op next ih => simp [ih]
  | pause time next ih => simp [ih]

@[simp] theorem sequence_nil : sequence ([] : List (Effect σ ε α)) = pure [] := rfl

theorem sequence_cons (e : Effect σ ε α) (es : List (Effect σ ε α)) :
    sequence (e :: es) = map2 List.cons e (sequence es) := rfl

end Effect

end Workflow

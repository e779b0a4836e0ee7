import Workflow.Effect.Basic

/-!
# Effects side by side

`joinAll` and `selectFirst` poll effects in rounds. In a round every unfinished member, in list
order, goes on until it pauses or ends, and the whole pauses once between two rounds: for as long
as the first of the paused members does. A member whose time has not passed by then stays paused,
for the rest of its time. `joinAll` waits for every member and fails with the first failure;
`selectFirst` ends as its first member ends.

Both are built from two members at a time: the second member may itself be a whole list, whose
rounds then coincide with the rounds of the first.
-/

namespace Workflow.Effect

universe u v w

variable {σ : Signature} {ε : Type} {α : Type u} {β : Type v} {γ : Type w}

/-! ## Two members -/

/-- The rest of a round whose first member has paused for `time`. `alone` is what remains if the
second member ends. If that pauses too, `onward` is what remains for it in the round in which the
first member goes on. -/
def halfRound (onward : Effect σ ε β → Effect σ ε γ) (alone : Duration → β → Effect σ ε γ) :
    (time : Duration) → Effect σ ε β → Effect σ ε γ
  | time, pure b => alone time b
  | _, fail e => fail e
  | time, call op next => call op fun x => halfRound onward alone time (next x)
  | time, pause rest next =>
    if rest < time then pause rest (halfRound onward alone (time - rest) next)
    else pause time (onward (if time < rest then pause (rest - time) next else next))

def lockstep (f : α → β → γ) : Effect σ ε α → Effect σ ε β → Effect σ ε γ
  | pure a, right => right.map (f a)
  | fail e, _ => fail e
  | call op next, right => call op fun x => lockstep f (next x) right
  | pause time next, right =>
    halfRound (lockstep f next) (fun time b => pause time (next.map fun a => f a b)) time right

/-- Two effects side by side until one of them ends, in success or failure. -/
def rival : Effect σ ε α → Effect σ ε α → Effect σ ε α
  | pure a, _ => pure a
  | fail e, _ => fail e
  | call op next, right => call op fun x => rival (next x) right
  | pause time next, right => halfRound (rival next) (fun _ => pure) time right

/-! ## Lists -/

def joinAll : List (Effect σ ε α) → Effect σ ε (List α)
  | [] => pure []
  | e :: es => lockstep List.cons e (joinAll es)

/-- Runs effects side by side until one ends. With no members it fails with `none`. -/
def selectFirst (none : ε) : List (Effect σ ε α) → Effect σ ε α
  | [] => fail none
  | [e] => e
  | e :: es => rival e (selectFirst none es)

/-! ## Equations -/

@[simp] theorem joinAll_nil : joinAll ([] : List (Effect σ ε α)) = pure [] := rfl

theorem joinAll_cons (e : Effect σ ε α) (es : List (Effect σ ε α)) :
    joinAll (e :: es) = lockstep List.cons e (joinAll es) := rfl

@[simp] theorem selectFirst_nil (none : ε) : selectFirst none ([] : List (Effect σ ε α)) = fail none := rfl

@[simp] theorem selectFirst_singleton (none : ε) (e : Effect σ ε α) : selectFirst none [e] = e := rfl

theorem selectFirst_cons (none : ε) (e d : Effect σ ε α) (es : List (Effect σ ε α)) :
    selectFirst none (e :: d :: es) = rival e (selectFirst none (d :: es)) := rfl

theorem lockstep_pure (f : α → β → γ) (a : α) (e : Effect σ ε β) :
    lockstep f (pure a) e = e.map (f a) := by
  cases e <;> rfl

theorem lockstep_pause (f : α → β → γ) (time : Duration) (e : Effect σ ε α) (d : Effect σ ε β) :
    lockstep f (pause time e) (pause time d) = pause time (lockstep f e d) := by
  simp only [lockstep, halfRound, if_neg time.lt_irrefl]

theorem rival_pause (time : Duration) (e d : Effect σ ε α) :
    rival (pause time e) (pause time d) = pause time (rival e d) := by
  simp only [rival, halfRound, if_neg time.lt_irrefl]

end Workflow.Effect

import Workflow.Effect.Run
import Workflow.Effect.Rounds

/-!
# Runs of composed effects

The run of a composed effect from the runs of its parts, and effects whose questions all have some
property. `runAll` runs effects one after another, whatever becomes of each.
-/

namespace Workflow

universe u v w

def Outcome.isDone {ε : Type} {α : Type u} : Outcome ε α → Bool
  | .done _ => true
  | _ => false

def Outcome.discard {ε : Type} {α : Type u} : Outcome ε α → Outcome ε Unit
  | .done _ => .done ()
  | .failed err => .failed err
  | .stopped => .stopped

def Outcome.ofExcept {ε : Type} {α : Type u} : Except ε α → Outcome ε α
  | .ok a => .done a
  | .error e => .failed e

theorem Outcome.ofExcept_injective {ε : Type} {α : Type u} {x y : Except ε α} (h : ofExcept x = ofExcept y) : x = y := by
  cases x <;> cases y <;> cases h <;> rfl

namespace Effect

variable {σ : Signature} {ε : Type} {α : Type u} {β : Type v} {γ : Type w} {W : Type} (host : Host σ W)

/-! ## Runs -/

theorem run_call (op : σ.Op) (next : σ.Answer op → Effect σ ε α) (w : W) :
    run host (call op next) w =
      match host.answer op w with
      | none => (.stopped, w)
      | some (x, w') => run host (next x) w' := by
  cases h : host.answer op w <;> simp only [run, h]

theorem run_call_of_answer {op : σ.Op} {w w' : W} {x : σ.Answer op} (h : host.answer op w = some (x, w'))
    (next : σ.Answer op → Effect σ ε α) : run host (call op next) w = run host (next x) w' := by
  rw [run_call, h]

theorem run_ask (op : σ.Op) (w : W) : run host (ask op : Effect σ ε (σ.Answer op)) w =
    (host.answer op w).elim (.stopped, w) fun answered => (.done answered.1, answered.2) := by
  rw [ask, run_call]
  cases host.answer op w <;> rfl

theorem run_bind (e : Effect σ ε α) (f : α → Effect σ ε β) (w : W) :
    run host (e.bind f) w =
      match run host e w with
      | (.done a, w') => run host (f a) w'
      | (.failed err, w') => (.failed err, w')
      | (.stopped, w') => (.stopped, w') := by
  induction e generalizing w with
  | pure a => rfl
  | fail err => rfl
  | pause time next ih => exact ih (host.wait time w)
  | call op next ih =>
    rw [call_bind, run_call, run_call]
    cases host.answer op w with
    | none => rfl
    | some answered => exact ih answered.1 answered.2

theorem run_recover (e : Effect σ ε α) (handler : ε → Effect σ ε α) (w : W) :
    run host (e.recover handler) w =
      match run host e w with
      | (.done a, w') => (.done a, w')
      | (.failed err, w') => run host (handler err) w'
      | (.stopped, w') => (.stopped, w') := by
  induction e generalizing w with
  | pure a => rfl
  | fail err => rfl
  | pause time next ih => exact ih (host.wait time w)
  | call op next ih =>
    rw [recover_call, run_call, run_call]
    cases host.answer op w with
    | none => rfl
    | some answered => exact ih answered.1 answered.2

/-- What holds of an effect and of what is left of it after every answer holds in the end, if there always is
an answer. -/
theorem run_ends {I : W → Effect σ ε α → Prop}
    (hcall : ∀ w op next, I w (call op next) → ∃ x w', host.answer op w = some (x, w') ∧ I w' (next x))
    (hpause : ∀ w time next, I w (pause time next) → I (host.wait time w) next) {e : Effect σ ε α} {w : W} (h : I w e) :
    (∃ a w', run host e w = (.done a, w') ∧ I w' (pure a)) ∨
      ∃ err w', run host e w = (.failed err, w') ∧ I w' (fail err) := by
  induction e generalizing w with
  | pure a => exact .inl ⟨a, w, rfl, h⟩
  | fail err => exact .inr ⟨err, w, rfl, h⟩
  | pause time next ih => exact ih (hpause w time next h)
  | call op next ih =>
    obtain ⟨x, w', hanswer, hnext⟩ := hcall w op next h
    rw [run_call_of_answer host hanswer]
    exact ih x hnext

def finish (receive : (op : σ.Op) → W → σ.Answer op × W) : Effect σ ε α → W → Except ε α × W
  | pure a, w => (.ok a, w)
  | fail e, w => (.error e, w)
  | call op next, w => finish receive (next (receive op w).1) (receive op w).2
  | pause _ next, w => finish receive next w

theorem run_eq_finish (receive : (op : σ.Op) → W → σ.Answer op × W) (e : Effect σ ε α) (w : W) :
    run ⟨fun op w => some (receive op w), fun _ w => w⟩ e w =
      (.ofExcept (finish receive e w).1, (finish receive e w).2) := by
  induction e generalizing w with
  | pure a => rfl
  | fail err => rfl
  | pause time next ih => exact ih w
  | call op next ih => exact ih (receive op w).1 (receive op w).2

theorem finish_of_run {receive : (op : σ.Op) → W → σ.Answer op × W} {e : Effect σ ε α} {w w' : W} {x : Except ε α}
    (h : run ⟨fun op w => some (receive op w), fun _ w => w⟩ e w = (.ofExcept x, w')) : finish receive e w = (x, w') := by
  rw [run_eq_finish, Prod.mk.injEq] at h
  exact Prod.ext (Outcome.ofExcept_injective h.1) h.2

def runAll : List (Effect σ ε α) → W → List (Outcome ε α) × W
  | [], w => ([], w)
  | e :: rest, w =>
    let first := run host e w
    let others := runAll rest first.2
    (first.1 :: others.1, others.2)

@[simp] theorem runAll_nil (w : W) : runAll host ([] : List (Effect σ ε α)) w = ([], w) := rfl

theorem runAll_cons_snd (e : Effect σ ε α) (rest : List (Effect σ ε α)) (w : W) :
    (runAll host (e :: rest) w).2 = (runAll host rest (run host e w).2).2 := rfl

theorem runAll_append_snd (effects more : List (Effect σ ε α)) (w : W) :
    (runAll host (effects ++ more) w).2 = (runAll host more (runAll host effects w).2).2 := by
  induction effects generalizing w with
  | nil => rfl
  | cons e effects ih => exact ih (run host e w).2

/-! ## Questions -/

def Asks (P : σ.Op → Prop) : Effect σ ε α → Prop
  | pure _ => True
  | fail _ => True
  | call op next => P op ∧ ∀ x, Asks P (next x)
  | pause _ next => Asks P next

theorem Asks.imp {P Q : σ.Op → Prop} (h : ∀ op, P op → Q op) {e : Effect σ ε α} (he : e.Asks P) :
    e.Asks Q := by
  induction e with
  | pure a => trivial
  | fail err => trivial
  | call op next ih => exact ⟨h op he.1, fun x => ih x (he.2 x)⟩
  | pause time next ih => exact ih he

theorem run_of_asks {e : Effect σ ε α} (h : e.Asks fun op => ∀ w, (host.answer op w).isSome) (w : W) :
    (∃ a w', run host e w = (.done a, w')) ∨ ∃ err w', run host e w = (.failed err, w') := by
  let answered (_ : W) (e : Effect σ ε α) : Prop := e.Asks fun op => ∀ w, (host.answer op w).isSome
  have hcall (w : W) (op : σ.Op) (next : σ.Answer op → Effect σ ε α) (h : answered w (call op next)) :
      ∃ x w', host.answer op w = some (x, w') ∧ answered w' (next x) := by
    obtain ⟨⟨x, w'⟩, hanswer⟩ := Option.isSome_iff_exists.mp (h.1 w)
    exact ⟨x, w', hanswer, h.2 x⟩
  rcases run_ends host hcall (fun _ _ _ h => h) h with ⟨a, w', hrun, -⟩ | ⟨err, w', hrun, -⟩
  · exact .inl ⟨a, w', hrun⟩
  · exact .inr ⟨err, w', hrun⟩

end Effect

end Workflow

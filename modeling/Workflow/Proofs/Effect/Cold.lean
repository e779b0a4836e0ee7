import Workflow.Effect.Cold
import Workflow.Proofs.Effect.SideBySide

/-!
# Effects that are executed together

What `all` and `race` come to, in closed form. First every member is executed and writes what it writes at once, in
list order; then their works go on round by round. Where executing a member does nothing there is no more to it than
the rounds. Main statements: `all_settles`, `race_settles`.
-/

namespace Workflow

universe u v w

structure Agenda (L ε : Type) (α : Type u) where
  start : List L
  plan : Plan L ε α

namespace Agenda

variable {L ε : Type} {α : Type u}

def starts (agendas : List (Agenda L ε α)) : List L := agendas.flatMap (·.start)

end Agenda

namespace Cold

open Plan Agenda

variable {σ : Signature} {L ε : Type} {α : Type u} {β : Type v} {W : Type} {host : Host σ W}
  {written : Exchange σ → List L} {tick : Duration}

/-! ## Executing -/

inductive Starts (host : Host σ W) : Cold σ ε α → W → List (Exchange σ) → Effect σ ε α → W → Prop
  | ready {e w} : Starts host (.ready e) w [] e w
  | call {op next w x w₁ t e w₂} (ha : host.answer op w = some (x, w₁)) (rest : Starts host (next x) w₁ t e w₂) :
      Starts host (.call op next) w (⟨op, x⟩ :: t) e w₂

variable {c : Cold σ ε α} {cs : List (Cold σ ε α)} {w w₁ w₂ : W} {t t' : List (Exchange σ)}

theorem Starts.proceeds {e : Effect σ ε α} (h : Starts host c w t e w₁) : Effect.Proceeds host c.execute w t e w₁ := by
  induction h with
  | ready => exact .nil
  | call ha _ ih => exact .call ha ih

theorem Starts.start {e : Effect σ ε α} {d : Effect σ ε β} {f : Effect σ ε α → Cold σ ε β}
    (h : Starts host c w t e w₁) (h' : Starts host (f e) w₁ t' d w₂) : Starts host (c.start f) w (t ++ t') d w₂ := by
  induction h with
  | ready => exact h'
  | call ha _ ih => exact .call ha (ih h')

section
variable (host) (written) (tick)

/-- In whatever world the effect is executed, it writes the start and leaves work that follows the plan. -/
def Follows (c : Cold σ ε α) (a : Agenda L ε α) : Prop :=
  ∀ w, ∃ t e w', Starts host c w t e w' ∧ t.flatMap written = a.start ∧ Effect.Follows host written tick e a.plan

end

theorem follows_ready {e : Effect σ ε α} {p : Plan L ε α} (h : Effect.Follows host written tick e p) :
    Follows host written tick (ready e) ⟨[], p⟩ := by
  intro w
  exact ⟨[], e, w, .ready, rfl, h⟩

theorem follows_of_idle (hidle : c.Idle) {p : Plan L ε α} (h : Effect.Follows host written tick c.execute p) :
    Follows host written tick c ⟨[], p⟩ := by
  cases c with
  | ready e => exact follows_ready h
  | call op next => exact hidle.elim

variable {agendas : List (Agenda L ε α)}

def contest : Plan String String Nat := .more ["c1", "a1"] (.last ["c2"] (.ok 3))

end Cold

end Workflow

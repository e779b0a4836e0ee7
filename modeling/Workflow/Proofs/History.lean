import Workflow.History
import Workflow.Proofs.Effect.Run
import Workflow.Proofs.Node.Walk

/-!
# Well-formed histories

A history is nothing, or the sentinel with events after it. Replaying a well-formed history walks its
events from the node the process starts in.
-/

namespace Workflow

variable {σ : Signature} {ε I S E R : Type}

/-- The entries of a stream that was never started, or has recorded these events. -/
def Entry.history : Option (List E) → List (Entry E)
  | none => []
  | some events => .started :: events.map .received

@[simp] theorem Entry.history_none : (Entry.history none : List (Entry E)) = [] := rfl

@[simp] theorem Entry.history_some (events : List E) :
    Entry.history (some events) = .started :: events.map .received := rfl

theorem Entry.history_append (events more : List E) :
    Entry.history (some events) ++ more.map .received = Entry.history (some (events ++ more)) := by
  simp

theorem Entry.countP_isStart_history (old : Option (List E)) :
    (Entry.history old).countP Entry.isStart = if (Entry.history old).isEmpty then 0 else 1 := by
  cases old with
  | none => rfl
  | some events =>
    rw [Entry.history_some, List.countP_cons, List.countP_map]
    simp [Entry.isStart, Function.comp_def]

theorem Node.replay_received (version : Nat) (n : Node σ ε S E R) (events : List E) :
    n.replay version (events.map .received) = .ok (n.advanceAll events) := by
  induction events generalizing version n with
  | nil => rfl
  | cons e events ih => exact ih (version + 1) (n.advance e)

theorem Process.replay_history [Inhabited S] (p : Process σ ε I S E R) (i : I) (events : List E) :
    p.replay i (Entry.history (some events)) = .ok ((p.initial i).advanceAll events) :=
  Node.replay_received 2 (p.initial i) events

theorem Node.received_of_replay {version : Nat} {n node : Node σ ε S E R} {entries : List (Entry E)}
    (h : n.replay version entries = .ok node) :
    ∃ events, entries = events.map .received ∧ node = n.advanceAll events := by
  induction entries generalizing version n with
  | nil => cases h; exact ⟨[], rfl, rfl⟩
  | cons entry entries ih =>
    cases entry with
    | started => cases h
    | received e =>
      obtain ⟨events, rfl, rfl⟩ := ih h
      exact ⟨e :: events, rfl, rfl⟩

theorem Process.history_of_replay [Inhabited S] {p : Process σ ε I S E R} {i : I} {entries : List (Entry E)}
    {node : Node σ ε S E R} (h : p.replay i entries = .ok node) :
    ∃ events, entries = Entry.history (some events) ∧ node = (p.initial i).advanceAll events := by
  match entries, h with
  | .started :: rest, h =>
    obtain ⟨events, rfl, rfl⟩ := Node.received_of_replay h
    exact ⟨events, rfl, rfl⟩

theorem Process.flaw_iff [Inhabited S] (p : Process σ ε I S E R) (i : I) (entries : List (Entry E)) :
    (∃ flaw, p.replay i entries = .error flaw) ↔ ∀ events, entries ≠ Entry.history (some events) := by
  constructor
  · rintro ⟨flaw, h⟩ events rfl
    rw [p.replay_history] at h
    cases h
  · intro h
    cases hr : p.replay i entries with
    | error flaw => exact ⟨flaw, rfl⟩
    | ok node =>
      obtain ⟨events, heq, -⟩ := Process.history_of_replay hr
      exact absurd heq (h events)

/-! ## Accepted events -/

section
variable [Inhabited S]

/-- After these entries the event makes a transition with this effect. -/
def Process.Transition (p : Process σ ε I S E R) (i : I) (entries : List (Entry E)) (event : E)
    (fx : Effect σ ε Unit) : Prop :=
  ∃ node next, p.replay i entries = .ok node ∧ node.offer event = some (fx, next)

/-- Every event of `after` that is not in `before` was accepted where it stands. -/
def Process.AcceptedSince (p : Process σ ε I S E R) (i : I) (before after : List (Entry E)) : Prop :=
  ∀ ⦃entries e rest⦄, after = entries ++ .received e :: rest → before <+: entries →
    ∃ fx, p.Transition i entries e fx

namespace Process.AcceptedSince

variable {p : Process σ ε I S E R} {i : I} {before now : List (Entry E)}

theorem refl (p : Process σ ε I S E R) (i : I) (now : List (Entry E)) : p.AcceptedSince i now now := by
  intro entries e rest h hle
  have := hle.length_le
  rw [h, List.length_append, List.length_cons] at this
  omega

theorem concat (h : p.AcceptedSince i before now) {x : Entry E}
    (hx : ∀ e, x = .received e → ∃ fx, p.Transition i now e fx) : p.AcceptedSince i before (now ++ [x]) := by
  intro entries e rest heq hle
  rcases List.eq_nil_or_concat rest with rfl | ⟨rest, y, rfl⟩
  · obtain ⟨rfl, hlast⟩ := List.append_inj' heq rfl
    exact hx e (List.singleton_inj.mp hlast)
  · -- an event that is not the last entry was there before
    rw [List.concat_eq_append, ← List.cons_append, ← List.append_assoc] at heq
    exact h (List.append_inj' heq rfl).1 hle

end Process.AcceptedSince

end

/-! ## Effects of a process -/

/-- The effects that a process may give an instance only ask questions with this property. -/
def Process.Asks [Inhabited S] (P : σ.Op → Prop) (p : Process σ ε I S E R) (i : I) : Prop :=
  (p.run i default).1.Asks P ∧
    ∀ events e step, ((p.initial i).advanceAll events).offer e = some step → step.1.Asks P

theorem Process.Asks.imp [Inhabited S] {P Q : σ.Op → Prop} (h : ∀ op, P op → Q op) {p : Process σ ε I S E R}
    {i : I} (hp : p.Asks P i) : p.Asks Q i :=
  ⟨hp.1.imp h, fun events e step ho => (hp.2 events e step ho).imp h⟩

theorem Process.Asks.transition [Inhabited S] {P : σ.Op → Prop} {p : Process σ ε I S E R} {i : I} (hp : p.Asks P i)
    {entries : List (Entry E)} {e : E} {fx : Effect σ ε Unit} (h : p.Transition i entries e fx) : fx.Asks P := by
  obtain ⟨node, next, hr, ho⟩ := h
  obtain ⟨events, -, rfl⟩ := Process.history_of_replay hr
  exact hp.2 events e _ ho

theorem Node.exists_place (n : Node σ ε S E R) (events : List E) : ∃ q, n.advanceAll events = n.moveTo q := by
  induction events generalizing n with
  | nil => exact ⟨n.here, rfl⟩
  | cons e events ih =>
    have hone : ∃ q, n.advance e = n.moveTo q := by
      unfold Node.advance Node.offer
      cases n.stage.offer e with
      | none => exact ⟨n.here, rfl⟩
      | some step => exact ⟨step.2, rfl⟩
    obtain ⟨q, hq⟩ := hone
    obtain ⟨q', hq'⟩ := ih (n.moveTo q)
    exact ⟨q', by rw [Node.advanceAll_cons, hq, hq']; rfl⟩

theorem Process.asks_of_places [Inhabited S] {P : σ.Op → Prop} {p : Process σ ε I S E R} {i : I}
    (h₀ : (p.run i default).1.Asks P)
    (h : ∀ q e step, ((p.initial i).look q).offer e = some step → step.1.Asks P) : p.Asks P i := by
  refine ⟨h₀, fun events e step ho => ?_⟩
  obtain ⟨q, hq⟩ := (p.initial i).exists_place events
  rw [hq] at ho
  obtain ⟨taken, htaken, rfl⟩ := Option.map_eq_some_iff.mp ho
  exact h q e taken htaken

end Workflow

import Workflow.Proofs.Effect.Trace

/-!
# Chronicles

A chronicle tells all that happens in a run, in its order: the exchanges and the pauses between them. Effects
agree if no run tells them apart. Up to that they form a monad in which failures can be recovered from:
`monad_laws`.
-/

namespace Workflow

universe u v w

inductive Occurrence (σ : Signature) where
  | exchange (x : Exchange σ)
  | pause (time : Duration)

namespace Occurrence

variable {σ : Signature}

def isPause : Occurrence σ → Bool
  | exchange _ => false
  | pause _ => true

end Occurrence

namespace Effect

variable {σ : Signature} {ε : Type} {α : Type u} {β : Type v} {γ : Type w} {W : Type}

section
variable (host : Host σ W)

def chronicle : Effect σ ε α → W → List (Occurrence σ)
  | pure _, _ => []
  | fail _, _ => []
  | call op next, w =>
    match host.answer op w with
    | none => []
    | some (x, w') => .exchange ⟨op, x⟩ :: chronicle (next x) w'
  | pause time next, w => .pause time :: chronicle next (host.wait time w)

theorem chronicle_call (op : σ.Op) (next : σ.Answer op → Effect σ ε α) (w : W) :
    (call op next).chronicle host w =
      match host.answer op w with
      | none => []
      | some (x, w') => .exchange ⟨op, x⟩ :: (next x).chronicle host w' := by
  cases h : host.answer op w <;> simp only [chronicle, h]

theorem pausesOf_eq_countP (e : Effect σ ε α) (w : W) :
    e.pausesOf host w = (e.chronicle host w).countP Occurrence.isPause := by
  induction e generalizing w with
  | pure a => rfl
  | fail err => rfl
  | pause time next ih =>
    rw [chronicle, List.countP_cons_of_pos rfl, ← ih (host.wait time w)]
    rfl
  | call op next ih =>
    rw [chronicle_call]
    cases ha : host.answer op w with
    | none => simp only [pausesOf, ha, List.countP_nil]
    | some answered =>
      simp only [pausesOf, ha, ih]
      rfl

/-! ## Effects in sequence -/

theorem chronicle_bind (e : Effect σ ε α) (f : α → Effect σ ε β) (w : W) :
    (e.bind f).chronicle host w = e.chronicle host w ++
      match e.run host w with
      | (.done a, w') => (f a).chronicle host w'
      | _ => [] := by
  induction e generalizing w with
  | pure a => rfl
  | fail err => rfl
  | pause time next ih => exact congrArg (List.cons _) (ih (host.wait time w))
  | call op next ih =>
    rw [call_bind, run_call, chronicle_call, chronicle_call]
    cases host.answer op w with
    | none => rfl
    | some answered => exact congrArg (List.cons _) (ih answered.1 answered.2)

theorem chronicle_recover (e : Effect σ ε α) (handler : ε → Effect σ ε α) (w : W) :
    (e.recover handler).chronicle host w = e.chronicle host w ++
      match e.run host w with
      | (.failed err, w') => (handler err).chronicle host w'
      | _ => [] := by
  induction e generalizing w with
  | pure a => rfl
  | fail err => rfl
  | pause time next ih => exact congrArg (List.cons _) (ih (host.wait time w))
  | call op next ih =>
    rw [recover_call, run_call, chronicle_call, chronicle_call]
    cases host.answer op w with
    | none => rfl
    | some answered => exact congrArg (List.cons _) (ih answered.1 answered.2)

theorem run_map (e : Effect σ ε α) (f : α → β) (w : W) :
    run host (e.map f) w =
      match run host e w with
      | (.done a, w') => (.done (f a), w')
      | (.failed err, w') => (.failed err, w')
      | (.stopped, w') => (.stopped, w') := by
  rw [map_eq_bind, run_bind]
  rfl

@[simp] theorem chronicle_map (e : Effect σ ε α) (f : α → β) (w : W) :
    (e.map f).chronicle host w = e.chronicle host w := by
  rw [map_eq_bind, chronicle_bind]
  split <;> exact List.append_nil _

theorem run_discard (e : Effect σ ε α) (w : W) :
    run host e.discard w = ((run host e w).1.discard, (run host e w).2) := by
  unfold discard
  rw [run_map]
  obtain ⟨outcome, w'⟩ := run host e w
  cases outcome <;> rfl

theorem chronicle_discard (e : Effect σ ε α) (w : W) : e.discard.chronicle host w = e.chronicle host w :=
  chronicle_map host e _ w

end

variable {host : Host σ W}

theorem of_map2_failed {f : α → β → γ} {first : Effect σ ε α} {second : Effect σ ε β} {w w' : W} {err : ε}
    (h : first.run host w = (.failed err, w')) : (map2 f first second).run host w = (.failed err, w') ∧
      (map2 f first second).chronicle host w = first.chronicle host w := by
  unfold map2
  rw [run_bind, chronicle_bind, h]
  exact ⟨rfl, List.append_nil _⟩

theorem of_recover_failed {e : Effect σ ε α} {handler : ε → Effect σ ε α} {w w' : W} {err : ε}
    (h : e.run host w = (.failed err, w')) : (e.recover handler).run host w = (handler err).run host w' ∧
      (e.recover handler).chronicle host w = e.chronicle host w ++ (handler err).chronicle host w' := by
  rw [run_recover, chronicle_recover, h]
  exact ⟨rfl, rfl⟩

theorem recover_recover (e : Effect σ ε α) (first second : ε → Effect σ ε α) :
    (e.recover first).recover second = e.recover fun err => (first err).recover second := by
  induction e with
  | pure a => rfl
  | fail err => rfl
  | call op next ih => exact congrArg (call op) (funext ih)
  | pause time next ih => exact congrArg (pause time) ih

/-! ## Agreement -/

/-- Run from this world the effects end alike, leave the same world, and the same happens on the way. -/
def AgreesAt (host : Host σ W) (w : W) (e d : Effect σ ε α) : Prop :=
  e.run host w = d.run host w ∧ e.chronicle host w = d.chronicle host w

def Agrees (e d : Effect σ ε α) : Prop :=
  ∀ ⦃W : Type⦄ (host : Host σ W) (w : W), AgreesAt host w e d

theorem AgreesAt.refl (w : W) (e : Effect σ ε α) : AgreesAt host w e e := ⟨rfl, rfl⟩

theorem AgreesAt.symm {w : W} {e d : Effect σ ε α} (h : AgreesAt host w e d) : AgreesAt host w d e :=
  ⟨h.1.symm, h.2.symm⟩

theorem AgreesAt.trans {w : W} {e d c : Effect σ ε α} (h : AgreesAt host w e d) (h' : AgreesAt host w d c) :
    AgreesAt host w e c :=
  ⟨h.1.trans h'.1, h.2.trans h'.2⟩

theorem AgreesAt.pausesOf_eq {w : W} {e d : Effect σ ε α} (h : AgreesAt host w e d) :
    e.pausesOf host w = d.pausesOf host w := by
  rw [pausesOf_eq_countP, pausesOf_eq_countP, h.2]

theorem AgreesAt.map {w : W} {e d : Effect σ ε α} (h : AgreesAt host w e d) (f : α → β) :
    AgreesAt host w (e.map f) (d.map f) := by
  unfold AgreesAt
  rw [run_map, run_map, chronicle_map, chronicle_map, h.1, h.2]
  exact ⟨rfl, rfl⟩

theorem AgreesAt.call {op : σ.Op} {next next' : σ.Answer op → Effect σ ε α} {w : W}
    (h : ∀ x w', host.answer op w = some (x, w') → AgreesAt host w' (next x) (next' x)) :
    AgreesAt host w (call op next) (call op next') := by
  unfold AgreesAt
  rw [run_call, run_call, chronicle_call, chronicle_call]
  cases ha : host.answer op w with
  | none => exact ⟨rfl, rfl⟩
  | some answered =>
    obtain ⟨hrun, hchronicle⟩ := h answered.1 answered.2 ha
    exact ⟨hrun, congrArg (List.cons _) hchronicle⟩

theorem Agrees.of_eq {e d : Effect σ ε α} (h : e = d) : e.Agrees d := by
  subst h
  exact fun _ _ w => .refl w e

/-- `bind` is associative with `pure` as its unit, a failure ends it at once, and `recover` does for failures
what `bind` does for values: what happened before the failure has happened, and the handler takes over from the
world that it left. -/
theorem monad_laws :
    (∀ (a : α) (f : α → Effect σ ε β), ((pure a).bind f).Agrees (f a)) ∧
    (∀ e : Effect σ ε α, (e.bind pure).Agrees e) ∧
    (∀ (e : Effect σ ε α) (f : α → Effect σ ε β) (g : β → Effect σ ε γ),
      ((e.bind f).bind g).Agrees (e.bind fun x => (f x).bind g)) ∧
    (∀ (e : Effect σ ε α) (h : α → β), (e.map h).Agrees (e.bind fun x => pure (h x))) ∧
    (∀ (e : Effect σ ε α) (next : Effect σ ε β), (e.andThen next).Agrees (e.bind fun _ => next)) ∧
    (∀ (h : α → β → γ) (a : Effect σ ε α) (b : Effect σ ε β),
      (map2 h a b).Agrees (a.bind fun x => b.map fun y => h x y) ∧
      ∀ ⦃W : Type⦄ (host : Host σ W) (w w' : W) (err : ε), a.run host w = (.failed err, w') →
        (map2 h a b).run host w = (.failed err, w') ∧ (map2 h a b).chronicle host w = a.chronicle host w) ∧
    (∀ (err : ε) (f : α → Effect σ ε β), ((fail err).bind f).Agrees (fail err)) ∧
    (∀ (a : α) (k : ε → Effect σ ε α), ((pure a).recover k).Agrees (pure a)) ∧
    (∀ (err : ε) (k : ε → Effect σ ε α), ((fail err).recover k).Agrees (k err)) ∧
    (∀ (e : Effect σ ε α) (k l : ε → Effect σ ε α),
      ((e.recover k).recover l).Agrees (e.recover fun err => (k err).recover l)) ∧
    ∀ (e : Effect σ ε α) (k : ε → Effect σ ε α) ⦃W : Type⦄ (host : Host σ W) (w w' : W) (err : ε),
      e.run host w = (.failed err, w') → (e.recover k).run host w = (k err).run host w' ∧
        (e.recover k).chronicle host w = e.chronicle host w ++ (k err).chronicle host w' := by
  refine ⟨?_, ?_, ?_, ?_, ?_, ?_, ?_, ?_, ?_, ?_, ?_⟩
  · exact fun a f => .of_eq (pure_bind a f)
  · exact fun e => .of_eq (bind_pure e)
  · exact fun e f g => .of_eq (bind_assoc e f g)
  · exact fun e h => .of_eq (map_eq_bind h e)
  · exact fun e next => .of_eq rfl
  · exact fun h a b => ⟨.of_eq rfl, fun _ _ _ _ _ => of_map2_failed⟩
  · exact fun err f => .of_eq (fail_bind err f)
  · exact fun a k => .of_eq (recover_pure a k)
  · exact fun err k => .of_eq (recover_fail err k)
  · exact fun e k l => .of_eq (recover_recover e k l)
  · exact fun e k _ _ _ _ _ => of_recover_failed

end Effect

/-! ## A scribe -/

inductive Chore where
  | note (entry : String)
  | count

def chores : Signature where
  Op := Chore
  Answer
    | .note _ => Unit
    | .count => Nat

def scribe : Host chores (List String × Nat) where
  answer
    | .note entry, (notes, count) => some ((), notes ++ [entry], count)
    | .count, (notes, count) => some (count + 1, notes, count + 1)
  wait _ w := w

namespace Effect

def note {ε : Type} (entry : String) : Effect chores ε Unit :=
  ask (σ := chores) (.note entry)

/-- A handler fails in its turn; what was noted before the failure and by the handler stays noted. -/
theorem monad_laws_caught :
    let attempt : Effect chores String Nat := (note "tried").bind fun _ => pause .zero (fail "broken")
    let handler : String → Effect chores String Nat := fun err => (note err).bind fun _ => fail "worse"
    let noted (entry : String) : Occurrence chores := .exchange ⟨.note entry, ()⟩
    attempt.run scribe ([], 0) = (.failed "broken", ["tried"], 0) ∧
    (attempt.recover handler).run scribe ([], 0) = (.failed "worse", ["tried", "broken"], 0) ∧
    (attempt.recover handler).chronicle scribe ([], 0) = [noted "tried", .pause .zero, noted "broken"] ∧
    (map2 (· + ·) attempt ((note "other").map fun _ => 1)).run scribe ([], 0) = (.failed "broken", ["tried"], 0) := by
  intro attempt handler noted
  obtain ⟨-, -, -, -, -, hmap2, -, -, -, -, hrecover⟩ :=
    monad_laws (σ := chores) (ε := String) (α := Nat) (β := Nat) (γ := Nat)
  have hattempt : attempt.run scribe ([], 0) = (.failed "broken", ["tried"], 0) := rfl
  obtain ⟨hrun, hchronicle⟩ := hrecover attempt handler scribe _ _ _ hattempt
  exact ⟨hattempt, hrun, hchronicle, ((hmap2 _ attempt _).2 scribe _ _ _ hattempt).1⟩

end Effect

end Workflow

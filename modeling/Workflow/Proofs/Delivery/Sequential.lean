import Workflow.Proofs.Delivery.Attempt
import Workflow.Proofs.History
import Workflow.Proofs.Host
import Workflow.Proofs.Store.Ledger

/-!
# Deliveries one after another

Nobody else writes to the stream, so no append meets a conflict: a delivery is a step of the workflow
walked live, and the stream keeps what the walk has accepted. `run_deliveries` says so of any list of
events, after any history, whether or not the process still accepts what it once recorded.
-/

namespace Workflow.Delivery

open Effect (runAll)

universe u

variable {Ω : Signature} {H I S E R V : Type} {α : Type u} (o : Outside Ω H V)

/-! ## Walking live -/

/-- An event on the live node of a workflow: the outcome, the entries it adds and the world it leaves. -/
def liveStep (node : Node (requests Ω H E) Failure S E R) (v : V) (e : E) :
    Outcome Failure Unit × List (Entry E) × V :=
  match node.offer e with
  | none => (.done (), [], v)
  | some step => ((step.1.run o.alone v).1, [.received e], (step.1.run o.alone v).2)

theorem liveStep_entries (node : Node (requests Ω H E) Failure S E R) (v : V) (e : E) :
    (liveStep o node v e).2.1 = (node.accepted [e]).map .received := by
  unfold liveStep Node.accepted
  cases node.offer e <;> rfl

theorem liveStep_world (node : Node (requests Ω H E) Failure S E R) (v : V) (e : E) :
    (liveStep o node v e).2.2 = (runAll o.alone (node.effects [e]) v).2 := by
  unfold liveStep Node.effects
  cases node.offer e <;> rfl

/-- The first event of a workflow. It is offered only if the initial effect ends well. -/
def liveStart [Inhabited S] (p : Definition Ω H I S E R) (i : I) (v : V) (e : E) :
    Outcome Failure Unit × List (Entry E) × V :=
  match (p.run i default).1.run o.alone v with
  | (.done _, v') =>
    let first := liveStep o (p.initial i) v' e
    (first.1, .started :: first.2.1, first.2.2)
  | (outcome, v') => (outcome, [.started], v')

theorem liveStart_entries [Inhabited S] (p : Definition Ω H I S E R) (i : I) (v : V) (e : E) :
    (liveStart o p i v e).2.1 = Entry.history (some
      (if ((p.run i default).1.run o.alone v).1.isDone then (p.initial i).accepted [e] else [])) := by
  unfold liveStart
  obtain ⟨outcome, v'⟩ := (p.run i default).1.run o.alone v
  cases outcome with
  | done value => exact congrArg _ (liveStep_entries o (p.initial i) v' e)
  | failed err => rfl
  | stopped => rfl

/-- A run that began with `store` has come out like the live one, and has touched no other stream. -/
structure Follows (stream : String) (store : MemoryStore (Entry E))
    (run : Outcome Failure Unit × V × MemoryStore (Entry E))
    (live : Outcome Failure Unit × List (Entry E) × V) : Prop where
  outcome : run.1 = live.1
  world : run.2.1 = live.2.2
  entries : run.2.2.entries stream = store.entries stream ++ live.2.1
  others : ∀ other, other ≠ stream → run.2.2.entries other = store.entries other

/-! ## One delivery -/

theorem run_record {stream : String} {entry : Entry E} {expected : Nat}
    {next : Task Ω H E (Option StoreError)} {store : MemoryStore (Entry E)}
    (h : (store.entries stream).length = expected) (v : V) (g : Option StoreError → Task Ω H E α) :
    ((record stream entry expected next).bind g).run o.host (v, store) =
      (next.bind g).run o.host (v, (store.append stream [entry] expected).2) := by
  rw [record_bind, Effect.run_call_of_answer o.host (o.answer_store _ v store)]
  simp only [MemoryStore.call, (MemoryStore.append_of_length h [entry]).1]

theorem run_history {stream : String} (next : List (Entry E) → Task Ω H E α) (v : V)
    (store : MemoryStore (Entry E)) :
    (history stream next).run o.host (v, store) = (next (store.entries stream)).run o.host (v, store) := by
  unfold history
  rw [Effect.run_call_of_answer o.host (o.answer_store _ v store)]
  rfl

section
variable [Inhabited S] {p : Definition Ω H I S E R} {i : I} {stream : String}

theorem run_proceed {g : Option StoreError → Task Ω H E Unit} (hg : g none = .unit)
    (hacts : p.Asks Request.IsAct i) {store : MemoryStore (Entry E)} {old : List E}
    (hs : store.entries stream = Entry.history (some old)) (v : V) (e : E) :
    Follows stream store ((proceed p i stream e g).run o.host (v, store))
      (liveStep o ((p.initial i).advanceAll old) v e) := by
  have hr := p.replay_history i old
  unfold proceed liveStep
  rw [run_history, hs]
  cases ho : ((p.initial i).advanceAll old).offer e with
  | none =>
    rw [react_of_ignored p i stream e hr ho, Effect.pure_bind, hg]
    exact ⟨rfl, rfl, (List.append_nil _).symm, fun _ _ => rfl⟩
  | some step =>
    have hlen : (store.entries stream).length = (Entry.history (some old)).length := by rw [hs]
    rw [react_of_offer p i stream e hr ho, run_record o hlen, conclude_bind_of_unit step.1 hg,
      o.run_of_acts (hacts.2 old e step ho)]
    refine ⟨rfl, rfl, ?_, ?_⟩
    · exact (MemoryStore.append_of_length hlen _).2
    · exact fun other hne => MemoryStore.entries_append_of_ne hne _ _

theorem run_deliver_present (policy : PacedPolicy) {store : MemoryStore (Entry E)} (hs : store.entries stream ≠ [])
    (v : V) (e : E) : (deliver policy p i stream e).run o.host (v, store) =
      (proceed p i stream e (again policy stream (attempt p i stream e) policy.maxAttempts 0)).run o.host
        (v, store) := by
  unfold deliver
  rw [retrying_eq, attempt_bind, Effect.run_call_of_answer o.host (o.answer_store _ v store)]
  simp only [MemoryStore.call, List.isEmpty_eq_false_iff.mpr hs, Bool.not_false]

theorem run_deliver_absent (policy : PacedPolicy) (hacts : (p.run i default).1.Asks Request.IsAct)
    {store : MemoryStore (Entry E)} (hs : store.entries stream = []) (v : V) (e : E) :
    let started := (store.append stream [.started] 0).2
    (deliver policy p i stream e).run o.host (v, store) =
      match (p.run i default).1.run o.alone v with
      | (.done _, v') =>
        (proceed p i stream e (again policy stream (attempt p i stream e) policy.maxAttempts 0)).run o.host
          (v', started)
      | (.failed err, v') => (.failed err, v', started)
      | (.stopped, v') => (.stopped, v', started) := by
  have hlen : (store.entries stream).length = 0 := by rw [hs]; rfl
  unfold deliver
  rw [retrying_eq, attempt_bind, Effect.run_call_of_answer o.host (o.answer_store _ v store)]
  simp only [MemoryStore.call, hs, List.isEmpty_nil, Bool.not_true]
  rw [run_record o hlen, conclude_bind, Effect.run_bind, o.run_of_acts hacts]
  obtain ⟨outcome, v'⟩ := (p.run i default).1.run o.alone v
  cases outcome <;> rfl

theorem entries_started {store : MemoryStore (Entry E)} (hs : store.entries stream = []) :
    (store.append stream [.started] 0).2.entries stream = Entry.history (some []) := by
  have hlen : (store.entries stream).length = 0 := by rw [hs]; rfl
  rw [(MemoryStore.append_of_length hlen [.started]).2, hs]
  rfl

theorem run_deliver_started (policy : PacedPolicy) (hacts : p.Asks Request.IsAct i)
    {store : MemoryStore (Entry E)} {old : List E} (hs : store.entries stream = Entry.history (some old))
    (v : V) (e : E) :
    Follows stream store ((deliver policy p i stream e).run o.host (v, store))
      (liveStep o ((p.initial i).advanceAll old) v e) := by
  have hne : store.entries stream ≠ [] := by rw [hs]; exact List.cons_ne_nil _ _
  rw [run_deliver_present o policy hne]
  exact run_proceed o (again_none ..) hacts hs v e

theorem run_deliver_missing (policy : PacedPolicy) (hacts : p.Asks Request.IsAct i)
    {store : MemoryStore (Entry E)} (hs : store.entries stream = []) (v : V) (e : E) :
    Follows stream store ((deliver policy p i stream e).run o.host (v, store)) (liveStart o p i v e) := by
  have hstarted := entries_started hs
  have hothers : ∀ other, other ≠ stream →
      (store.append stream [.started] 0).2.entries other = store.entries other :=
    fun other hne => MemoryStore.entries_append_of_ne hne _ _
  rw [run_deliver_absent o policy hacts.1 hs]
  unfold liveStart
  obtain ⟨outcome, v'⟩ := (p.run i default).1.run o.alone v
  cases outcome with
  | done value =>
    have first := run_proceed o (again_none policy stream (attempt p i stream e) policy.maxAttempts 0)
      hacts hstarted v' e
    refine ⟨first.outcome, first.world, first.entries.trans ?_, fun other hne => ?_⟩
    · rw [hstarted, hs]; rfl
    · exact (first.others other hne).trans (hothers other hne)
  | failed err => exact ⟨rfl, rfl, by rw [hstarted, hs]; rfl, hothers⟩
  | stopped => exact ⟨rfl, rfl, by rw [hstarted, hs]; rfl, hothers⟩

/-! ## The other calls -/

theorem run_start_missing (hacts : (p.run i default).1.Asks Request.IsAct) {store : MemoryStore (Entry E)}
    (hs : store.entries stream = []) (v : V) :
    (start p i stream).run o.host (v, store) =
      (((p.run i default).1.run o.alone v).1, ((p.run i default).1.run o.alone v).2,
        (store.append stream [.started] 0).2) := by
  have hlen : (store.entries stream).length = 0 := by rw [hs]; rfl
  obtain ⟨g, hstart, hnone, -⟩ := start_eq p i stream
  rw [hstart, run_record o hlen, conclude_bind_of_unit _ hnone, o.run_of_acts hacts]

theorem run_start_started {store : MemoryStore (Entry E)} (hs : store.entries stream ≠ []) (v : V) :
    (start p i stream).run o.host (v, store) =
      (.failed (.delivery (.store (.concurrency stream 0 (store.entries stream).length))), v, store) := by
  have hlen : (store.entries stream).length ≠ 0 := fun h => hs (List.length_eq_zero_iff.mp h)
  obtain ⟨g, hstart, -, hsome⟩ := start_eq p i stream
  have hrefused : (MemoryStore.call (.append stream [.started] 0) store).1 = _ :=
    MemoryStore.append_fst store stream [.started] 0
  rw [if_neg hlen] at hrefused
  rw [hstart, record_bind_eq, Effect.run_call_of_answer o.host (o.answer_store _ v store),
    MemoryStore.call_of_error hrefused, hrefused, settle_of_conflict rfl, hsome]
  rfl

omit [Inhabited S] in
theorem run_clear (w : V × MemoryStore (Entry E)) :
    (clear stream).run o.host w = (.done (), w.1, w.2.erase stream) := by
  unfold clear
  rw [Effect.run_call_of_answer o.host (o.answer_store _ w.1 w.2)]
  rfl

/-! ## A list of deliveries -/

theorem run_inspect_started {w : V × MemoryStore (Entry E)} {old : List E}
    (hs : w.2.entries stream = Entry.history (some old)) :
    (inspect p i stream).run o.host w = (.done ((p.initial i).advanceAll old), w) := by
  unfold inspect
  rw [run_history, hs]
  simp only [Entry.history_some, List.isEmpty_cons, Bool.false_eq_true, ite_false]
  rw [← Entry.history_some, p.replay_history i old]
  rfl

theorem run_inspect_missing {w : V × MemoryStore (Entry E)} (hs : w.2.entries stream = []) :
    (inspect p i stream).run o.host w = (.done (p.initial i), w) := by
  unfold inspect
  rw [run_history, hs]
  rfl

theorem run_inspect_congr {w w' : V × MemoryStore (Entry E)} (h : w'.2.entries stream = w.2.entries stream) :
    ((inspect p i stream).run o.host w').1 = ((inspect p i stream).run o.host w).1 := by
  obtain ⟨v, store⟩ := w
  obtain ⟨v', store'⟩ := w'
  have h : store'.entries stream = store.entries stream := h
  unfold inspect
  rw [run_history, run_history, h]
  split
  · rfl
  · split <;> rfl

theorem run_deliveries_started (policy : PacedPolicy) (hacts : p.Asks Request.IsAct i) (events : List E)
    {old : List E} {v : V} {store : MemoryStore (Entry E)}
    (hs : store.entries stream = Entry.history (some old)) :
    let w := (runAll o.host (events.map (deliver policy p i stream)) (v, store)).2
    w.2.entries stream = Entry.history (some (old ++ ((p.initial i).advanceAll old).accepted events)) ∧
      w.1 = (runAll o.alone (((p.initial i).advanceAll old).effects events) v).2 ∧
      ∀ other, other ≠ stream → w.2.entries other = store.entries other := by
  induction events generalizing old v store with
  | nil => exact ⟨by simpa [Node.accepted] using hs, rfl, fun _ _ => rfl⟩
  | cons e events ih =>
    have first := run_deliver_started o policy hacts hs v e
    rw [List.map_cons, Effect.runAll_cons_snd]
    generalize (deliver policy p i stream e).run o.host (v, store) = run at first ⊢
    obtain ⟨outcome, v', store'⟩ := run
    obtain ⟨-, hworld, hentries, hothers⟩ := first
    rw [liveStep_world] at hworld
    rw [liveStep_entries, hs, Entry.history_append] at hentries
    obtain ⟨h₁, h₂, h₃⟩ := ih (v := v') hentries
    rw [Node.advanceAll_append, Node.advanceAll_accepted, Node.advanceAll_cons, Node.advanceAll_nil] at h₁ h₂
    rw [Node.accepted_cons, Node.effects_cons, Effect.runAll_append_snd, ← hworld, ← List.append_assoc]
    exact ⟨h₁, h₂, fun other hne => (h₃ other hne).trans (hothers other hne)⟩

theorem run_deliveries_missing (policy : PacedPolicy) (hacts : p.Asks Request.IsAct i) (e : E)
    (events : List E) (v : V) {store : MemoryStore (Entry E)} (hs : store.entries stream = []) :
    let kept := if ((p.run i default).1.run o.alone v).1.isDone then e :: events else events
    let w := (runAll o.host ((e :: events).map (deliver policy p i stream)) (v, store)).2
    w.2.entries stream = Entry.history (some ((p.initial i).accepted kept)) ∧
      w.1 = (runAll o.alone ((p.run i default).1 :: (p.initial i).effects kept) v).2 ∧
      ∀ other, other ≠ stream → w.2.entries other = store.entries other := by
  have first := run_deliver_missing o policy hacts hs v e
  dsimp only
  rw [List.map_cons, Effect.runAll_cons_snd, Effect.runAll_cons_snd]
  generalize (deliver policy p i stream e).run o.host (v, store) = run at first ⊢
  obtain ⟨outcome, v', store'⟩ := run
  obtain ⟨-, hworld, hentries, hothers⟩ := first
  rw [hs, List.nil_append] at hentries
  unfold liveStart at hworld hentries
  generalize (p.run i default).1.run o.alone v = began at hworld hentries ⊢
  obtain ⟨outcome₀, v₀⟩ := began
  have dropped : v' = v₀ → store'.entries stream = Entry.history (some []) →
      let w := (runAll o.host (events.map (deliver policy p i stream)) (v', store')).2
      w.2.entries stream = Entry.history (some ((p.initial i).accepted events)) ∧
        w.1 = (runAll o.alone ((p.initial i).effects events) v₀).2 ∧
        ∀ other, other ≠ stream → w.2.entries other = store.entries other := by
    rintro rfl hstarted
    obtain ⟨h₁, h₂, h₃⟩ := run_deliveries_started o policy hacts events (v := v') hstarted
    exact ⟨h₁, h₂, fun other hne => (h₃ other hne).trans (hothers other hne)⟩
  cases outcome₀ with
  | done value =>
    simp only [liveStep_world, liveStep_entries] at hworld hentries
    obtain ⟨h₁, h₂, h₃⟩ := run_deliveries_started o policy hacts events (v := v') hentries
    rw [Node.advanceAll_accepted, Node.advanceAll_cons, Node.advanceAll_nil] at h₁ h₂
    rw [show (Outcome.done value : Outcome Failure Unit).isDone = true from rfl, if_pos rfl,
      Node.accepted_cons, Node.effects_cons, Effect.runAll_append_snd, ← hworld]
    exact ⟨h₁, h₂, fun other hne => (h₃ other hne).trans (hothers other hne)⟩
  | failed err => exact dropped hworld hentries
  | stopped => exact dropped hworld hentries

end

/-- Delivering events one after another walks the process live: the stream keeps what the walk accepts,
the world is left by the initial effect and the effects of the accepted steps, and the next delivery
does what the next step of the walk does. -/
theorem run_deliveries [Inhabited S] (policy : PacedPolicy) (p : Definition Ω H I S E R) (i : I)
    (stream : String) (old : Option (List E)) (events : List E) (v : V) (store : MemoryStore (Entry E))
    (hacts : p.Asks Request.IsAct i) (hs : store.entries stream = Entry.history old) :
    let initial := (p.run i default).1
    let starts := old.isNone && !events.isEmpty
    let kept := if old.isSome || (initial.run o.alone v).1.isDone then events else events.tail
    let node := (p.initial i).advanceAll (old.getD [])
    let w := (runAll o.host (events.map (deliver policy p i stream)) (v, store)).2
    w.2.entries stream =
        Entry.history old ++ (if starts then [.started] else []) ++ (node.accepted kept).map .received ∧
      (∀ other, other ≠ stream → w.2.entries other = store.entries other) ∧
      (inspect p i stream).run o.host w = (.done (node.advanceAll kept), w) ∧
      w.1 = (runAll o.alone ((if starts then [initial] else []) ++ node.effects kept) v).2 ∧
      ∀ e, Follows stream w.2 ((deliver policy p i stream e).run o.host w)
        (if old.isNone && events.isEmpty then liveStart o p i w.1 e
          else liveStep o (node.advanceAll kept) w.1 e) := by
  intro initial starts kept node w
  -- once the stream has been started, its history says what comes next
  have next : ∀ recorded, w.2.entries stream = Entry.history (some recorded) →
      (p.initial i).advanceAll recorded = node.advanceAll kept → (old.isNone && events.isEmpty) = false →
      (inspect p i stream).run o.host w = (.done (node.advanceAll kept), w) ∧
      ∀ e, Follows stream w.2 ((deliver policy p i stream e).run o.host w)
        (if old.isNone && events.isEmpty then liveStart o p i w.1 e
          else liveStep o (node.advanceAll kept) w.1 e) := by
    intro recorded hw hnode hsome
    rw [← hnode, hsome]
    exact ⟨run_inspect_started o hw, run_deliver_started o policy hacts hw w.1⟩
  cases old with
  | some recorded =>
    obtain ⟨h₁, h₂, h₃⟩ := run_deliveries_started o policy hacts events (v := v) hs
    obtain ⟨h₄, h₅⟩ := next _ h₁ (by
      rw [Node.advanceAll_append, Node.advanceAll_accepted]; rfl) rfl
    refine ⟨?_, h₃, h₄, h₂, h₅⟩
    rw [h₁, ← Entry.history_append]
    exact congrArg (· ++ _) (List.append_nil _).symm
  | none =>
    cases events with
    | nil =>
      have hkept : kept = [] := ite_self _
      refine ⟨?_, fun _ _ => rfl, ?_, ?_, fun e => run_deliver_missing o policy hacts hs v e⟩
      · rw [hkept]; exact hs
      · rw [hkept]; exact run_inspect_missing o hs
      · rw [hkept]; rfl
    | cons e events =>
      obtain ⟨h₁, h₂, h₃⟩ := run_deliveries_missing o policy hacts e events v hs
      obtain ⟨h₄, h₅⟩ := next _ h₁ (Node.advanceAll_accepted _ _) rfl
      exact ⟨h₁, h₃, h₄, h₂, h₅⟩

def tally : Definition ⟨String, fun _ => Unit⟩ Empty Unit Nat Nat Unit where
  run _ s := (Task.act "opened", ⟨Nat, s, fun total =>
    .inProgress total fun n => if n % 2 = 0 then some (Task.act "counted", total + n) else none⟩)

def noting : Outside ⟨String, fun _ => Unit⟩ Empty (List String) where
  act note v := some ((), v ++ [note])
  mediator _ := .empty
  wait _ v := v

theorem tally_asks : tally.Asks Request.IsAct () := by
  refine Process.asks_of_places ⟨trivial, fun _ => trivial⟩ fun q e step h => ?_
  obtain ⟨-, h⟩ := Option.ite_none_right_eq_some.mp h
  cases h
  exact ⟨trivial, fun _ => trivial⟩

theorem run_deliveries_tally : tally.Asks Request.IsAct () ∧
    (MemoryStore.empty : MemoryStore (Entry Nat)).entries "t" = Entry.history none ∧
    let w := (runAll noting.host ([2, 3, 4].map (deliver RetryPolicy.standard.punctual tally () "t")) ([], .empty)).2
    w.2.entries "t" = [.started, .received 2, .received 4] ∧ w.1 = ["opened", "counted", "counted"] := by
  refine ⟨tally_asks, rfl, ?_⟩
  obtain ⟨hentries, -, -, hworld, -⟩ :=
    run_deliveries noting RetryPolicy.standard.punctual tally () "t" none [2, 3, 4] [] .empty tally_asks rfl
  exact ⟨hentries, hworld⟩

end Workflow.Delivery

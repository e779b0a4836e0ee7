import Workflow.Delivery
import Workflow.Proofs.Delivery.Interp

/-!
# Works

A work is an effect that is looked into: leaves, put together with the combinators and with deliveries whose steps are
works in turn. `task` is the effect. `observed` is the same effect that also says, on the way, how each leaf and each
delivery ended, where a race had no members, and what each handler was given. Without those signs it is the effect
again: `erase_observed`.
-/

namespace Workflow

/-- What a part of a work stands in: the part that a handler looks after, or a delivery. -/
inductive Frame (ι : Type) where
  | catching (name : ι)
  | delivering (name : ι)
  deriving DecidableEq, Repr

abbrev Nesting (ι : Type) := List (Frame ι)

inductive Sign (ι : Type) where
  | ended (within : Nesting ι) (name : ι) (failure? : Option Failure)
  | emptyRace (within : Nesting ι)
  | caught (within : Nesting ι) (name : ι) (failure : Failure)
  | delivered (within : Nesting ι) (name : ι) (failure? : Option Failure)
  deriving DecidableEq, Repr

abbrev ColdTask (Ω : Signature) (H E : Type) (α : Type) : Type :=
  Cold (requests Ω H E) Failure α

inductive Work (Ω : Signature) (H E ι : Type) : Type → Type 1 where
  | leaf {α : Type} (name : ι) (c : ColdTask Ω H E α) : Work Ω H E ι α
  | bind {α β : Type} (first : Work Ω H E ι α) (next : α → Work Ω H E ι β) : Work Ω H E ι β
  | andThen {α β : Type} (first : Work Ω H E ι α) (second : Work Ω H E ι β) : Work Ω H E ι β
  | map {α β : Type} (f : α → β) (work : Work Ω H E ι α) : Work Ω H E ι β
  | discard {α : Type} (work : Work Ω H E ι α) : Work Ω H E ι Unit
  | map2 {α β γ : Type} (f : α → β → γ) (first : Work Ω H E ι α) (second : Work Ω H E ι β) : Work Ω H E ι γ
  | recover {α : Type} (name : ι) (work : Work Ω H E ι α) (handler : Failure → Work Ω H E ι α) : Work Ω H E ι α
  | sequence {α : Type} {n : Nat} (works : Fin n → Work Ω H E ι α) : Work Ω H E ι (List α)
  | traverse {α β : Type} (make : β → Work Ω H E ι α) (items : List β) : Work Ω H E ι (List α)
  | all {α : Type} {n : Nat} (works : Fin n → Work Ω H E ι α) : Work Ω H E ι (List α)
  | race {α : Type} {n : Nat} (works : Fin n → Work Ω H E ι α) : Work Ω H E ι α
  /-- A delivery to the process whose steps run the works that the effects of `p` stand for. -/
  | deliver {σ : Signature} {I S R : Type} [Inhabited S] (name : ι) (policy : PacedPolicy)
    (p : Process σ Failure I S E R) (works : Effect σ Failure Unit → Work Ω H E ι Unit) (i : I) (stream : String)
    (event : E) : Work Ω H E ι Unit

variable {Ω : Signature} {H E ι : Type} {α β : Type}

namespace Work

def task {α : Type} : Work Ω H E ι α → ColdTask Ω H E α
  | leaf _ c => c
  | bind first next => first.task.bind fun a => (next a).task
  | andThen first second => first.task.andThen second.task
  | map f work => work.task.map f
  | discard work => work.task.discard
  | map2 f first second => Cold.map2 f first.task second.task
  | recover _ work handler => work.task.recover fun err => (handler err).task
  | sequence works => Cold.sequence (List.ofFn fun k => (works k).task)
  | traverse make items => Cold.traverse (fun item => (make item).task) items
  | all works => Cold.all (List.ofFn fun k => (works k).task)
  | race works => Cold.race .emptyRace (List.ofFn fun k => (works k).task)
  | deliver _ policy p works i stream event =>
    .ready (Delivery.deliver policy (p.relabel fun e => (works e).task.execute) i stream event)

end Work

/-! ## Signs -/

abbrev signed (Ω : Signature) (ι : Type) : Signature where
  Op := Ω.Op ⊕ Sign ι
  Answer
    | .inl op => Ω.Answer op
    | .inr _ => Unit

namespace Task

def sign (s : Sign ι) : Task (signed Ω ι) H E Unit :=
  .call (.act (.inr s)) .pure

def attended (mark : Option Failure → Sign ι) (e : Task (signed Ω ι) H E α) : Task (signed Ω ι) H E α :=
  (e.bind fun a => (sign (mark none)).andThen (.pure a)).recover fun err =>
    (sign (mark (some err))).andThen (.fail err)

def contest (within : Nesting ι) : List (Task (signed Ω ι) H E α) → Task (signed Ω ι) H E α
  | [] => (sign (.emptyRace within)).andThen (.fail .emptyRace)
  | e :: es => Effect.selectFirst .emptyRace (e :: es)

def unsigned : (op : Request Ω H E) → Task (signed Ω ι) H E ((requests Ω H E).Answer op)
  | .act op => .call (.act (.inl op)) .pure
  | .store call => .call (.store call) .pure
  | .mediator => .call .mediator .pure
  | .nestedTooDeep => .call .nestedTooDeep .pure

def plain (e : Task Ω H E α) : Task (signed Ω ι) H E α :=
  e.interp unsigned

def overlook : (op : Request (signed Ω ι) H E) → Task Ω H E ((requests (signed Ω ι) H E).Answer op)
  | .act (.inl op) => .call (.act op) .pure
  | .act (.inr _) => .pure ()
  | .store call => .call (.store call) .pure
  | .mediator => .call .mediator .pure
  | .nestedTooDeep => .call .nestedTooDeep .pure

def erase (e : Task (signed Ω ι) H E α) : Task Ω H E α :=
  e.interp overlook

end Task

namespace ColdTask

def attended (mark : Option Failure → Sign ι) (c : ColdTask (signed Ω ι) H E α) : ColdTask (signed Ω ι) H E α :=
  c.start fun work => .ready (Task.attended mark work)

def contest (within : Nesting ι) (cs : List (ColdTask (signed Ω ι) H E α)) : ColdTask (signed Ω ι) H E α :=
  Cold.startAll cs fun works => .ready (Task.contest within works)

def plain (c : ColdTask Ω H E α) : ColdTask (signed Ω ι) H E α :=
  c.interp Task.unsigned

def erase (c : ColdTask (signed Ω ι) H E α) : ColdTask Ω H E α :=
  c.interp Task.overlook

end ColdTask

namespace Work

def observed {α : Type} : Work Ω H E ι α → Nesting ι → ColdTask (signed Ω ι) H E α
  | leaf name c, within => ColdTask.attended (.ended within name) (ColdTask.plain c)
  | bind first next, within => (first.observed within).bind fun a => (next a).observed within
  | andThen first second, within => (first.observed within).andThen (second.observed within)
  | map f work, within => (work.observed within).map f
  | discard work, within => (work.observed within).discard
  | map2 f first second, within => Cold.map2 f (first.observed within) (second.observed within)
  | recover name work handler, within =>
    (work.observed (.catching name :: within)).recover fun err =>
      (Cold.ready (Task.sign (.caught within name err))).andThen ((handler err).observed within)
  | sequence works, within => Cold.sequence (List.ofFn fun k => (works k).observed within)
  | traverse make items, within => Cold.traverse (fun item => (make item).observed within) items
  | all works, within => Cold.all (List.ofFn fun k => (works k).observed within)
  | race works, within => ColdTask.contest within (List.ofFn fun k => (works k).observed within)
  | deliver name policy p works i stream event, within =>
    .ready (Task.attended (.delivered within name) (Delivery.deliver policy
      (p.relabel fun e => ((works e).observed (.delivering name :: within)).execute) i stream event))

end Work

/-! ## Without the signs -/

namespace Task

theorem overlook_prompt (op : Request (signed Ω ι) H E) : (overlook op).Prompt := by
  cases op with
  | act op =>
    cases op with
    | inl op => exact .inr ⟨.act op, id, rfl⟩
    | inr s => exact .inl ⟨(), rfl⟩
  | store call => exact .inr ⟨.store call, id, rfl⟩
  | mediator => exact .inr ⟨.mediator, id, rfl⟩
  | nestedTooDeep => exact .inr ⟨.nestedTooDeep, id, rfl⟩

theorem overlook_passesOn : Delivery.PassesOn (overlook : (op : Request (signed Ω ι) H E) → Task Ω H E _) :=
  fun _ => rfl

theorem erase_plain (e : Task Ω H E α) : erase (plain e : Task (signed Ω ι) H E α) = e := by
  induction e with
  | pure a => rfl
  | fail err => rfl
  | pause time next ih => exact congrArg (Effect.pause time) ih
  | call op next ih => cases op <;> exact congrArg (Effect.call _) (funext ih)

theorem erase_attended (mark : Option Failure → Sign ι) (e : Task (signed Ω ι) H E α) :
    erase (attended mark e) = erase e := by
  unfold attended erase
  rw [Effect.interp_recover overlook_prompt, Effect.interp_bind]
  have hdone :
      (fun a => ((sign (mark none)).andThen (.pure a) : Task (signed Ω ι) H E α).interp overlook) = .pure := rfl
  have hfailed :
      (fun err => ((sign (mark (some err))).andThen (.fail err) : Task (signed Ω ι) H E α).interp overlook) =
        .fail := rfl
  rw [hdone, hfailed, Effect.bind_pure, Effect.recover_with_fail]

theorem erase_contest (within : Nesting ι) (es : List (Task (signed Ω ι) H E α)) :
    erase (contest within es) = Effect.selectFirst .emptyRace (es.map erase) := by
  cases es with
  | nil => rfl
  | cons e es => exact Effect.interp_selectFirst overlook_prompt .emptyRace (e :: es)

end Task

namespace ColdTask

theorem execute_erase (c : ColdTask (signed Ω ι) H E α) : (erase c).execute = Task.erase c.execute := by
  unfold erase Task.erase
  exact Cold.execute_interp _ c

theorem erase_plain (c : ColdTask Ω H E α) : erase (plain c : ColdTask (signed Ω ι) H E α) = c := by
  induction c with
  | ready work => exact congrArg Cold.ready (Task.erase_plain work)
  | call op next ih => cases op <;> exact congrArg (Cold.call _) (funext ih)

theorem erase_attended (mark : Option Failure → Sign ι) (c : ColdTask (signed Ω ι) H E α) :
    erase (attended mark c) = erase c := by
  have hwork (work : Task (signed Ω ι) H E α) : (Cold.ready (Task.attended mark work)).interp Task.overlook =
      Cold.ready (work.interp Task.overlook) := congrArg Cold.ready (Task.erase_attended mark work)
  exact (Cold.interp_start Task.overlook_prompt hwork c).trans (Cold.start_ready _)

theorem erase_contest (within : Nesting ι) (cs : List (ColdTask (signed Ω ι) H E α)) :
    erase (contest within cs) = Cold.race .emptyRace (cs.map erase) := by
  apply Cold.interp_startAll Task.overlook_prompt
  intro works
  exact congrArg Cold.ready (Task.erase_contest within works)

end ColdTask

theorem Work.erase_observed {α : Type} (work : Work Ω H E ι α) (within : Nesting ι) :
    ColdTask.erase (work.observed within) = work.task := by
  induction work generalizing within with
  | leaf name c => exact (ColdTask.erase_attended _ _).trans (ColdTask.erase_plain c)
  | bind first next ihf ihn =>
    simp only [observed, task, ← ihf within, ← ihn _ within]
    exact Cold.interp_bind Task.overlook_prompt ..
  | andThen first second ihf ihs =>
    simp only [observed, task, ← ihf within, ← ihs within]
    exact Cold.interp_bind Task.overlook_prompt ..
  | map f work ih =>
    simp only [observed, task, ← ih within]
    exact Cold.interp_map Task.overlook_prompt ..
  | discard work ih =>
    simp only [observed, task, ← ih within]
    exact Cold.interp_map Task.overlook_prompt ..
  | map2 f first second ihf ihs =>
    simp only [observed, task, ← ihf within, ← ihs within]
    exact Cold.interp_map2 ..
  | recover name work handler ih ihh =>
    simp only [observed, task, ← ih (.catching name :: within), ← ihh _ within]
    refine (Cold.interp_recover Task.overlook_prompt ..).trans (Cold.recover_congr _ ?_)
    intro err
    exact (congrArg Cold.execute (Cold.interp_bind Task.overlook_prompt ..)).trans (Cold.execute_bind ..)
  | sequence works ih =>
    simp only [observed, task, ← ih _ within]
    exact (Cold.interp_sequence ..).trans (congrArg _ (List.map_ofFn ..))
  | traverse make items ih =>
    simp only [observed, task, ← ih _ within]
    exact (Cold.interp_sequence ..).trans (congrArg _ (List.map_map ..))
  | all works ih =>
    simp only [observed, task, ← ih _ within]
    exact (Cold.interp_all Task.overlook_prompt _).trans (congrArg _ (List.map_ofFn ..))
  | race works ih =>
    simp only [observed, task, ← ih _ within]
    exact (ColdTask.erase_contest within _).trans (congrArg _ (List.map_ofFn ..))
  | deliver name policy p works i stream event ih =>
    simp only [observed, task, ← ih _ (.delivering name :: within), ColdTask.execute_erase]
    refine congrArg Cold.ready ((Task.erase_attended _ _).trans ?_)
    refine (Delivery.interp_deliver Task.overlook_passesOn ..).trans ?_
    rw [Process.relabel_relabel]
    rfl

end Workflow

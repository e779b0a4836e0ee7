import Mathlib.Data.List.Induction
import Mathlib.Data.List.OfFn
import Workflow.Proofs.Delivery.Obedient
import Workflow.Proofs.Delivery.Sequential
import Workflow.Proofs.Work.Basic

/-!
# Errors keep their identity

An error is raised by one leaf, by a race without members or by a delivery of its own accord, and goes at once, as it
is, to whatever the place where it was raised stands in: to a handler, out of a delivery, or out of the whole work. The
signs of a work keep to that protocol. Main statement: `Work.errors_traced`.
-/

namespace Workflow

variable {Ω : Signature} {H E ι : Type} {α : Type}

/-! ## The protocol of the signs -/

def Sign.raises? : Sign ι → Option (Nesting ι × Failure)
  | .ended within _ (some err) => some (within, err)
  | .emptyRace within => some (within, .emptyRace)
  | .delivered within _ (some err) => some (within, err)
  | _ => none

/-- The sign may come next, where this error has been raised and has not got anywhere yet. -/
def Sign.Fits : Sign ι → Option (Nesting ι × Failure) → Prop
  | .caught within name err, raised => raised = some (.catching name :: within, err)
  | .delivered within name (some err), raised =>
    raised = some (.delivering name :: within, err) ∨ raised = none ∧ ∃ cause, err = .delivery cause
  | _, raised => raised = none

abbrev escalation (Ω : Signature) (H E ι : Type) : Protocol (requests (signed Ω ι) H E) where
  State := Option (Nesting ι × Failure)
  calm := none
  asks raised
    | .act (.inr s) => s.Fits raised
    | _ => raised = none
  after raised
    | .act (.inr s) => s.raises?
    | _ => raised

def RaisedAt (within : Nesting ι) (raised : Option (Nesting ι × Failure)) (err : Failure) : Prop :=
  raised = some (within, err)

/-! ## Works keep to it -/

theorem obeys_plain (e : Task Ω H E α) :
    (Task.plain e).Obeys (escalation Ω H E ι) (fun raised _ => raised = none) none := by
  induction e with
  | pure a => rfl
  | fail err => rfl
  | pause time next ih => exact ⟨rfl, ih⟩
  | call op next ih => cases op <;> exact ⟨rfl, ih⟩

variable {within : Nesting ι}

theorem obeys_sign {s : Sign ι} {e : Task (signed Ω ι) H E α} {fails} {raised : Option (Nesting ι × Failure)}
    (hs : s.Fits raised) (he : e.Obeys (escalation Ω H E ι) fails s.raises?) :
    ((Task.sign s).andThen e).Obeys (escalation Ω H E ι) fails raised :=
  ⟨hs, fun _ => he⟩

theorem obeys_attended {mark : Option Failure → Sign ι} {e : Task (signed Ω ι) H E α}
    {fails : Option (Nesting ι × Failure) → Failure → Prop} (he : e.Obeys (escalation Ω H E ι) fails none)
    (hdone : (mark none).Fits none ∧ (mark none).raises? = none)
    (hfailed : ∀ raised err, fails raised err →
      (mark (some err)).Fits raised ∧ (mark (some err)).raises? = some (within, err)) :
    (Task.attended mark e).Obeys (escalation Ω H E ι) (RaisedAt within) none := by
  refine Effect.Obeys.recover (he.bind fun a => obeys_sign hdone.1 hdone.2) fun raised err h => ?_
  obtain ⟨hfits, hraises⟩ := hfailed raised err h
  exact obeys_sign hfits hraises

theorem obeys_contest {es : List (Task (signed Ω ι) H E α)}
    (h : ∀ e ∈ es, e.Obeys (escalation Ω H E ι) (RaisedAt within) none) :
    (Task.contest within es).Obeys (escalation Ω H E ι) (RaisedAt within) none := by
  cases es with
  | nil => exact obeys_sign rfl rfl
  | cons e es => exact Effect.obeys_selectFirst nofun h

theorem obeys_plain_cold (c : ColdTask Ω H E α) :
    (ColdTask.plain c).Obeys (escalation Ω H E ι) (fun raised _ => raised = none) := by
  induction c with
  | ready work => exact obeys_plain work
  | call op next ih => cases op <;> exact ⟨rfl, rfl, ih⟩

/-- The error may leave the delivery: it was raised inside, or is one of the delivery's own. -/
def Leaves (within : Nesting ι) (name : ι) (raised : Option (Nesting ι × Failure)) (err : Failure) : Prop :=
  (Sign.delivered within name (some err)).Fits raised

theorem permits_escalation (name : ι) : Delivery.Permits (escalation Ω H E ι) (Leaves within name) where
  asks _ := rfl
  after _ := rfl
  fails cause := .inr ⟨rfl, cause, rfl⟩

theorem Work.obeys_observed (work : Work Ω H E ι α) (within : Nesting ι) :
    (work.observed within).Obeys (escalation Ω H E ι) (RaisedAt within) := by
  induction work generalizing within with
  | leaf name c =>
    apply (obeys_plain_cold c).start
    intro e he
    exact obeys_attended he ⟨rfl, rfl⟩ fun raised err h => ⟨h, rfl⟩
  | bind first next ihf ihn => exact (ihf within).bind fun a => ihn a within
  | andThen first second ihf ihs => exact (ihf within).bind fun _ => ihs within
  | map f work ih => exact (ih within).map f
  | discard work ih => exact (ih within).map _
  | map2 f first second ihf ihs => exact (ihf within).map2 (ihs within) f
  | recover name work handler ih ihh =>
    apply (ih (.catching name :: within)).recover
    intro raised err h
    exact obeys_sign h (ihh err within).execute
  | sequence works ih => exact Cold.obeys_sequence (List.forall_mem_ofFn_iff.mpr fun k => ih k within)
  | traverse make items ih => exact Cold.obeys_sequence (List.forall_mem_map.mpr fun item _ => ih item within)
  | all works ih => exact Cold.obeys_all (List.forall_mem_ofFn_iff.mpr fun k => ih k within)
  | race works ih =>
    apply Cold.obeys_startAll (List.forall_mem_ofFn_iff.mpr fun k => ih k within)
    intro es hes
    exact obeys_contest hes
  | deliver name policy p works i stream event ih =>
    -- what fails inside fails in the delivery's frame, from where it may leave
    have inside (fx : Effect _ Failure Unit) : ((works fx).observed (.delivering name :: within)).execute.Obeys
        (escalation Ω H E ι) (Leaves within name) none :=
      (ih fx _).execute.imp fun raised err h => .inl h
    have hstep (entries : List (Entry E)) (taken : Task (signed Ω ι) H E Unit)
        (h : (p.relabel fun fx => ((works fx).observed (.delivering name :: within)).execute).Transition i entries
          event taken) : taken.Obeys (escalation Ω H E ι) (Leaves within name) none := by
      obtain ⟨fx, rfl, -⟩ := Process.Transition.of_relabel _ h
      exact inside fx
    have hdeliver := Delivery.obeys_deliver (permits_escalation name) stream policy (inside _) hstep
    exact obeys_attended hdeliver ⟨rfl, rfl⟩ fun raised err h => ⟨h, rfl⟩

/-! ## Logs -/

def Exchange.sign? : Exchange (requests (signed Ω ι) H E) → Option (Sign ι)
  | ⟨.act (.inr s), _⟩ => some s
  | _ => none

def signs (t : List (Exchange (requests (signed Ω ι) H E))) : List (Sign ι) :=
  t.filterMap Exchange.sign?

def raisedLast (log : List (Sign ι)) : Option (Nesting ι × Failure) :=
  log.getLast?.bind Sign.raises?

theorem raisedLast_concat (log : List (Sign ι)) (s : Sign ι) : raisedLast (log ++ [s]) = s.raises? := by
  unfold raisedLast
  rw [List.getLast?_concat]
  rfl

theorem along_escalation (t : List (Exchange (requests (signed Ω ι) H E))) :
    (escalation Ω H E ι).along none t = raisedLast (signs t) := by
  induction t using List.reverseRecOn with
  | nil => rfl
  | append_singleton t x ih =>
    unfold signs at ih ⊢
    rw [Protocol.along_concat, List.filterMap_append, ih]
    obtain ⟨op, answer⟩ := x
    match op, answer with
    | .act (.inr s), _ => exact (raisedLast_concat _ s).symm
    | .act (.inl _), _ => exact congrArg raisedLast (List.append_nil _).symm
    | .store _, _ => exact congrArg raisedLast (List.append_nil _).symm
    | .mediator, _ => exact congrArg raisedLast (List.append_nil _).symm

theorem fits_of_allows {t : List (Exchange (requests (signed Ω ι) H E))} (h : (escalation Ω H E ι).Allows none t)
    {before after : List (Sign ι)} {s : Sign ι} (ht : signs t = before ++ s :: after) : s.Fits (raisedLast before) := by
  unfold signs at ht
  obtain ⟨t₁, t₂, rfl, rfl, hrest⟩ := List.filterMap_eq_append_iff.mp ht
  obtain ⟨quiet, x, t₃, rfl, hquiet, hx, -⟩ := List.filterMap_eq_cons_iff.mp hrest
  have hasked := h (t₁ ++ quiet) x t₃ (List.append_assoc ..).symm
  have hsame : signs (t₁ ++ quiet) = t₁.filterMap Exchange.sign? := by
    unfold signs
    rw [List.filterMap_append, List.filterMap_eq_nil_iff.mpr hquiet, List.append_nil]
  rw [along_escalation, hsame] at hasked
  obtain ⟨op, answer⟩ := x
  match op, answer, hx with
  | .act (.inr s), _, rfl => exact hasked

/-- The log ends with this error being raised in this place: by a leaf, by a race without members, by a delivery of its
own accord, or inside a delivery that hands it on. -/
inductive Raised : Nesting ι → Failure → List (Sign ι) → Prop
  | leaf {log within name err} : Raised within err (log ++ [.ended within name (some err)])
  | emptyRace {log within} : Raised within .emptyRace (log ++ [.emptyRace within])
  | delivery {log within name cause} (calm : raisedLast log = none) :
      Raised within (.delivery cause) (log ++ [.delivered within name (some (.delivery cause))])
  | handedOn {log within name err} (inside : Raised (.delivering name :: within) err log) :
      Raised within err (log ++ [.delivered within name (some err)])

theorem Raised.raisedLast_eq {err : Failure} {log : List (Sign ι)} (h : Raised within err log) :
    raisedLast log = some (within, err) := by
  cases h <;> exact raisedLast_concat _ _

def Fitting (log : List (Sign ι)) : Prop :=
  ∀ before s after, log = before ++ s :: after → s.Fits (raisedLast before)

theorem Fitting.of_append {log later : List (Sign ι)} (h : Fitting (log ++ later)) : Fitting log := by
  rintro before s after rfl
  exact h before s (after ++ later) (List.append_assoc ..)

theorem Fitting.raised {log : List (Sign ι)} (h : Fitting log) {err : Failure}
    (hlast : raisedLast log = some (within, err)) : Raised within err log := by
  -- from the end of the log: what a delivery has handed on was raised inside it before
  induction log using List.reverseRecOn generalizing within err with
  | nil => cases hlast
  | append_singleton log s ih =>
    have hfits := h log s [] rfl
    rw [raisedLast_concat] at hlast
    match s, hfits, hlast with
    | .ended _ _ (some _), _, rfl => exact .leaf
    | .emptyRace _, _, rfl => exact .emptyRace
    | .delivered _ _ (some _), .inl hinside, rfl => exact .handedOn (ih h.of_append hinside)
    | .delivered _ _ (some _), .inr ⟨hcalm, cause, rfl⟩, rfl => exact .delivery hcalm

/-! ## Runs -/

variable {W : Type}

def watching (host : Host (requests Ω H E) W) : Host (requests (signed Ω ι) H E) W where
  answer
    | .act (.inl op), w => host.answer (.act op) w
    | .act (.inr _), w => some ((), w)
    | .store call, w => host.answer (.store call) w
    | .mediator, w => host.answer .mediator w
    | .nestedTooDeep, w => host.answer .nestedTooDeep w
  wait := host.wait

theorem run_erase (host : Host (requests Ω H E) W) (e : Task (signed Ω ι) H E α) (w : W) :
    (Task.erase e).run host w = e.run (watching host) w := by
  have hwait : (watching host : Host (requests (signed Ω ι) H E) W).wait = host.wait := rfl
  refine Effect.run_interp Task.overlook hwait (fun op w => ?_) e w
  match op with
  | .act (.inl op) => exact Effect.run_ask host (.act op) w
  | .act (.inr _) => rfl
  | .store call => exact Effect.run_ask host (.store call) w
  | .mediator => exact Effect.run_ask host .mediator w
  | .nestedTooDeep => exact Effect.run_ask host .nestedTooDeep w

def Work.log (work : Work Ω H E ι α) (host : Host (requests Ω H E) W) (w : W) : List (Sign ι) :=
  signs ((work.observed []).execute.transcript (watching host) w)

namespace Work

variable (work : Work Ω H E ι α) (host : Host (requests Ω H E) W) (w : W)

theorem run_observed : (work.observed []).execute.run (watching host) w = work.task.execute.run host w := by
  rw [← run_erase, ← ColdTask.execute_erase, work.erase_observed]

theorem fitting_log : Fitting (work.log host w) := by
  intro before s after h
  exact fits_of_allows ((work.obeys_observed []).execute.run (watching host) w).1 h

theorem raisedLast_log : raisedLast (work.log host w) =
    match (work.task.execute.run host w).1 with
    | .failed err => some ([], err)
    | _ => none := by
  obtain ⟨-, hend⟩ := (work.obeys_observed []).execute.run (watching host) w
  rw [along_escalation, run_observed] at hend
  revert hend
  cases (work.task.execute.run host w).1 with
  | done a => exact id
  | failed err => exact id
  | stopped =>
    rintro ⟨op, w', hasks, hanswer⟩
    cases op with
    | act op =>
      cases op with
      | inl op => exact hasks
      | inr s => cases hanswer
    | store call => exact hasks
    | mediator => exact hasks
    | nestedTooDeep => exact hasks

end Work

theorem Sign.Fits.next {s : Sign ι} {err : Failure} (h : s.Fits (some (within, err))) :
    match within with
    | [] => False
    | .catching name :: outer => s = .caught outer name err
    | .delivering name :: outer => s = .delivered outer name (some err) := by
  cases s with
  | ended _ _ _ => cases h
  | emptyRace _ => cases h
  | caught outer name _ => cases h; rfl
  | delivered outer name failure? =>
    cases failure? with
    | none => cases h
    | some _ =>
      rcases h with h | ⟨h, -⟩
      · cases h; rfl
      · cases h

theorem Raised.exists_mem {err : Failure} {log : List (Sign ι)} (h : Raised within err log) :
    ∃ s ∈ log, s.raises? = some (within, err) := by
  cases h <;> exact ⟨_, List.mem_append_right _ (List.mem_singleton_self _), rfl⟩

/-- If a work fails, then with the error that is raised last, by the leaf that is the last to end. A handler is given
the very error that was raised last, in the part that it looks after. An error goes from where it is raised to what
encloses it, and nothing comes between. Where none is raised and every question has an answer, the work succeeds. -/
theorem Work.errors_traced (work : Work Ω H E ι α) :
    ColdTask.erase (work.observed []) = work.task ∧
    ∀ ⦃W : Type⦄ (host : Host (requests Ω H E) W) (w : W),
      (work.observed []).execute.run (watching host) w = work.task.execute.run host w ∧
      (∀ err w', work.task.execute.run host w = (.failed err, w') → Raised [] err (work.log host w)) ∧
      (∀ before outer name err after, work.log host w = before ++ .caught outer name err :: after →
        Raised (.catching name :: outer) err before) ∧
      (∀ before within err after, work.log host w = before ++ after → Raised within err before →
        match within with
        | [] => after = [] ∧ (work.task.execute.run host w).1 = .failed err
        | .catching name :: outer => ∃ later, after = .caught outer name err :: later
        | .delivering name :: outer => ∃ later, after = .delivered outer name (some err) :: later) ∧
      (work.task.execute.Asks (fun op => ∀ w, (host.answer op w).isSome) → (∀ s ∈ work.log host w, s.raises? = none) →
        ∃ a w', work.task.execute.run host w = (.done a, w')) := by
  refine ⟨work.erase_observed [], ?_⟩
  intro W host w
  have hfitting := work.fitting_log host w
  have hlast := work.raisedLast_log host w
  refine ⟨work.run_observed host w, ?_, ?_, ?_, ?_⟩
  · intro err w' hrun
    rw [hrun] at hlast
    exact hfitting.raised hlast
  · intro before outer name err after hlog
    have hcaught := hfitting before _ after hlog
    rw [hlog] at hfitting
    exact hfitting.of_append.raised hcaught
  · intro before within err after hlog hraised
    cases after with
    | nil =>
      rw [hlog, List.append_nil, hraised.raisedLast_eq] at hlast
      revert hlast
      cases (work.task.execute.run host w).1 with
      | done a => exact nofun
      | failed err' =>
        rintro ⟨⟩
        exact ⟨rfl, rfl⟩
      | stopped => exact nofun
    | cons s later =>
      have hfits := hfitting before s later hlog
      rw [hraised.raisedLast_eq] at hfits
      have hnext := hfits.next
      cases within with
      | nil => exact hnext.elim
      | cons frame outer =>
        cases frame with
        | catching name => exact ⟨later, congrArg (· :: later) hnext⟩
        | delivering name => exact ⟨later, congrArg (· :: later) hnext⟩
  · intro hasks hnone
    rcases Effect.run_of_asks host hasks w with ⟨a, w', hrun⟩ | ⟨err, w', hrun⟩
    · exact ⟨a, w', hrun⟩
    · rw [hrun] at hlast
      obtain ⟨s, hs, hraises⟩ := (hfitting.raised hlast).exists_mem
      rw [hnone s hs] at hraises
      cases hraises

/-- The first step of a tally ends in a race that no one runs. Its error leaves the delivery and the members of `all`
beside it, and the handler makes another of it. -/
theorem Work.errors_traced_nested :
    let jot (entry : String) : Work ⟨String, fun _ => Unit⟩ Empty Nat String Unit :=
      .leaf entry (.ready (Task.act entry))
    let steps : Task ⟨String, fun _ => Unit⟩ Empty Nat Unit → Work ⟨String, fun _ => Unit⟩ Empty Nat String Unit
      | .call (.act "opened") _ => jot "opened"
      | _ => .race fun k : Fin 0 => k.elim0
    let delivery := Work.deliver "tally" RetryPolicy.never.punctual Delivery.tally steps () "t" 2
    let work := Work.recover "rescue" (.all fun k : Fin 2 => if k = 0 then jot "first" else delivery) fun err =>
      .leaf "lament" (.ready (.fail (.failed (if err = .emptyRace then "no one came" else "else"))))
    let log := work.log Delivery.noting.host ([], .empty)
    let beaten : List (Sign String) :=
      [.ended [.catching "rescue"] "first" none, .ended [.delivering "tally", .catching "rescue"] "opened" none,
        .emptyRace [.delivering "tally", .catching "rescue"], .delivered [.catching "rescue"] "tally" (some .emptyRace)]
    let mourned : List (Sign String) :=
      [.caught [] "rescue" .emptyRace, .ended [] "lament" (some (.failed "no one came"))]
    log = beaten ++ mourned ∧ Raised [] (.failed "no one came") log ∧ Raised [.catching "rescue"] .emptyRace beaten ∧
    (∃ later, mourned = .caught [] "rescue" .emptyRace :: later) ∧
    ((jot "first").task.execute.Asks fun op => ∀ w, ((Delivery.noting.host (E := Nat)).answer op w).isSome) ∧
    (∀ s ∈ (jot "first").log Delivery.noting.host ([], .empty), s.raises? = none) ∧
    ∃ a w', (jot "first").task.execute.run Delivery.noting.host ([], .empty) = (.done a, w') := by
  intro jot steps delivery work log beaten mourned
  have hlog : log = beaten ++ mourned := by rfl
  obtain ⟨-, hwork⟩ := work.errors_traced
  obtain ⟨-, hfailed, hcaught, hnext, -⟩ := hwork Delivery.noting.host ([], .empty)
  have hbeaten : Raised [.catching "rescue"] .emptyRace beaten := hcaught beaten [] "rescue" .emptyRace _ hlog
  obtain ⟨-, hjot⟩ := (jot "first").errors_traced
  obtain ⟨-, -, -, -, hdone⟩ := hjot Delivery.noting.host ([], .empty)
  have hasks : (jot "first").task.execute.Asks fun op => ∀ w, ((Delivery.noting.host (E := Nat)).answer op w).isSome :=
    ⟨fun _ => rfl, fun _ => trivial⟩
  have hquiet : ∀ s ∈ (jot "first").log Delivery.noting.host ([], .empty), s.raises? = none := by
    intro s hs
    obtain rfl := List.mem_singleton.mp hs
    rfl
  exact ⟨hlog, hfailed _ _ rfl, hbeaten, hnext beaten _ .emptyRace mourned hlog hbeaten, hasks, hquiet,
    hdone hasks hquiet⟩

end Workflow

import Workflow.Proofs.Delivery.Attempt
import Workflow.Proofs.Effect.Protocol
import Workflow.Proofs.History

/-!
# Deliveries that keep to a protocol

A delivery obeys a protocol that lets it call the store and fail with errors of its own, if the effects that it may
run do: `obeys_deliver`.
-/

namespace Workflow.Delivery

universe u

variable {Ω : Signature} {H I S E R : Type} {α : Type u}

/-- Where it is calm, the protocol lets deliveries call the store and fail with errors of their own. -/
structure Permits (P : Protocol (requests Ω H E)) (fails : P.State → Failure → Prop) : Prop where
  asks (call : StoreCall (Entry E)) : P.asks P.calm (.store call)
  after (call : StoreCall (Entry E)) : P.after P.calm (.store call) = P.calm
  fails (cause : DeliveryError) : fails P.calm (.delivery cause)

variable {P : Protocol (requests Ω H E)} {fails : P.State → Failure → Prop} (permits : Permits P fails)
include permits

theorem obeys_store {call : StoreCall (Entry E)} {next : call.Reply → Task Ω H E α}
    (h : ∀ reply, (next reply).Obeys P fails P.calm) :
    (.call (.store call) next : Task Ω H E α).Obeys P fails P.calm := by
  refine ⟨permits.asks call, fun reply => ?_⟩
  rw [permits.after]
  exact h reply

theorem obeys_storeFault (e : StoreError) : (storeFault e : Task Ω H E α).Obeys P fails P.calm :=
  permits.fails (.store e)

theorem obeys_record (stream : String) (entry : Entry E) (expected : Nat) {next : Task Ω H E (Option StoreError)}
    (h : next.Obeys P fails P.calm) : (record stream entry expected next).Obeys P fails P.calm := by
  refine obeys_store permits fun reply => ?_
  cases reply with
  | ok version => exact h
  | error e =>
    dsimp only
    split
    · exact rfl
    · exact obeys_storeFault permits e

theorem obeys_history (stream : String) {next : List (Entry E) → Task Ω H E α}
    (h : ∀ entries, (next entries).Obeys P fails P.calm) : (history stream next).Obeys P fails P.calm := by
  refine obeys_store permits fun reply => ?_
  cases reply with
  | ok entries => exact h entries
  | error e => exact obeys_storeFault permits e

theorem obeys_retrying (policy : PacedPolicy) (stream : String) {attempt : Task Ω H E (Option StoreError)}
    (h : attempt.Obeys P fails P.calm) (left : Nat) (retries : UInt32) :
    (retrying policy stream attempt left retries).Obeys P fails P.calm := by
  induction left generalizing retries with
  | zero =>
    refine h.bind fun conflict => ?_
    cases conflict with
    | none => exact rfl
    | some e => exact permits.fails _
  | succ left ih =>
    refine h.bind fun conflict => ?_
    cases conflict with
    | none => exact rfl
    | some e => exact (Effect.obeys_suspend _).bind fun _ => ih (retries + 1)

section
variable [Inhabited S] {p : Definition Ω H I S E R} {i : I} {event : E} (stream : String)

theorem obeys_react (hstep : ∀ entries fx, p.Transition i entries event fx → fx.Obeys P fails P.calm)
    (entries : List (Entry E)) : (react p i stream event entries).Obeys P fails P.calm := by
  cases hr : p.replay i entries with
  | error flaw =>
    unfold react
    simp only [hr]
    exact permits.fails _
  | ok node =>
    cases ho : node.offer event with
    | none =>
      rw [react_of_ignored p i stream event hr ho]
      exact rfl
    | some step =>
      rw [react_of_offer p i stream event hr ho]
      exact obeys_record permits stream _ _ ((hstep entries step.1 ⟨node, step.2, hr, ho⟩).map _)

theorem obeys_deliver (policy : PacedPolicy) (hopening : (p.run i default).1.Obeys P fails P.calm)
    (hstep : ∀ entries fx, p.Transition i entries event fx → fx.Obeys P fails P.calm) :
    (deliver policy p i stream event).Obeys P fails P.calm := by
  refine obeys_retrying permits policy stream (obeys_store permits fun reply => ?_) _ _
  cases reply with
  | error e => exact obeys_storeFault permits e
  | ok present =>
    refine Effect.Obeys.bind ?_ fun conflict => ?_
    · cases present with
      | true => exact rfl
      | false => exact obeys_record permits stream _ _ (hopening.map _)
    · cases conflict with
      | some e => exact rfl
      | none => exact obeys_history permits stream (obeys_react permits stream hstep)

end

end Workflow.Delivery

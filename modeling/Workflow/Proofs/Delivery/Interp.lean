import Workflow.Proofs.Delivery.Attempt
import Workflow.Proofs.Effect.Interp
import Workflow.Proofs.Process.Relabel

/-!
# Deliveries carried over to other questions

Where store calls are passed on as they are, a delivery stays a delivery, of the same process with its effects
carried over: `interp_deliver`.
-/

namespace Workflow.Delivery

universe u

variable {Ω Ω' : Signature} {H I S E R : Type} {α : Type u}

def PassesOn (answer : (op : Request Ω H E) → Task Ω' H E ((requests Ω H E).Answer op)) : Prop :=
  ∀ call, answer (.store call) = (.call (.store call) .pure : Task Ω' H E call.Reply)

variable {answer : (op : Request Ω H E) → Task Ω' H E ((requests Ω H E).Answer op)} (h : PassesOn answer)
include h

theorem interp_store (call : StoreCall (Entry E)) (next : call.Reply → Task Ω H E α) :
    (.call (.store call) next : Task Ω H E α).interp answer =
      .call (.store call) fun reply => (next reply).interp answer := by
  show (answer (.store call)).bind (fun reply => (next reply).interp answer) = _
  rw [h call]
  rfl

theorem interp_record (stream : String) (entry : Entry E) (expected : Nat) (next : Task Ω H E (Option StoreError)) :
    (record stream entry expected next).interp answer = record stream entry expected (next.interp answer) := by
  unfold record
  rw [interp_store h]
  congr 1; funext reply
  cases reply with
  | ok version => rfl
  | error e => dsimp only; split <;> rfl

theorem interp_history (stream : String) (next : List (Entry E) → Task Ω H E α) :
    (history stream next).interp answer = history stream fun entries => (next entries).interp answer := by
  unfold history
  rw [interp_store h]
  congr 1; funext reply
  cases reply <;> rfl

omit h in
theorem interp_conclude (fx : Task Ω H E Unit) : (conclude fx).interp answer = conclude (fx.interp answer) :=
  Effect.interp_map ..

section
variable [Inhabited S] (p : Definition Ω H I S E R) (i : I) (stream : String) (event : E)

theorem interp_begin : (begin p i stream).interp answer = begin (p.relabel (Effect.interp answer)) i stream :=
  (interp_record h ..).trans (congrArg _ (interp_conclude _))

theorem interp_react (entries : List (Entry E)) :
    (react p i stream event entries).interp answer =
      react (p.relabel (Effect.interp answer)) i stream event entries := by
  have hreplay := p.replay_relabel (Effect.interp answer) i entries
  cases hr : p.replay i entries with
  | error flaw =>
    rw [hr] at hreplay
    unfold react
    simp only [hreplay, hr]
    rfl
  | ok node =>
    rw [hr] at hreplay
    have hoffer := node.offer_relabel (Effect.interp answer) event
    cases ho : node.offer event with
    | none =>
      rw [ho] at hoffer
      rw [react_of_ignored _ i stream event hreplay hoffer, react_of_ignored p i stream event hr ho]
      rfl
    | some step =>
      rw [ho] at hoffer
      rw [react_of_offer _ i stream event hreplay hoffer, react_of_offer p i stream event hr ho, interp_record h]
      exact congrArg _ (interp_conclude step.1)

theorem interp_attempt :
    (attempt p i stream event).interp answer = attempt (p.relabel (Effect.interp answer)) i stream event := by
  unfold attempt
  rw [interp_store h]
  congr 1; funext reply
  cases reply with
  | error e => rfl
  | ok present =>
    have hbegin : (if present then .pure none else begin p i stream : Task Ω H E _).interp answer =
        if present then .pure none else begin (p.relabel (Effect.interp answer)) i stream := by
      cases present with
      | true => rfl
      | false => exact interp_begin h p i stream
    have hreact : (fun entries => (react p i stream event entries).interp answer) =
        react (p.relabel (Effect.interp answer)) i stream event :=
      funext (interp_react h p i stream event)
    dsimp only
    rw [Effect.interp_bind, hbegin]
    congr 1; funext conflict
    cases conflict with
    | some e => rfl
    | none => exact (interp_history h ..).trans (congrArg _ hreact)

omit h in
theorem interp_retrying (policy : PacedPolicy) (task : Task Ω H E (Option StoreError)) (left : Nat) (retries : UInt32) :
    (retrying policy stream task left retries).interp answer =
      retrying policy stream (task.interp answer) left retries := by
  induction left generalizing retries with
  | zero =>
    unfold retrying
    rw [Effect.interp_bind]
    congr 1; funext conflict
    cases conflict <;> rfl
  | succ left ih =>
    unfold retrying
    rw [Effect.interp_bind]
    congr 1; funext conflict
    cases conflict with
    | none => rfl
    | some e =>
      dsimp only [Effect.andThen]
      rw [Effect.interp_bind, Effect.interp_suspend, ih]

theorem interp_deliver (policy : PacedPolicy) :
    (deliver policy p i stream event).interp answer =
      deliver policy (p.relabel (Effect.interp answer)) i stream event := by
  unfold deliver
  rw [interp_retrying, interp_attempt h]

theorem interp_start : (start p i stream).interp answer = start (p.relabel (Effect.interp answer)) i stream := by
  unfold start
  rw [Effect.interp_bind, interp_begin h]
  congr 1; funext conflict
  cases conflict <;> rfl

end

end Workflow.Delivery

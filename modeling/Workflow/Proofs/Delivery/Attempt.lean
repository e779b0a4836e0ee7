import Workflow.Delivery
import Workflow.Proofs.Effect.Trace

/-!
# The shape of an attempt

What an attempt does, whatever follows it: it looks for the stream, starts it if it is missing, loads the
history, offers the event and records it. A delivery is an attempt and, after a conflict, the next one.
-/

namespace Workflow.Delivery

universe u

variable {Ω : Signature} {H I S E R : Type} {α : Type u}

/-- What follows an attempt: nothing if it met no conflict, else another attempt if one is left. -/
def again (policy : PacedPolicy) (stream : String) (attempt : Task Ω H E (Option StoreError)) :
    (left : Nat) → (retries : UInt32) → Option StoreError → Task Ω H E Unit
  | _, _, none => .unit
  | 0, retries, some _ =>
    .fail (.delivery (.retriesExhausted stream (min (retries.toNat + 1) RetryPolicy.countLimit)))
  | left + 1, retries, some _ =>
    (Effect.suspend (policy.sleep (policy.delay (retries + 1).toNat))).andThen
      (retrying policy stream attempt left (retries + 1))

theorem retrying_eq (policy : PacedPolicy) (stream : String) (attempt : Task Ω H E (Option StoreError))
    (left : Nat) (retries : UInt32) :
    retrying policy stream attempt left retries =
      attempt.bind (again policy stream attempt left retries) := by
  cases left <;> exact congrArg (Effect.bind attempt) (funext fun conflict => by cases conflict <;> rfl)

theorem again_none (policy : PacedPolicy) (stream : String) (attempt : Task Ω H E (Option StoreError))
    (left : Nat) (retries : UInt32) : again policy stream attempt left retries none = .unit := by
  cases left <;> rfl

theorem again_some (policy : PacedPolicy) (stream : String) (attempt : Task Ω H E (Option StoreError))
    (left : Nat) (retries : UInt32) (e : StoreError) : again policy stream attempt (left + 1) retries (some e) =
      (Effect.suspend (policy.sleep (policy.delay (retries + 1).toNat))).andThen
      (retrying policy stream attempt left (retries + 1)) := rfl

theorem conclude_bind (fx : Task Ω H E Unit) (g : Option StoreError → Task Ω H E α) :
    (conclude fx).bind g = fx.bind fun _ => g none := by
  unfold conclude; rw [Effect.map_eq_bind, Effect.bind_assoc]; rfl

theorem conclude_bind_of_unit (fx : Task Ω H E Unit) {g : Option StoreError → Task Ω H E Unit}
    (hg : g none = .unit) : (conclude fx).bind g = fx := by
  rw [conclude_bind, hg]; exact Effect.bind_pure fx

theorem record_bind (stream : String) (entry : Entry E) (expected : Nat)
    (next : Task Ω H E (Option StoreError)) (g : Option StoreError → Task Ω H E α) :
    (record stream entry expected next).bind g =
      .call (.store (.append stream [entry] expected)) fun (reply : Except StoreError Nat) =>
        match reply with
        | .ok _ => next.bind g
        | .error e => if e.isConcurrency then g (some e) else storeFault e := by
  unfold record; rw [Effect.call_bind]
  congr 1; funext reply
  cases reply with
  | ok version => rfl
  | error e => dsimp only; split <;> rfl

def settle (next : Task Ω H E (Option StoreError)) (g : Option StoreError → Task Ω H E α) :
    Except StoreError Nat → Task Ω H E α
  | .ok _ => next.bind g
  | .error e => if e.isConcurrency then g (some e) else storeFault e

theorem record_bind_eq (stream : String) (entry : Entry E) (expected : Nat)
    (next : Task Ω H E (Option StoreError)) (g : Option StoreError → Task Ω H E α) :
    (record stream entry expected next).bind g = .call (.store (.append stream [entry] expected)) (settle next g) :=
  record_bind stream entry expected next g

theorem settle_of_conflict {e : StoreError} (he : e.isConcurrency) (next : Task Ω H E (Option StoreError))
    (g : Option StoreError → Task Ω H E α) : settle next g (.error e) = g (some e) :=
  if_pos he

theorem settle_of_not_conflict {e : StoreError} (he : ¬ e.isConcurrency) (next : Task Ω H E (Option StoreError))
    (g : Option StoreError → Task Ω H E α) : settle next g (.error e) = storeFault e :=
  if_neg he

/-! ## Exchanges of an attempt -/

def looking (stream : String) (present : Bool) : Exchange (requests Ω H E) :=
  ⟨.store (.contains stream), .ok present⟩

def writing (stream : String) (entry : Entry E) (expected version : Nat) : Exchange (requests Ω H E) :=
  ⟨.store (.append stream [entry] expected), .ok version⟩

def reading (stream : String) (entries : List (Entry E)) : Exchange (requests Ω H E) :=
  ⟨.store (.load stream none), .ok entries⟩

/-! ## Attempts and what follows them -/

section
variable [Inhabited S] (p : Definition Ω H I S E R) (i : I) (stream : String) (event : E)

def proceed (g : Option StoreError → Task Ω H E α) : Task Ω H E α :=
  history stream fun entries => (react p i stream event entries).bind g

/-- The rest of an attempt that is to start the stream, once the sentinel has met a conflict or the initial
effect has ended. -/
def onward (g : Option StoreError → Task Ω H E α) : Option StoreError → Task Ω H E α
  | some e => g (some e)
  | none => proceed p i stream event g

theorem attempt_bind (g : Option StoreError → Task Ω H E α) :
    (attempt p i stream event).bind g =
      .call (.store (.contains stream)) fun (reply : Except StoreError Bool) =>
        match reply with
        | .error e => storeFault e
        | .ok true => proceed p i stream event g
        | .ok false =>
          (record stream .started 0 (conclude (p.run i default).1)).bind (onward p i stream event g) := by
  have hproceed : (history stream (react p i stream event)).bind g = proceed p i stream event g := by
    unfold history proceed history; rw [Effect.call_bind]
    congr 1; funext reply
    cases reply <;> rfl
  unfold attempt; rw [Effect.call_bind]
  congr 1; funext reply
  match reply with
  | .error e => rfl
  | .ok true => exact hproceed
  | .ok false =>
    dsimp only [begin, Bool.false_eq_true, ite_false]
    rw [Effect.bind_assoc]
    congr 1; funext conflict
    cases conflict with
    | some e => rfl
    | none => exact hproceed

theorem start_eq : ∃ g, start p i stream = (record stream .started 0 (conclude (p.run i default).1)).bind g ∧
    g none = .unit ∧ ∀ e, g (some e) = storeFault e :=
  ⟨_, rfl, rfl, fun _ => rfl⟩

theorem react_of_ignored {entries : List (Entry E)} {node : Node (requests Ω H E) Failure S E R}
    (hr : p.replay i entries = .ok node) (ho : node.offer event = none) :
    react p i stream event entries = .pure none := by
  unfold react; simp only [hr, ho]

theorem react_of_offer {entries : List (Entry E)} {node : Node (requests Ω H E) Failure S E R}
    {step : Step (requests Ω H E) Failure S E R} (hr : p.replay i entries = .ok node)
    (ho : node.offer event = some step) :
    react p i stream event entries =
      record stream (.received event) entries.length (conclude step.1) := by
  unfold react; simp only [hr, ho]

end

end Workflow.Delivery

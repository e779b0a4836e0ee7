import Workflow.Proofs.Delivery.Interp
import Workflow.Proofs.Delivery.Sequential
import Workflow.Proofs.Delivery.Standing

/-!
# What is recorded comes before what is run

To see which effects a delivery runs, each effect of the process is taken for one act that is answered by how
it ended. A delivery with its effects taken so is still the same delivery (`expand_deliver`), and its exchanges
say when it runs what. Main statement: `records_first`, whatever the store answers.
-/

namespace Workflow.Delivery

universe u v

variable {Ω : Signature} {H I S E R : Type} {α : Type u} {β : Type v}

/-! ## Whole effects -/

abbrev wholes (Ω : Signature) (H E : Type) : Signature where
  Op := Task Ω H E Unit
  Answer _ := Except Failure Unit

def whole (fx : Task Ω H E Unit) : Task (wholes Ω H E) H E Unit :=
  .call (.act fx) .ofExcept

def perform : (op : Request (wholes Ω H E) H E) → Task Ω H E ((requests (wholes Ω H E) H E).Answer op)
  | .act fx => Effect.settled fx
  | .store call => .call (.store call) .pure
  | .mediator => .call .mediator .pure
  | .nestedTooDeep => .call .nestedTooDeep .pure

def expand (e : Task (wholes Ω H E) H E α) : Task Ω H E α :=
  Effect.interp perform e

theorem expand_whole (fx : Task Ω H E Unit) : expand (whole fx) = fx := by
  have hanswer (x : Except Failure Unit) :
      expand (.ofExcept x : Task (wholes Ω H E) H E Unit) = Effect.ofExcept x := by
    cases x <;> rfl
  show (Effect.settled fx).bind (fun x => expand (.ofExcept x)) = fx
  simp only [hanswer]
  exact Effect.settled_bind fx

theorem perform_passesOn : PassesOn (perform : (op : Request (wholes Ω H E) H E) → Task Ω H E _) :=
  fun _ => rfl

/-! ## The same delivery -/

section
variable [Inhabited S] (p : Definition Ω H I S E R) (i : I) (stream : String) (event : E)

/-- The process with each of its effects taken for one act. -/
def ofWholes : Definition (wholes Ω H E) H I S E R :=
  p.relabel whole

omit [Inhabited S] in
theorem relabel_ofWholes : (ofWholes p).relabel expand = p := by
  unfold ofWholes
  rw [Process.relabel_relabel]
  simp only [expand_whole]
  exact p.relabel_id

theorem expand_deliver (policy : PacedPolicy) :
    expand (deliver policy (ofWholes p) i stream event) = deliver policy p i stream event := by
  have hinterp := interp_deliver perform_passesOn (ofWholes p) i stream event policy
  exact hinterp.trans (congrArg (deliver policy · i stream event) (relabel_ofWholes p))

end

/-! ## Exchanges with whole effects -/

theorem act_of_whole {fx : Task Ω H E Unit} {v : List (Exchange (requests (wholes Ω H E) H E))}
    {r : Task (wholes Ω H E) H E Unit} (h : (whole fx).Leads v r) :
    (v = [] ∧ r = whole fx) ∨ ∃ x, v = [⟨.act fx, x⟩] ∧ r = .ofExcept x := by
  induction h with
  | nil => exact .inl ⟨rfl, rfl⟩
  | call _ x ih =>
    rcases ih with ⟨rfl, hr⟩ | ⟨y, rfl, hr⟩
    · cases hr
      exact .inr ⟨x, rfl, rfl⟩
    · cases y <;> cases hr
  | pause _ ih =>
    rcases ih with ⟨rfl, hr⟩ | ⟨y, rfl, hr⟩
    · cases hr
    · cases y <;> cases hr

theorem call_of_whole {fx : Task Ω H E Unit} {v : List (Exchange (requests (wholes Ω H E) H E))} {op next}
    (h : (whole fx).Leads v (.call op next)) : v = [] ∧ Effect.call op next = whole fx := by
  rcases act_of_whole h with hcall | ⟨x, -, hr⟩
  · exact hcall
  · cases x <;> cases hr

/-- The delivery lost a race: an append of its own met a conflict. -/
def lostRace : StoreCall (Entry E) → StoreError → Bool
  | .append _ _ _, e => e.isConcurrency
  | _, _ => false

/-- The error that an exchange ends a delivery with. -/
def fault? : Exchange (requests (wholes Ω H E) H E) → Option Failure
  | ⟨.act _, x⟩ =>
    match (x : Except Failure Unit) with
    | .ok _ => none
    | .error err => some err
  | ⟨.store call, reply⟩ =>
    match (reply : call.Reply) with
    | .ok _ => none
    | .error e => if lostRace call e then none else some (.delivery (.store e))
  | _ => none

theorem settle_of_fault {stream : String} {entries : List (Entry E)} {expected : Nat} {reply : Except StoreError Nat}
    {err : Failure} (h : fault? (Ω := Ω) (H := H) ⟨.store (.append stream entries expected), reply⟩ = some err)
    (next : Task (wholes Ω H E) H E (Option StoreError)) (g : Option StoreError → Task (wholes Ω H E) H E Unit) :
    settle next g reply = .fail err := by
  cases reply with
  | ok version => cases h
  | error e =>
    obtain ⟨hlost, herr⟩ := Option.ite_none_left_eq_some.mp h
    cases herr
    exact if_neg hlost

section
variable [Inhabited S] {policy : PacedPolicy} {p : Definition Ω H I S E R} {i : I} {stream : String} {event : E}

theorem transition_ofWholes {loaded : List (Entry E)} {taken : Task (wholes Ω H E) H E Unit}
    (h : (ofWholes p).Transition i loaded event taken) : ∃ fx, taken = whole fx ∧ p.Transition i loaded event fx :=
  Process.Transition.of_relabel whole h

theorem Pending.fault {t op next x err} (h : Pending policy (ofWholes p) i stream event t op next)
    (hx : fault? ⟨op, x⟩ = some err) : next x = .fail err := by
  cases h with
  | looking =>
    match x, hx with
    | .error e, hx => cases hx; rfl
    | .ok _, hx => cases hx
  | starting => exact settle_of_fault hx _ _
  | opening hv =>
    obtain ⟨-, hcall⟩ := call_of_whole hv
    cases hcall
    match x, hx with
    | .error e, hx => cases hx; rfl
    | .ok _, hx => cases hx
  | reading ho =>
    match x, hx with
    | .error e, hx => cases hx; rfl
    | .ok _, hx => cases hx
  | recording ho h => exact settle_of_fault hx _ _
  | running h hv =>
    obtain ⟨fx, rfl, -⟩ := transition_ofWholes h
    obtain ⟨-, hcall⟩ := call_of_whole hv
    cases hcall
    match x, hx with
    | .error e, hx => cases hx; rfl
    | .ok _, hx => cases hx

theorem Pending.act {t fx next} (h : Pending policy (ofWholes p) i stream event t (.act fx) next) :
    (fx = (p.run i default).1 ∧
      ∃ t₀ version, t = t₀ ++ [Delivery.looking stream false, writing stream .started 0 version]) ∨
    ∃ t₀ loaded version, p.Transition i loaded event fx ∧
      t = t₀ ++ [Delivery.reading stream loaded, writing stream (.received event) loaded.length version] ∧
      ∀ x, next x = .ofExcept x := by
  cases h with
  | opening hv =>
    obtain ⟨rfl, hcall⟩ := call_of_whole hv
    cases hcall
    exact .inl ⟨rfl, _, _, rfl⟩
  | running h hv =>
    obtain ⟨fx, rfl, htransition⟩ := transition_ofWholes h
    obtain ⟨rfl, hcall⟩ := call_of_whole hv
    cases hcall
    exact .inr ⟨_, _, _, htransition, rfl, fun _ => rfl⟩

/-! ## Records before runs -/

/-- What the exchanges `t` of a delivery show, and what is left of it. -/
structure RecordsFirst (p : Definition Ω H I S E R) (i : I) (stream : String) (event : E)
    (t : List (Exchange (requests (wholes Ω H E) H E))) (r : Task (wholes Ω H E) H E Unit) : Prop where
  /-- An effect that is run is the initial one, right after the sentinel was recorded, or that of the transition
  which the event makes after the loaded history, right after the event was recorded at the end of that. The
  delivery asks nothing more after the latter. -/
  runs {t₁ fx x t₂} : t = t₁ ++ ⟨.act fx, x⟩ :: t₂ →
    (fx = (p.run i default).1 ∧
      ∃ t₀ version, t₁ = t₀ ++ [looking stream false, writing stream .started 0 version]) ∨
    (t₂ = [] ∧ ∃ t₀ loaded version, p.Transition i loaded event fx ∧
      t₁ = t₀ ++ [reading stream loaded, writing stream (.received event) loaded.length version])
  fault {t₁ x t₂ err} : t = t₁ ++ x :: t₂ → fault? x = some err → t₂ = [] ∧ r = .fail err

/-- Whatever a delivery is answered, it runs an effect only right after it has recorded the cause of it, and
nothing after an error. -/
theorem records_first (policy : PacedPolicy) (p : Definition Ω H I S E R) (i : I) (stream : String) (event : E) :
    expand (deliver policy (ofWholes p) i stream event) = deliver policy p i stream event ∧
    ∀ t r, (deliver policy (ofWholes p) i stream event).Leads t r → RecordsFirst p i stream event t r := by
  refine ⟨expand_deliver p i stream event policy, fun t r h => ⟨?_, ?_⟩⟩
  · rintro t₁ fx x t₂ rfl
    obtain ⟨next, pending, after⟩ := pending_of_leads h
    rcases pending.act with hopening | ⟨t₀, loaded, version, htransition, ht, hnext⟩
    · exact .inl hopening
    · refine .inr ⟨?_, t₀, loaded, version, htransition, ht⟩
      -- nothing of the delivery is left but the answer of the effect
      rw [hnext] at after
      cases x with
      | ok _ => exact after.of_pure.1
      | error err => exact after.of_fail.1
  · rintro t₁ x t₂ err rfl hx
    obtain ⟨next, pending, after⟩ := pending_of_leads h
    rw [pending.fault hx] at after
    exact after.of_fail

end

def spoiled : List (Exchange (requests (wholes ⟨String, fun _ => Unit⟩ Empty Nat) Empty Nat)) :=
  [looking "t" false, writing "t" .started 0 1, ⟨.act (Task.act "opened"), .ok ()⟩, reading "t" [.started],
    writing "t" (.received 2) 1 2, ⟨.act (Task.act "counted"), .error (.failed "spoiled")⟩]

theorem records_first_spoiled :
    (deliver RetryPolicy.never.punctual (ofWholes tally) () "t" 2).Leads spoiled (.fail (.failed "spoiled")) ∧
    RecordsFirst tally () "t" 2 spoiled (.fail (.failed "spoiled")) := by
  have looked :=
    Effect.Leads.call (e := deliver RetryPolicy.never.punctual (ofWholes tally) () "t" 2) .nil (Except.ok false)
  have started := Effect.Leads.call looked (Except.ok 1)
  have opened := Effect.Leads.call started (Except.ok ())
  have loaded := Effect.Leads.call opened (Except.ok [Entry.started])
  have received := Effect.Leads.call loaded (Except.ok 2)
  have leads := Effect.Leads.call received (Except.error (Failure.failed "spoiled"))
  exact ⟨leads, (records_first RetryPolicy.never.punctual tally () "t" 2).2 _ _ leads⟩

end Workflow.Delivery

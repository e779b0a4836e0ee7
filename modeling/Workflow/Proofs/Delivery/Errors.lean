import Workflow.Proofs.Delivery.Persistence
import Workflow.Proofs.Delivery.Retrying

/-!
# Where errors come from

A call fails at the first fault of the store, at a history that cannot be replayed, when it gives up, or with
the error of an effect that it has run. Main statement: `errors_classified`, by which each error says which of these it
was, and what is in the store then.
-/

namespace Workflow.Delivery

universe u

variable {Ω : Signature} {H I S E R : Type} {α : Type u}

/-! ## Runs with whole effects -/

section
variable {W : Type} (host : Host (requests Ω H E) W)

/-- A whole effect is answered by how it ends when the host runs it. -/
def wholeHost : Host (requests (wholes Ω H E) H E) W where
  answer
    | .act fx, w =>
      match fx.run host w with
      | (.done (), w') => some (.ok (), w')
      | (.failed err, w') => some (.error err, w')
      | (.stopped, _) => none
    | .store call, w => host.answer (.store call) w
    | .mediator, w => host.answer .mediator w
    | .nestedTooDeep, w => host.answer .nestedTooDeep w
  wait := host.wait

theorem run_settled (e : Task Ω H E Unit) (w : W) :
    (Effect.settled e).run host w =
      match e.run host w with
      | (.done a, w') => (.done (.ok a), w')
      | (.failed err, w') => (.done (.error err), w')
      | (.stopped, w') => (.stopped, w') := by
  unfold Effect.settled
  rw [Effect.run_recover, Effect.map_eq_bind, Effect.run_bind]
  obtain ⟨outcome, w'⟩ := e.run host w
  cases outcome <;> rfl

theorem run_perform (op : Request (wholes Ω H E) H E) (w : W) :
    (∃ x w', (perform op).run host w = (.done x, w') ∧ (wholeHost host).answer op w = some (x, w')) ∨
      ∃ w', (perform op).run host w = (.stopped, w') := by
  -- an effect that is run for its answer does not fail
  cases op with
  | act fx =>
    have hsettled : (perform (.act fx)).run host w = _ := run_settled host fx w
    rw [hsettled]
    unfold wholeHost
    dsimp only
    obtain ⟨outcome, w'⟩ := fx.run host w
    cases outcome with
    | done a => exact .inl ⟨_, _, rfl, rfl⟩
    | failed err => exact .inl ⟨_, _, rfl, rfl⟩
    | stopped => exact .inr ⟨_, rfl⟩
  | _ =>
    rw [perform, Effect.run_call]
    unfold wholeHost
    dsimp only
    cases host.answer _ w with
    | none => exact .inr ⟨_, rfl⟩
    | some answered => exact .inl ⟨_, _, rfl, rfl⟩

theorem run_expand {e : Task (wholes Ω H E) H E α} {w w' : W} {err : Failure}
    (h : (expand e).run host w = (.failed err, w')) : e.run (wholeHost host) w = (.failed err, w') := by
  induction e generalizing w with
  | pure a => exact h
  | fail err => exact h
  | pause time next ih => exact ih h
  | call op next ih =>
    have hbind : expand (.call op next) = (perform op).bind fun x => expand (next x) := rfl
    rw [hbind, Effect.run_bind] at h
    rcases run_perform host op w with ⟨x, w₁, hrun, hanswer⟩ | ⟨w₁, hrun⟩
    · rw [hrun] at h
      rw [Effect.run_call_of_answer _ hanswer]
      exact ih x h
    · rw [hrun] at h
      cases h

end

/-! ## Causes -/

def running (fx : Task Ω H E Unit) (x : Except Failure Unit) : Exchange (requests (wholes Ω H E) H E) :=
  ⟨.act fx, x⟩

section
variable [Inhabited S] (policy : PacedPolicy) (p : Definition Ω H I S E R) (i : I) (stream : String) (event : E)

/-- After these exchanges a delivery has failed with this error: the store has a fault other than a lost race,
the history cannot be replayed, or the effect that was run last has failed. -/
inductive Breach : List (Exchange (requests (wholes Ω H E) H E)) → Failure → Prop
  | unseen {t e} : Breach (t ++ [unseen stream e]) (.delivery (.store e))
  | unread {t e} : Breach (t ++ [unloadable stream e]) (.delivery (.store e))
  | unwritten {t entry expected e} (he : ¬ e.isConcurrency) :
      Breach (t ++ [refusing stream entry expected e]) (.delivery (.store e))
  | invalid {t loaded flaw} (hr : p.replay i loaded = .error flaw) :
      Breach (t ++ [reading stream loaded]) (.delivery (.invalidHistory flaw))
  | opening {t version err} : Breach (t ++ [looking stream false, writing stream .started 0 version,
      running (p.run i default).1 (.error err)]) err
  | step {t loaded version fx err} (h : p.Transition i loaded event fx) : Breach (t ++ [reading stream loaded,
      writing stream (.received event) loaded.length version, running fx (.error err)]) err

/-- These are the exchanges of as many attempts as the policy allows, each of which has lost a race. -/
def Exhausted (t : List (Exchange (requests (wholes Ω H E) H E))) : Prop :=
  ∃ lost : List (List (Exchange (requests (wholes Ω H E) H E))), t = lost.flatten ∧
    lost.length = policy.maxAttempts + 1 ∧ ∀ a ∈ lost, Lost (ofWholes p) i stream event a

/-- What the exchanges `t` of a delivery say of its end, if `r` is left of it. -/
structure Classified (t : List (Exchange (requests (wholes Ω H E) H E))) (r : Task (wholes Ω H E) H E Unit) :
    Prop where
  breached {t₁ t₂ err} : t = t₁ ++ t₂ → Breach p i stream event t₁ err → t₂ = [] ∧ r = .fail err
  caused {err} : r = .fail err → Breach p i stream event t err ∨
    Exhausted policy p i stream event t ∧
      err = .delivery (.retriesExhausted stream (min (policy.maxAttempts + 1) RetryPolicy.countLimit))
  asked {call reply} : ⟨.store call, reply⟩ ∈ t →
    call = .contains stream ∨ call = .load stream none ∨ ∃ entry expected, call = .append stream [entry] expected
  /-- A delivery that has failed has recorded no more than the sentinel of a missing stream, before it ran the initial
  effect, and the event, if it is the effect of that which has failed. -/
  recorded {t₁ t₂ s entries expected version err} : r = .fail err →
    t = t₁ ++ ⟨.store (.append s entries expected), .ok version⟩ :: t₂ →
    (entries = [.started] ∧ expected = 0 ∧ (∃ t₀, t₁ = t₀ ++ [looking stream false]) ∧
      ∃ x t₃, t₂ = running (p.run i default).1 x :: t₃) ∨
    entries = [.received event] ∧ ∃ t₀ loaded fx, t₁ = t₀ ++ [reading stream loaded] ∧ expected = loaded.length ∧
      p.Transition i loaded event fx ∧ t₂ = [running fx (.error err)]

end

section
variable [Inhabited S] {policy : PacedPolicy} {p : Definition Ω H I S E R} {i : I} {stream : String} {event : E}
  {t t₁ t₂ : List (Exchange (requests (wholes Ω H E) H E))} {err : Failure}

theorem failed_of_whole {fx : Task Ω H E Unit} (h : (whole fx).Leads t (.fail err)) :
    t = [running fx (.error err)] := by
  rcases act_of_whole h with ⟨-, hr⟩ | ⟨x, rfl, hr⟩
  · cases hr
  · cases x with
    | ok _ => cases hr
    | error e => cases hr; rfl

/-! ## From a cause to the error -/

theorem failed_of_fault {x : Exchange (requests (wholes Ω H E) H E)} {r : Task (wholes Ω H E) H E Unit}
    (h : (deliver policy (ofWholes p) i stream event).Leads (t₁ ++ x :: t₂) r) (hx : fault? x = some err) :
    t₂ = [] ∧ r = .fail err := by
  obtain ⟨next, pending, after⟩ := pending_of_leads h
  rw [pending.fault hx] at after
  exact after.of_fail

theorem Pending.load {s : String} {loaded : List (Entry E)}
    {next : Except StoreError (List (Entry E)) → Task (wholes Ω H E) H E Unit}
    (h : Pending policy (ofWholes p) i stream event t (.store (.load s none)) next) :
    ∃ left retries, next (.ok loaded) =
      (react (ofWholes p) i stream event loaded).bind (following policy (ofWholes p) i stream event left retries) := by
  cases h with
  | opening hv => cases (call_of_whole hv).2
  | reading ho => exact ⟨_, _, rfl⟩
  | running h hv =>
    obtain ⟨fx, rfl, -⟩ := transition_ofWholes h
    cases (call_of_whole hv).2

theorem react_of_flaw {loaded : List (Entry E)} {flaw : HistoryFlaw} (h : p.replay i loaded = .error flaw) :
    react (ofWholes p) i stream event loaded = .fail (.delivery (.invalidHistory flaw)) := by
  have hreplay : (ofWholes p).replay i loaded = _ := p.replay_relabel whole i loaded
  rw [h] at hreplay
  unfold react
  simp only [hreplay]
  rfl

theorem failed_of_breach {r : Task (wholes Ω H E) H E Unit} (hbreach : Breach p i stream event t₁ err)
    (h : (deliver policy (ofWholes p) i stream event).Leads (t₁ ++ t₂) r) : t₂ = [] ∧ r = .fail err := by
  cases hbreach with
  | unseen => rw [List.append_assoc] at h; exact failed_of_fault h rfl
  | unread => rw [List.append_assoc] at h; exact failed_of_fault h rfl
  | unwritten he => rw [List.append_assoc] at h; exact failed_of_fault h (if_neg he)
  | invalid hr =>
    rw [List.append_assoc] at h
    obtain ⟨next, pending, after⟩ := pending_of_leads h
    obtain ⟨left, retries, hnext⟩ := pending.load
    dsimp only [reading] at after
    rw [hnext, react_of_flaw hr] at after
    exact after.of_fail
  | opening => rw [List.append_cons, List.append_cons, List.append_assoc] at h; exact failed_of_fault h rfl
  | step _ => rw [List.append_cons, List.append_cons, List.append_assoc] at h; exact failed_of_fault h rfl

/-! ## From the error to its cause -/

theorem Ending.breach (t₀ : List (Exchange (requests (wholes Ω H E) H E)))
    (h : Ending (ofWholes p) i stream event t (.fail err)) : Breach p i stream event (t₀ ++ t) err := by
  generalize hr : Effect.fail err = r at h
  cases h with
  | unseen => cases hr; exact .unseen
  | unstarted he => cases hr; rw [List.append_cons]; exact .unwritten he
  | unopened hv =>
    cases hr
    obtain rfl : _ = [running (p.run i default).1 (.error _)] := failed_of_whole hv
    exact .opening
  | unread _ => cases hr; rw [← List.append_assoc]; exact .unread
  | @invalid t loaded flaw _ hflaw =>
    cases hr
    have hreplay : (ofWholes p).replay i loaded = _ := p.replay_relabel whole i loaded
    rw [hflaw] at hreplay
    rw [← List.append_assoc]
    refine .invalid ?_
    cases hp : p.replay i loaded with
    | ok node => rw [hp] at hreplay; cases hreplay
    | error _ => rw [hp] at hreplay; cases hreplay; rfl
  | unrecorded _ _ he => cases hr; rw [← List.append_assoc, List.append_cons]; exact .unwritten he
  | failed _ h hv =>
    cases hr
    obtain ⟨fx, rfl, htransition⟩ := transition_ofWholes h
    obtain rfl := failed_of_whole hv
    rw [← List.append_assoc]
    exact .step htransition
  | _ => cases hr

theorem cause_of_failed (h : (deliver policy (ofWholes p) i stream event).Leads t (.fail err)) :
    Breach p i stream event t err ∨ Exhausted policy p i stream event t ∧
      err = .delivery (.retriesExhausted stream (min (policy.maxAttempts + 1) RetryPolicy.countLimit)) := by
  obtain ⟨lost, last, rest, accounted⟩ := leads_deliver_iff.mp h
  rcases accounted.failed with hending | ⟨hraces, hall, herr⟩
  · rw [accounted.exchanges]
    exact .inl (hending.breach _)
  · exact .inr ⟨⟨lost ++ [last], accounted.flatten.symm, by simp [hall], hraces⟩, herr⟩

/-! ## What is recorded -/

theorem Pending.store {call : StoreCall (Entry E)} {next : call.Reply → Task (wholes Ω H E) H E Unit}
    (h : Pending policy (ofWholes p) i stream event t (.store call) next) :
    call = .contains stream ∨ call = .load stream none ∨ ∃ entry expected, call = .append stream [entry] expected := by
  cases h with
  | looking => exact .inl rfl
  | starting => exact .inr (.inr ⟨_, _, rfl⟩)
  | opening hv => cases (call_of_whole hv).2
  | reading _ => exact .inr (.inl rfl)
  | recording _ _ => exact .inr (.inr ⟨_, _, rfl⟩)
  | running h hv =>
    obtain ⟨fx, rfl, -⟩ := transition_ofWholes h
    cases (call_of_whole hv).2

theorem recorded_of_failed {s : String} {entries : List (Entry E)} {expected version : Nat}
    (h : (deliver policy (ofWholes p) i stream event).Leads
      (t₁ ++ ⟨.store (.append s entries expected), .ok version⟩ :: t₂) (.fail err)) :
    (entries = [.started] ∧ expected = 0 ∧ (∃ t₀, t₁ = t₀ ++ [looking stream false]) ∧
      ∃ x t₃, t₂ = running (p.run i default).1 x :: t₃) ∨
    entries = [.received event] ∧ ∃ t₀ loaded fx, t₁ = t₀ ++ [reading stream loaded] ∧ expected = loaded.length ∧
      p.Transition i loaded event fx ∧ t₂ = [running fx (.error err)] := by
  obtain ⟨next, pending, after⟩ := pending_of_leads h
  dsimp only at pending after
  cases pending with
  | @starting t left retries =>
    have opening : ((whole (p.run i default).1).bind fun _ =>
        onward (ofWholes p) i stream event (following policy (ofWholes p) i stream event left retries) none).Leads t₂
          (.fail err) := by
      rw [← conclude_bind]
      exact after
    rcases opening.of_call with ⟨-, hr⟩ | ⟨x, t₃, rfl, -⟩
    · cases hr
    · exact .inl ⟨rfl, rfl, ⟨t, rfl⟩, x, t₃, rfl⟩
  | opening hv => cases (call_of_whole hv).2
  | @recording t loaded taken left retries ho h' =>
    obtain ⟨fx, rfl, htransition⟩ := transition_ofWholes h'
    have hnone := again_none policy stream (attempt (ofWholes p) i stream event) left retries
    have rest : (whole fx).Leads t₂ (.fail err) := by
      rw [← conclude_bind_of_unit (whole fx) hnone]
      exact after
    exact .inr ⟨rfl, t, loaded, fx, rfl, rfl, htransition, failed_of_whole rest⟩
  | running h' hv =>
    obtain ⟨fx, rfl, -⟩ := transition_ofWholes h'
    cases (call_of_whole hv).2

theorem classified_of_leads {r : Task (wholes Ω H E) H E Unit}
    (h : (deliver policy (ofWholes p) i stream event).Leads t r) : Classified policy p i stream event t r where
  breached := by
    rintro t₁ t₂ err rfl hbreach
    exact failed_of_breach hbreach h
  caused := by
    rintro err rfl
    exact cause_of_failed h
  asked := by
    intro call reply hmem
    obtain ⟨t₁, t₂, rfl⟩ := List.append_of_mem hmem
    obtain ⟨next, pending, -⟩ := pending_of_leads h
    exact pending.store
  recorded := by
    rintro t₁ t₂ s entries expected version err rfl rfl
    exact recorded_of_failed h

/-! ## The other calls -/

theorem expand_start : expand (start (ofWholes p) i stream) = start p i stream := by
  have hinterp := interp_start perform_passesOn (ofWholes p) i stream
  exact hinterp.trans (congrArg (start · i stream) (relabel_ofWholes p))

theorem leads_start_iff : (start (ofWholes p) i stream).Leads t (.fail err) ↔
    (∃ e, t = [refusing stream .started 0 e] ∧ err = .delivery (.store e)) ∨
      ∃ version, t = [writing stream .started 0 version, running (p.run i default).1 (.error err)] := by
  obtain ⟨g, hstart, hnone, hsome⟩ := start_eq (ofWholes p) i stream
  rw [hstart]
  constructor
  · intro h
    rcases leads_of_record h with ⟨-, hr⟩ | ⟨e, t, -, rfl, hlost⟩ | ⟨e, -, rfl, hr⟩ | ⟨version, t, rfl, hrun⟩
    · rw [record_bind_eq] at hr; cases hr
    · rw [hsome] at hlost
      obtain ⟨rfl, hr⟩ := hlost.of_fail
      cases hr
      exact .inl ⟨e, rfl, rfl⟩
    · cases hr
      exact .inl ⟨e, rfl, rfl⟩
    · rw [conclude_bind_of_unit _ hnone] at hrun
      have hfailed : t = [running (p.run i default).1 (.error err)] := failed_of_whole hrun
      exact .inr ⟨version, congrArg _ hfailed⟩
  · rintro (⟨e, rfl, rfl⟩ | ⟨version, rfl⟩)
    · have refused := leads_record stream .started 0 (conclude ((ofWholes p).run i default).1) g (.error e)
      by_cases he : e.isConcurrency
      · rw [settle_of_conflict he, hsome] at refused
        exact refused
      · rw [settle_of_not_conflict he] at refused
        exact refused
    · have recorded := leads_record stream .started 0 (conclude ((ofWholes p).run i default).1) g (.ok version)
      rw [show settle (conclude ((ofWholes p).run i default).1) g (.ok version) = whole (p.run i default).1 from
        conclude_bind_of_unit _ hnone] at recorded
      exact recorded.call (.error err)

end

theorem asks_inspect [Inhabited S] (p : Definition Ω H I S E R) (i : I) (stream : String) :
    (inspect p i stream).Asks (· = Request.store (.load stream none)) := by
  refine ⟨rfl, fun reply => ?_⟩
  match reply with
  | .error e => trivial
  | .ok loaded =>
    dsimp only
    split
    · trivial
    · split <;> trivial

theorem asks_clear (stream : String) : (clear stream : Task Ω H E Unit).Asks (· = Request.store (.delete stream)) := by
  refine ⟨rfl, fun reply => ?_⟩
  match reply with
  | .error e => trivial
  | .ok _ => trivial

section
variable {stream : String} {err : Failure}

theorem leads_inspect_iff [Inhabited S] {p : Definition Ω H I S E R} {i : I}
    {t : List (Exchange (requests Ω H E))} : (inspect p i stream).Leads t (.fail err) ↔
      (∃ e, t = [unloadable stream e] ∧ err = .delivery (.store e)) ∨
        ∃ loaded flaw, t = [reading stream loaded] ∧ loaded ≠ [] ∧ p.replay i loaded = .error flaw ∧
          err = .delivery (.invalidHistory flaw) := by
  constructor
  · intro h
    rcases leads_of_history h with ⟨-, hr⟩ | ⟨e, rfl, hr⟩ | ⟨loaded, t, rfl, hnext⟩
    · cases hr
    · cases hr
      exact .inl ⟨e, rfl, rfl⟩
    · cases loaded with
      | nil => cases hnext.of_pure.2
      | cons first rest =>
        cases hreplay : p.replay i (first :: rest) with
        | ok node =>
          simp only [List.isEmpty_cons, Bool.false_eq_true, if_false, hreplay] at hnext
          cases hnext.of_pure.2
        | error flaw =>
          simp only [List.isEmpty_cons, Bool.false_eq_true, if_false, hreplay] at hnext
          obtain ⟨rfl, hr⟩ := hnext.of_fail
          cases hr
          exact .inr ⟨_, flaw, rfl, List.cons_ne_nil _ _, hreplay, rfl⟩
  · rintro (⟨e, rfl, rfl⟩ | ⟨loaded, flaw, rfl, hne, hreplay, rfl⟩)
    · exact Effect.Leads.call (e := inspect p i stream) .nil (Except.error e)
    · obtain ⟨first, rest, rfl⟩ := List.exists_cons_of_ne_nil hne
      have replayed := Effect.Leads.call (e := inspect p i stream) .nil (Except.ok (first :: rest))
      simp only [List.isEmpty_cons, Bool.false_eq_true, if_false, hreplay] at replayed
      exact replayed

theorem leads_clear_iff {t : List (Exchange (requests Ω H E))} : (clear stream).Leads t (.fail err) ↔
    ∃ e, t = [⟨.store (.delete stream), .error e⟩] ∧ err = .delivery (.store e) := by
  constructor
  · intro h
    rcases h.of_call with ⟨-, hr⟩ | ⟨reply, t, rfl, hnext⟩
    · cases hr
    · match reply, hnext with
      | .ok _, hnext => cases hnext.of_pure.2
      | .error e, hnext =>
        obtain ⟨rfl, hr⟩ := hnext.of_fail
        cases hr
        exact ⟨e, rfl, rfl⟩
  · rintro ⟨e, rfl, rfl⟩
    exact Effect.Leads.call (e := clear stream) .nil (Except.error e)

end

/-- Which error a call ends with, whatever it is answered, and what it has recorded then: of a delivery, of a start,
of the look at an instance and of its removal. A run of a delivery or a start that fails has such exchanges. -/
theorem errors_classified [Inhabited S] (policy : PacedPolicy) (p : Definition Ω H I S E R) (i : I) (stream : String)
    (event : E) :
    (expand (deliver policy (ofWholes p) i stream event) = deliver policy p i stream event ∧
      ∀ t r, (deliver policy (ofWholes p) i stream event).Leads t r → Classified policy p i stream event t r) ∧
    (∀ loaded, (∃ flaw, p.replay i loaded = .error flaw) ↔ ∀ events, loaded ≠ Entry.history (some events)) ∧
    (expand (start (ofWholes p) i stream) = start p i stream ∧
      ∀ t err, (start (ofWholes p) i stream).Leads t (.fail err) ↔
        (∃ e, t = [refusing stream .started 0 e] ∧ err = .delivery (.store e)) ∨
          ∃ version, t = [writing stream .started 0 version, running (p.run i default).1 (.error err)]) ∧
    ((inspect p i stream).Asks (· = Request.store (.load stream none)) ∧
      ∀ t err, (inspect p i stream).Leads t (.fail err) ↔
        (∃ e, t = [unloadable stream e] ∧ err = .delivery (.store e)) ∨
          ∃ loaded flaw, t = [reading stream loaded] ∧ loaded ≠ [] ∧ p.replay i loaded = .error flaw ∧
            err = .delivery (.invalidHistory flaw)) ∧
    ((clear stream : Task Ω H E Unit).Asks (· = Request.store (.delete stream)) ∧
      ∀ t err, (clear stream : Task Ω H E Unit).Leads t (.fail err) ↔
        ∃ e, t = [⟨.store (.delete stream), .error e⟩] ∧ err = .delivery (.store e)) ∧
    ∀ (W : Type) (host : Host (requests Ω H E) W) (w w' : W) (err : Failure),
      ((deliver policy p i stream event).run host w = (.failed err, w') →
        (deliver policy (ofWholes p) i stream event).Leads
          ((deliver policy (ofWholes p) i stream event).transcript (wholeHost host) w) (.fail err)) ∧
      ((start p i stream).run host w = (.failed err, w') →
        (start (ofWholes p) i stream).Leads ((start (ofWholes p) i stream).transcript (wholeHost host) w)
          (.fail err)) := by
  refine ⟨⟨expand_deliver p i stream event policy, fun t r h => classified_of_leads h⟩, p.flaw_iff i,
    ⟨expand_start, fun t err => leads_start_iff⟩, ⟨asks_inspect p i stream, fun t err => leads_inspect_iff⟩,
    ⟨asks_clear stream, fun t err => leads_clear_iff⟩, fun W host w w' err => ⟨fun h => ?_, fun h => ?_⟩⟩
  · rw [← expand_deliver p i stream event policy] at h
    exact Effect.leads_of_run _ (run_expand host h)
  · rw [← expand_start] at h
    exact Effect.leads_of_run _ (run_expand host h)

def meddling : Definition ⟨String, fun _ => Unit⟩ Empty Unit Nat Nat Unit where
  run _ s := (Task.act "opened", ⟨Nat, s, fun total =>
    .inProgress total fun n => some ((Task.store (.append "u" [.started] 7)).discard, total + n)⟩)

/-- A lost race of an effect is no lost race of the delivery. -/
theorem errors_classified_meddling :
    let failure := Failure.store (.concurrency "u" 7 0)
    let w := ((deliver RetryPolicy.standard.punctual meddling () "t" 2).run noting.host ([], .empty)).2
    (deliver RetryPolicy.standard.punctual meddling () "t" 2).run noting.host ([], .empty) = (.failed failure, w) ∧
    w.2.entries "t" = [.started, .received 2] ∧
    Breach meddling () "t" 2
      ((deliver RetryPolicy.standard.punctual (ofWholes meddling) () "t" 2).transcript (wholeHost noting.host)
        ([], .empty)) failure := by
  intro failure w
  have hrun : (deliver RetryPolicy.standard.punctual meddling () "t" 2).run noting.host ([], .empty) =
      (.failed failure, w) := rfl
  refine ⟨hrun, rfl, ?_⟩
  obtain ⟨⟨-, classified⟩, -, -, -, -, runs⟩ := errors_classified RetryPolicy.standard.punctual meddling () "t" 2
  rcases (classified _ _ ((runs _ noting.host _ _ _).1 hrun)).caused rfl with hbreach | ⟨-, hother⟩
  · exact hbreach
  · exact nomatch (hother : Failure.store _ = .delivery _)

end Workflow.Delivery

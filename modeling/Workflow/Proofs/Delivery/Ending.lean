import Workflow.Proofs.Delivery.Attempt
import Workflow.Proofs.History

/-!
# How an attempt ends

All the ways in which an attempt may come to its end, each with everything it has exchanged until then. Main
statement: `ending_iff`, by which there are no others, whatever the attempt was answered.
-/

namespace Workflow

universe u

inductive Effect.IsOver {σ : Signature} {ε : Type} {α : Type u} : Effect σ ε α → Prop
  | pure (a : α) : IsOver (.pure a)
  | fail (err : ε) : IsOver (.fail err)

namespace Delivery

variable {Ω : Signature} {H I S E R : Type}

def refusing (stream : String) (entry : Entry E) (expected : Nat) (e : StoreError) : Exchange (requests Ω H E) :=
  ⟨.store (.append stream [entry] expected), .error e⟩

def unloadable (stream : String) (e : StoreError) : Exchange (requests Ω H E) :=
  ⟨.store (.load stream none), .error e⟩

def unseen (stream : String) (e : StoreError) : Exchange (requests Ω H E) :=
  ⟨.store (.contains stream), .error e⟩

/-! ## Walks through the parts of an attempt -/

section
variable {α : Type u} {stream : String} {t : List (Exchange (requests Ω H E))} {r : Task Ω H E α}

theorem leads_of_history {next : List (Entry E) → Task Ω H E α} (h : (history stream next).Leads t r) :
    (t = [] ∧ r = history stream next) ∨ (∃ e, t = [unloadable stream e] ∧ r = storeFault e) ∨
      ∃ loaded t', t = reading stream loaded :: t' ∧ (next loaded).Leads t' r := by
  rcases h.of_call with hnil | ⟨reply, t', rfl, hnext⟩
  · exact .inl hnil
  clear h
  match reply, hnext with
  | .error e, hnext =>
    obtain ⟨rfl, rfl⟩ := hnext.of_fail
    exact .inr (.inl ⟨e, rfl, rfl⟩)
  | .ok loaded, hnext => exact .inr (.inr ⟨loaded, t', rfl, hnext⟩)

theorem leads_of_record {entry : Entry E} {expected : Nat} {next : Task Ω H E (Option StoreError)}
    {g : Option StoreError → Task Ω H E α} (h : ((record stream entry expected next).bind g).Leads t r) :
    (t = [] ∧ r = (record stream entry expected next).bind g) ∨
      (∃ e t', e.isConcurrency ∧ t = refusing stream entry expected e :: t' ∧ (g (some e)).Leads t' r) ∨
      (∃ e, ¬ e.isConcurrency ∧ t = [refusing stream entry expected e] ∧ r = storeFault e) ∨
      ∃ version t', t = writing stream entry expected version :: t' ∧ (next.bind g).Leads t' r := by
  rw [record_bind_eq] at h ⊢
  rcases h.of_call with hnil | ⟨reply, t', rfl, hnext⟩
  · exact .inl hnil
  clear h
  match reply, hnext with
  | .error e, hnext =>
    by_cases he : e.isConcurrency
    · rw [settle_of_conflict he] at hnext
      exact .inr (.inl ⟨e, t', he, rfl, hnext⟩)
    · rw [settle_of_not_conflict he] at hnext
      obtain ⟨rfl, rfl⟩ := hnext.of_fail
      exact .inr (.inr (.inl ⟨e, he, rfl, rfl⟩))
  | .ok version, hnext => exact .inr (.inr (.inr ⟨version, t', rfl, hnext⟩))

end

theorem leads_record {α : Type u} (stream : String) (entry : Entry E) (expected : Nat)
    (next : Task Ω H E (Option StoreError)) (g : Option StoreError → Task Ω H E α) (reply : Except StoreError Nat) :
    ((record stream entry expected next).bind g).Leads [⟨.store (.append stream [entry] expected), reply⟩]
      (settle next g reply) := by
  rw [record_bind_eq]
  exact .first _

/-! ## The ends -/

section
variable [Inhabited S] (p : Definition Ω H I S E R) (i : I) (stream : String) (event : E)

/-- What an attempt exchanges until its stream is there: it finds it, or starts it and runs the initial effect
to the end. -/
inductive Opening : List (Exchange (requests Ω H E)) → Prop
  | found : Opening [looking stream true]
  | begun {version v} (hv : (p.run i default).1.Leads v .unit) :
      Opening (looking stream false :: writing stream .started 0 version :: v)

inductive Ending : List (Exchange (requests Ω H E)) → Task Ω H E (Option StoreError) → Prop
  | unseen {e} : Ending [Delivery.unseen stream e] (storeFault e)
  | taken {e} (he : e.isConcurrency) : Ending [looking stream false, refusing stream .started 0 e] (.pure (some e))
  | unstarted {e} (he : ¬ e.isConcurrency) :
      Ending [looking stream false, refusing stream .started 0 e] (storeFault e)
  | unopened {version v err} (hv : (p.run i default).1.Leads v (.fail err)) :
      Ending (looking stream false :: writing stream .started 0 version :: v) (.fail err)
  | unread {t e} (ho : Opening p i stream t) : Ending (t ++ [unloadable stream e]) (storeFault e)
  | invalid {t loaded flaw} (ho : Opening p i stream t) (hr : p.replay i loaded = .error flaw) :
      Ending (t ++ [reading stream loaded]) (.fail (.delivery (.invalidHistory flaw)))
  | ignored {t loaded node} (ho : Opening p i stream t) (hr : p.replay i loaded = .ok node)
      (hn : node.offer event = none) : Ending (t ++ [reading stream loaded]) (.pure none)
  | overtaken {t loaded fx e} (ho : Opening p i stream t) (h : p.Transition i loaded event fx)
      (he : e.isConcurrency) :
      Ending (t ++ [reading stream loaded, refusing stream (.received event) loaded.length e]) (.pure (some e))
  | unrecorded {t loaded fx e} (ho : Opening p i stream t) (h : p.Transition i loaded event fx)
      (he : ¬ e.isConcurrency) :
      Ending (t ++ [reading stream loaded, refusing stream (.received event) loaded.length e]) (storeFault e)
  | done {t loaded version v fx} (ho : Opening p i stream t) (h : p.Transition i loaded event fx)
      (hv : fx.Leads v .unit) :
      Ending (t ++ reading stream loaded :: writing stream (.received event) loaded.length version :: v) (.pure none)
  | failed {t loaded version v fx err} (ho : Opening p i stream t) (h : p.Transition i loaded event fx)
      (hv : fx.Leads v (.fail err)) :
      Ending (t ++ reading stream loaded :: writing stream (.received event) loaded.length version :: v) (.fail err)

/-! ## From the stream on -/

theorem attempt_eq : attempt p i stream event =
    .call (.store (.contains stream)) fun (reply : Except StoreError Bool) =>
      match reply with
      | .error e => storeFault e
      | .ok true => proceed p i stream event .pure
      | .ok false =>
        (record stream .started 0 (conclude (p.run i default).1)).bind (onward p i stream event .pure) := by
  have heq := attempt_bind p i stream event .pure
  rw [Effect.bind_pure] at heq
  exact heq

theorem leads_found : (attempt p i stream event).Leads [looking stream true] (proceed p i stream event .pure) := by
  rw [attempt_eq]
  exact .first _

theorem leads_missing : (attempt p i stream event).Leads [looking stream false]
    ((record stream .started 0 (conclude (p.run i default).1)).bind (onward p i stream event .pure)) := by
  rw [attempt_eq]
  exact .first _

theorem leads_starting (reply : Except StoreError Nat) :
    (attempt p i stream event).Leads [looking stream false, ⟨.store (.append stream [.started] 0), reply⟩]
      (settle (conclude (p.run i default).1) (onward p i stream event .pure) reply) :=
  (leads_missing p i stream event).trans (leads_record ..)

end

section
variable [Inhabited S] {p : Definition Ω H I S E R} {i : I} {stream : String} {event : E}
  {t : List (Exchange (requests Ω H E))} {r : Task Ω H E (Option StoreError)}

theorem react_of_transition {loaded : List (Entry E)} {fx : Task Ω H E Unit} (h : p.Transition i loaded event fx) :
    (react p i stream event loaded).bind .pure =
      .call (.store (.append stream [.received event] loaded.length)) (settle (conclude fx) .pure) := by
  obtain ⟨node, next, hr, ho⟩ := h
  rw [react_of_offer p i stream event hr ho, record_bind_eq]

theorem leads_opening (version : Nat) {v : List (Exchange (requests Ω H E))} {rest : Task Ω H E Unit}
    (hv : (p.run i default).1.Leads v rest) :
    (attempt p i stream event).Leads (looking stream false :: writing stream .started 0 version :: v)
      (rest.bind fun _ => proceed p i stream event .pure) := by
  have opening : ((conclude (p.run i default).1).bind (onward p i stream event .pure)).Leads v
      (rest.bind fun _ => proceed p i stream event .pure) := by
    rw [conclude_bind]
    exact hv.bind _
  exact (leads_starting p i stream event (.ok version)).trans opening

theorem Opening.leads (h : Opening p i stream t) :
    (attempt p i stream event).Leads t (proceed p i stream event .pure) := by
  cases h with
  | found => exact leads_found ..
  | begun hv => exact leads_opening _ hv

theorem Opening.leads_reading (h : Opening p i stream t) (event : E) (loaded : List (Entry E)) :
    (attempt p i stream event).Leads (t ++ [reading stream loaded]) ((react p i stream event loaded).bind .pure) :=
  h.leads.call (Except.ok loaded)

theorem Opening.leads_recording (ho : Opening p i stream t) {loaded : List (Entry E)} {fx : Task Ω H E Unit}
    (h : p.Transition i loaded event fx) (reply : Except StoreError Nat) :
    (attempt p i stream event).Leads
      (t ++ [reading stream loaded, ⟨.store (.append stream [.received event] loaded.length), reply⟩])
      (settle (conclude fx) .pure reply) := by
  have loading := ho.leads_reading event loaded
  rw [react_of_transition h] at loading
  have answered := loading.call reply
  rw [List.append_assoc] at answered
  exact answered

theorem Opening.leads_running (ho : Opening p i stream t) {loaded : List (Entry E)} {fx rest : Task Ω H E Unit}
    (h : p.Transition i loaded event fx) (version : Nat) {v : List (Exchange (requests Ω H E))} (hv : fx.Leads v rest) :
    (attempt p i stream event).Leads
      (t ++ reading stream loaded :: writing stream (.received event) loaded.length version :: v)
      (rest.bind fun _ => .pure none) := by
  have running : ((conclude fx).bind .pure).Leads v (rest.bind fun _ => .pure none) := by
    rw [conclude_bind]
    exact hv.bind _
  have recorded := (ho.leads_recording h (.ok version)).trans running
  rw [List.append_assoc] at recorded
  exact recorded

/-! ## All the ways -/

theorem Ending.leads (h : Ending p i stream event t r) : (attempt p i stream event).Leads t r := by
  cases h with
  | unseen =>
    rw [attempt_eq]
    exact .first _
  | @taken e he =>
    have refused := leads_starting p i stream event (.error e)
    rw [settle_of_conflict he] at refused
    exact refused
  | @unstarted e he =>
    have refused := leads_starting p i stream event (.error e)
    rw [settle_of_not_conflict he] at refused
    exact refused
  | unopened hv => exact leads_opening _ hv
  | unread ho => exact ho.leads.call _
  | @invalid t loaded flaw ho hr =>
    have loading := ho.leads_reading event loaded
    unfold react at loading
    simp only [hr] at loading
    exact loading
  | @ignored t loaded node ho hr hn =>
    have loading := ho.leads_reading event loaded
    rw [react_of_ignored p i stream event hr hn] at loading
    exact loading
  | @overtaken t loaded fx e ho h he =>
    have refused := ho.leads_recording h (.error e)
    rw [settle_of_conflict he] at refused
    exact refused
  | @unrecorded t loaded fx e ho h he =>
    have refused := ho.leads_recording h (.error e)
    rw [settle_of_not_conflict he] at refused
    exact refused
  | done ho h hv => exact ho.leads_running h _ hv
  | failed ho h hv => exact ho.leads_running h _ hv

theorem Opening.ending (ho : Opening p i stream t) {t' : List (Exchange (requests Ω H E))}
    (h : (proceed p i stream event .pure).Leads t' r) (hr : r.IsOver) : Ending p i stream event (t ++ t') r := by
  rcases leads_of_history h with ⟨-, rfl⟩ | ⟨e, rfl, rfl⟩ | ⟨loaded, t', rfl, hreact⟩
  · cases hr
  · exact .unread ho
  cases hreplay : p.replay i loaded with
  | error flaw =>
    unfold react at hreact
    simp only [hreplay] at hreact
    obtain ⟨rfl, rfl⟩ := hreact.of_fail
    exact .invalid ho hreplay
  | ok node =>
    cases hoffer : node.offer event with
    | none =>
      rw [react_of_ignored p i stream event hreplay hoffer] at hreact
      obtain ⟨rfl, rfl⟩ := hreact.of_pure
      exact .ignored ho hreplay hoffer
    | some step =>
      have htransition : p.Transition i loaded event step.1 := ⟨node, step.2, hreplay, hoffer⟩
      rw [react_of_offer p i stream event hreplay hoffer] at hreact
      rcases leads_of_record hreact with
        ⟨-, rfl⟩ | ⟨e, t', he, rfl, hlost⟩ | ⟨e, he, rfl, rfl⟩ | ⟨version, v, rfl, hrun⟩
      · cases hr
      · obtain ⟨rfl, rfl⟩ := hlost.of_pure
        exact .overtaken ho htransition he
      · exact .unrecorded ho htransition he
      rw [conclude_bind] at hrun
      rcases hrun.of_bind with ⟨rest, hv, rfl⟩ | ⟨v, t', a, rfl, hv, hover⟩
      · -- the attempt is over just if its effect is
        cases rest with
        | pure a => exact .done ho htransition hv
        | fail err => exact .failed ho htransition hv
        | call op next => cases hr
        | pause time next => cases hr
      · obtain ⟨rfl, rfl⟩ := hover.of_pure
        rw [List.append_nil]
        exact .done ho htransition hv

theorem ending_iff : Ending p i stream event t r ↔ (attempt p i stream event).Leads t r ∧ r.IsOver := by
  refine ⟨fun h => ⟨h.leads, by cases h <;> constructor⟩, fun ⟨h, hr⟩ => ?_⟩
  rw [attempt_eq] at h
  rcases h.of_call with ⟨-, rfl⟩ | ⟨reply, t, rfl, hnext⟩
  · cases hr
  clear h
  match reply, hnext with
  | .error e, hnext =>
    obtain ⟨rfl, rfl⟩ := hnext.of_fail
    exact .unseen
  | .ok true, hnext => exact Opening.found.ending hnext hr
  | .ok false, hnext =>
    rcases leads_of_record hnext with ⟨-, rfl⟩ | ⟨e, t, he, rfl, hlost⟩ | ⟨e, he, rfl, rfl⟩ | ⟨version, v, rfl, hrun⟩
    · cases hr
    · obtain ⟨rfl, rfl⟩ := hlost.of_pure
      exact .taken he
    · exact .unstarted he
    rw [conclude_bind] at hrun
    rcases hrun.of_bind with ⟨rest, hv, rfl⟩ | ⟨v, t, a, rfl, hv, hproceed⟩
    · cases rest with
      | fail err => exact .unopened hv
      | _ => cases hr
    · exact (Opening.begun hv).ending hproceed hr

end

end Delivery

end Workflow

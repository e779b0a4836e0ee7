import Workflow.Proofs.Delivery.Attempt
import Workflow.Proofs.Effect.Trace
import Workflow.Proofs.History

/-!
# A delivery by itself

Where a delivery stands after any exchanges at all, whatever it was answered and whoever else writes to the
stream. Main statement: `pending_of_leads`, by which each question of a delivery is one of six, with the
exchanges right before it that led to it.
-/

namespace Workflow.Delivery

variable {Ω : Signature} {H I S E R : Type}

section
variable [Inhabited S] (policy : PacedPolicy) (p : Definition Ω H I S E R) (i : I) (stream : String) (event : E)

abbrev following (left : Nat) (retries : UInt32) : Option StoreError → Task Ω H E Unit :=
  again policy stream (attempt p i stream event) left retries

/-- An attempt has found its stream, or has written the sentinel and has this left of the initial effect. -/
inductive Opened : List (Exchange (requests Ω H E)) → Task Ω H E Unit → Prop
  | found {t} : Opened (t ++ [looking stream true]) .unit
  | begun {t version v fx} (hv : (p.run i default).1.Leads v fx) :
      Opened (t ++ looking stream false :: writing stream .started 0 version :: v) fx

inductive Standing : List (Exchange (requests Ω H E)) → Task Ω H E Unit → Prop
  | trying {t left retries} : Standing t (retrying policy stream (attempt p i stream event) left retries)
  | resting {t time left retries} :
      Standing t (.pause time (retrying policy stream (attempt p i stream event) left retries))
  | starting {t left retries} : Standing (t ++ [looking stream false])
      ((record stream .started 0 (conclude (p.run i default).1)).bind
        (onward p i stream event (following policy p i stream event left retries)))
  | reading {t fx left retries} (ho : Opened p i stream t fx) :
      Standing t (fx.andThen (proceed p i stream event (following policy p i stream event left retries)))
  | recording {t loaded fx left retries} (ho : Opened p i stream t .unit) (h : p.Transition i loaded event fx) :
      Standing (t ++ [reading stream loaded])
        ((record stream (.received event) loaded.length (conclude fx)).bind
          (following policy p i stream event left retries))
  | running {t loaded version v fx r} (h : p.Transition i loaded event fx) (hv : fx.Leads v r) :
      Standing (t ++ reading stream loaded :: writing stream (.received event) loaded.length version :: v) r
  | ignoring {t} : Standing t .unit
  | invalid {t loaded flaw} (ho : Opened p i stream t .unit) (hr : p.replay i loaded = .error flaw) :
      Standing (t ++ [reading stream loaded]) (.fail (.delivery (.invalidHistory flaw)))
  | faulty {t e} : Standing t (storeFault e)
  | exhausted {t n} : Standing t (.fail (.delivery (.retriesExhausted stream n)))

inductive Pending : List (Exchange (requests Ω H E)) → (op : Request Ω H E) →
    ((requests Ω H E).Answer op → Task Ω H E Unit) → Prop
  | looking {t left retries} : Pending t (.store (.contains stream)) fun (reply : Except StoreError Bool) =>
      match reply with
      | .error e => storeFault e
      | .ok true => proceed p i stream event (following policy p i stream event left retries)
      | .ok false => (record stream .started 0 (conclude (p.run i default).1)).bind
          (onward p i stream event (following policy p i stream event left retries))
  | starting {t left retries} : Pending (t ++ [Delivery.looking stream false]) (.store (.append stream [.started] 0))
      (settle (conclude (p.run i default).1) (onward p i stream event (following policy p i stream event left retries)))
  | opening {t version v op next left retries} (hv : (p.run i default).1.Leads v (.call op next)) :
      Pending (t ++ Delivery.looking stream false :: writing stream .started 0 version :: v) op fun x =>
        (next x).andThen (proceed p i stream event (following policy p i stream event left retries))
  | reading {t left retries} (ho : Opened p i stream t .unit) : Pending t (.store (.load stream none))
      fun (reply : Except StoreError (List (Entry E))) =>
        match reply with
        | .ok loaded => (react p i stream event loaded).bind (following policy p i stream event left retries)
        | .error e => storeFault e
  | recording {t loaded fx left retries} (ho : Opened p i stream t .unit) (h : p.Transition i loaded event fx) :
      Pending (t ++ [Delivery.reading stream loaded]) (.store (.append stream [.received event] loaded.length))
        (settle (conclude fx) (following policy p i stream event left retries))
  | running {t loaded version v fx op next} (h : p.Transition i loaded event fx) (hv : fx.Leads v (.call op next)) :
      Pending (t ++ Delivery.reading stream loaded :: writing stream (.received event) loaded.length version :: v)
        op next

end

section
variable [Inhabited S] {policy : PacedPolicy} {p : Definition Ω H I S E R} {i : I} {stream : String} {event : E}
  {t : List (Exchange (requests Ω H E))} {r : Task Ω H E Unit}

theorem Standing.lost (left : Nat) (retries : UInt32) (e : StoreError) :
    Standing policy p i stream event t (following policy p i stream event left retries (some e)) := by
  cases left with
  | zero => exact .exhausted
  | succ left =>
    rw [following, again_some]
    cases policy.sleep (policy.delay (retries + 1).toNat) with
    | none => exact .trying
    | some time => exact .resting

theorem Standing.refused (next : Task Ω H E (Option StoreError)) {g : Option StoreError → Task Ω H E Unit}
    {e : StoreError} (hg : Standing policy p i stream event t (g (some e))) :
    Standing policy p i stream event t (settle next g (.error e)) := by
  show Standing policy p i stream event t (if e.isConcurrency then g (some e) else storeFault e)
  split
  · exact hg
  · exact .faulty

theorem Standing.reacting (ho : Opened p i stream t .unit) (loaded : List (Entry E)) (left : Nat) (retries : UInt32) :
    Standing policy p i stream event (t ++ [Delivery.reading stream loaded])
      ((react p i stream event loaded).bind (following policy p i stream event left retries)) := by
  cases hr : p.replay i loaded with
  | error flaw =>
    have hreact : react p i stream event loaded = .fail (.delivery (.invalidHistory flaw)) := by
      unfold react; simp only [hr]
    rw [hreact]
    exact .invalid ho hr
  | ok node =>
    cases hs : node.offer event with
    | none =>
      rw [react_of_ignored p i stream event hr hs, Effect.pure_bind, following, again_none]
      exact .ignoring
    | some step =>
      rw [react_of_offer p i stream event hr hs]
      exact .recording ho ⟨node, step.2, hr, hs⟩

/-! ## Questions and answers -/

theorem Standing.pending {op next} (h : Standing policy p i stream event t r) (hcall : r = .call op next) :
    Pending policy p i stream event t op next := by
  cases h with
  | trying =>
    rw [retrying_eq, attempt_bind] at hcall
    cases hcall
    exact .looking
  | starting =>
    rw [record_bind_eq] at hcall
    cases hcall
    exact .starting
  | @reading t fx left retries ho =>
    cases fx with
    | pure a => cases hcall; exact .reading ho
    | call op fx =>
      cases hcall
      cases ho with
      | begun hv => exact .opening hv
    | _ => cases hcall
  | recording ho h =>
    rw [record_bind_eq] at hcall
    cases hcall
    exact .recording ho h
  | running h hv => subst hcall; exact .running h hv
  | _ => cases hcall

theorem Pending.answer {op next} (h : Pending policy p i stream event t op next) (x : (requests Ω H E).Answer op) :
    Standing policy p i stream event (t ++ [⟨op, x⟩]) (next x) := by
  cases h with
  | looking =>
    match x with
    | .error e => exact .faulty
    | .ok true => exact .reading .found
    | .ok false => exact .starting
  | starting =>
    rw [List.append_assoc]
    match x with
    | .ok version =>
      show Standing _ _ _ _ _ _ ((conclude (p.run i default).1).bind _)
      rw [conclude_bind]
      exact .reading (.begun .nil)
    | .error e => exact .refused _ (.lost _ _ e)
  | opening hv =>
    rw [List.append_assoc]
    exact .reading (.begun (hv.call x))
  | reading ho =>
    match x with
    | .ok loaded => exact .reacting ho loaded _ _
    | .error e => exact .faulty
  | @recording t loaded fx left retries ho h =>
    rw [List.append_assoc]
    match x with
    | .ok version =>
      show Standing _ _ _ _ _ _ ((conclude fx).bind _)
      rw [conclude_bind_of_unit fx (again_none ..)]
      exact .running h .nil
    | .error e => exact .refused _ (.lost _ _ e)
  | running h hv =>
    rw [List.append_assoc]
    exact .running h (hv.call x)

theorem Standing.pause {time next} (h : Standing policy p i stream event t r) (hpause : r = .pause time next) :
    Standing policy p i stream event t next := by
  cases h with
  | trying => rw [retrying_eq, attempt_bind] at hpause; cases hpause
  | resting => cases hpause; exact .trying
  | starting => rw [record_bind_eq] at hpause; cases hpause
  | @reading t fx left retries ho =>
    cases fx with
    | pause time fx =>
      cases hpause
      cases ho with
      | begun hv => exact .reading (.begun (.pause hv))
    | _ => cases hpause
  | recording ho h => rw [record_bind_eq] at hpause; cases hpause
  | running h hv => subst hpause; exact .running h (.pause hv)
  | _ => cases hpause

theorem standing_of_leads (h : (deliver policy p i stream event).Leads t r) :
    Standing policy p i stream event t r := by
  induction h with
  | nil => exact .trying
  | call _ x ih => exact (ih.pending rfl).answer x
  | pause _ ih => exact ih.pause rfl

theorem pending_of_leads {t₁ t₂ : List (Exchange (requests Ω H E))} {x : Exchange (requests Ω H E)}
    (h : (deliver policy p i stream event).Leads (t₁ ++ x :: t₂) r) :
    ∃ next, Pending policy p i stream event t₁ x.op next ∧ (next x.answer).Leads t₂ r := by
  obtain ⟨next, before, after⟩ := h.cut
  exact ⟨next, (standing_of_leads before).pending rfl, after⟩

end

end Workflow.Delivery

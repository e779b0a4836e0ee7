import Workflow.Proofs.Delivery.Attempt
import Workflow.Proofs.History
import Workflow.Proofs.Store.Contract

/-!
# The course of a delivery

Where a delivery or a start stands after the exchanges it has had, whatever the others have done to the
stream in between. What it knows of the stream is a history it has loaded, and that stays a prefix of the
stream; an append at its length succeeds only while it is all there is. Main statement: `Progress.step`,
one exchange under the contract of the stream.
-/

namespace Workflow.Delivery

variable {Ω : Signature} {H I S E R W : Type}

inductive Call (E : Type) where
  | deliver (event : E)
  | start

def outside (stream : String) (t : List (Exchange (requests Ω H E))) : List (Exchange (requests Ω H E)) :=
  t.filter fun x => ¬ Request.IsOn stream x.op

theorem outside_concat_of_isOn {stream : String} {x : Exchange (requests Ω H E)} (h : x.op.IsOn stream)
    (t : List (Exchange (requests Ω H E))) : outside stream (t ++ [x]) = outside stream t := by
  simp [outside, h]

theorem outside_concat_of_spares {stream : String} {x : Exchange (requests Ω H E)} (h : Request.Spares stream x.op)
    (t : List (Exchange (requests Ω H E))) : outside stream (t ++ [x]) = outside stream t ++ [x] := by
  simp [outside, h]

/-- A call that has recorded no event. It has asked nothing but on the stream, or it has recorded the
sentinel: then whatever else it asked is the initial effect, and `fx` is left of that. -/
inductive Prelude (stream : String) (initial : Task Ω H E Unit) (t : List (Exchange (requests Ω H E))) :
    Task Ω H E Unit → Prop
  | fresh (hr : recorded stream t = []) (ho : outside stream t = []) : Prelude stream initial t .unit
  | begun {fx} (hr : recorded stream t = [.started]) (ho : initial.Leads (outside stream t) fx) :
      Prelude stream initial t fx

namespace Prelude

variable {stream : String} {initial fx : Task Ω H E Unit} {t : List (Exchange (requests Ω H E))}
  {x : Exchange (requests Ω H E)}

theorem vain (h : Prelude stream initial t fx) (hx : x.op.IsOn stream) (ha : x.added stream = []) :
    Prelude stream initial (t ++ [x]) fx := by
  cases h with
  | fresh hr ho => exact .fresh (by simp [hr, ha]) (by rw [outside_concat_of_isOn hx, ho])
  | begun hr ho => exact .begun (by simp [hr, ha]) (by rw [outside_concat_of_isOn hx]; exact ho)

theorem start (h : Prelude stream initial t .unit) (hempty : recorded stream t = []) (hx : x.op.IsOn stream)
    (ha : x.added stream = [.started]) : Prelude stream initial (t ++ [x]) initial := by
  refine .begun (by simp [hempty, ha]) ?_
  cases h with
  | fresh _ ho => rw [outside_concat_of_isOn hx, ho]; exact .nil
  | begun hr _ => rw [hempty] at hr; cases hr

theorem call {op next} (h : Prelude stream initial t (.call op next)) (hop : Request.Spares stream op)
    (x : (requests Ω H E).Answer op) : Prelude stream initial (t ++ [⟨op, x⟩]) (next x) := by
  cases h with
  | begun hr ho =>
    refine .begun ?_ ?_
    · rw [recorded_append, hr, recorded_of_spares (by simpa using hop), List.append_nil]
    · rw [outside_concat_of_spares hop]; exact .call ho x

theorem pause {time next} (h : Prelude stream initial t (.pause time next)) :
    Prelude stream initial t next := by
  cases h with
  | begun hr ho => exact .begun hr (.pause ho)

theorem asks (h : Prelude stream initial t fx) (hi : initial.Asks (Request.Spares stream)) :
    fx.Asks (Request.Spares stream) := by
  cases h with
  | fresh _ _ => trivial
  | begun _ ho => exact (ho.asks hi).2

end Prelude

section
variable [Inhabited S] (policy : PacedPolicy) (p : Definition Ω H I S E R) (i : I) (stream : String)

def Call.task : Call E → Task Ω H E Unit
  | deliver event => Delivery.deliver policy p i stream event
  | start => Delivery.start p i stream

/-- What a call may add to a stream that holds `now`, and what is left of the call right then. -/
inductive Adds (now : List (Entry E)) : Call E → List (Entry E) → Task Ω H E Unit → Prop
  | nothing {call rest} : Adds now call [] rest
  | start {call rest} (h : now = []) : Adds now call [.started] ((p.run i default).1.andThen rest)
  | event {event events step} (h : now = Entry.history (some events))
      (ho : ((p.initial i).advanceAll events).offer event = some step) :
      Adds now (.deliver event) [.received event] step.1

inductive Course (event : E) (now : List (Entry E)) :
    List (Exchange (requests Ω H E)) → Task Ω H E Unit → Prop
  | trying {t left retries} (hb : Prelude stream (p.run i default).1 t .unit) :
      Course event now t (retrying policy stream (attempt p i stream event) left retries)
  | resting {t time left retries} (hb : Prelude stream (p.run i default).1 t .unit) :
      Course event now t (.pause time (retrying policy stream (attempt p i stream event) left retries))
  | starting {t left retries} (hb : Prelude stream (p.run i default).1 t .unit) :
      Course event now t ((record stream .started 0 (conclude (p.run i default).1)).bind
        (onward p i stream event (again policy stream (attempt p i stream event) left retries)))
  | reading {t fx left retries} (hb : Prelude stream (p.run i default).1 t fx) :
      Course event now t (fx.andThen
        (proceed p i stream event (again policy stream (attempt p i stream event) left retries)))
  | recording {t events step left retries} (hb : Prelude stream (p.run i default).1 t .unit)
      (hh : Entry.history (some events) <+: now)
      (ho : ((p.initial i).advanceAll events).offer event = some step) :
      Course event now t
        ((record stream (.received event) (Entry.history (some events)).length (conclude step.1)).bind
          (again policy stream (attempt p i stream event) left retries))
  | running {a x v r} (hb : Prelude stream (p.run i default).1 a .unit)
      (hx : x.added stream = [.received event]) (hv : ∀ y ∈ v, Request.Spares stream y.op)
      (hr : r.Asks (Request.Spares stream)) : Course event now (a ++ x :: v) r
  | ignoring {t} (hb : Prelude stream (p.run i default).1 t .unit) : Course event now t .unit
  | failing {t err} (hb : Prelude stream (p.run i default).1 t .unit) : Course event now t (.fail err)

inductive Starting : List (Exchange (requests Ω H E)) → Task Ω H E Unit → Prop
  | starting {t} (hb : Prelude stream (p.run i default).1 t .unit) : Starting t (start p i stream)
  | opening {t fx} (hb : Prelude stream (p.run i default).1 t fx) : Starting t fx
  | failing {t err} (hb : Prelude stream (p.run i default).1 t .unit) : Starting t (.fail err)

def Progress (now : List (Entry E)) (t : List (Exchange (requests Ω H E))) (r : Task Ω H E Unit) : Call E → Prop
  | .deliver event => Course policy p i stream event now t r
  | .start => Starting p i stream t r

end

/-! ## Pauses and the exchanges of others -/

section
variable [Inhabited S] {policy : PacedPolicy} {p : Definition Ω H I S E R} {i : I} {stream : String}
  {now now' : List (Entry E)} {t : List (Exchange (requests Ω H E))} {r next : Task Ω H E Unit}

theorem Course.mono {event : E} (h : Course policy p i stream event now t r) (hle : now <+: now') :
    Course policy p i stream event now' t r := by
  cases h with
  | trying hb => exact .trying hb
  | resting hb => exact .resting hb
  | starting hb => exact .starting hb
  | reading hb => exact .reading hb
  | recording hb hh ho => exact .recording hb (hh.trans hle) ho
  | running hb hx hv hr => exact .running hb hx hv hr
  | ignoring hb => exact .ignoring hb
  | failing hb => exact .failing hb

theorem Course.pause {event : E} {time} (h : Course policy p i stream event now t r)
    (hr : r = .pause time next) : Course policy p i stream event now t next := by
  cases h with
  | trying hb => rw [retrying_eq, attempt_bind] at hr; cases hr
  | resting hb => cases hr; exact .trying hb
  | starting hb => rw [record_bind] at hr; cases hr
  | @reading t fx left retries hb =>
    cases fx with
    | pause time fx => cases hr; exact .reading hb.pause
    | _ => cases hr
  | recording hb hh ho => rw [record_bind] at hr; cases hr
  | running hb hx hv hasks => subst hr; exact .running hb hx hv hasks
  | ignoring hb => cases hr
  | failing hb => cases hr

theorem Starting.pause {time} (h : Starting p i stream t r) (hr : r = .pause time next) :
    Starting p i stream t next := by
  cases h with
  | starting hb => unfold start begin at hr; rw [record_bind] at hr; cases hr
  | opening hb => subst hr; exact .opening hb.pause
  | failing hb => cases hr

theorem Progress.mono {call : Call E} (h : Progress policy p i stream now t r call) (hle : now <+: now') :
    Progress policy p i stream now' t r call := by
  cases call with
  | deliver event => exact Course.mono h hle
  | start => exact h

theorem Progress.pause {call : Call E} {time} (h : Progress policy p i stream now t (.pause time next) call) :
    Progress policy p i stream now t next call := by
  cases call with
  | deliver event => exact Course.pause h rfl
  | start => exact Starting.pause h rfl

end

/-! ## Single exchanges -/

section
variable {world : Shared (requests Ω H E) W} {stream : String} {entries : W → List (Entry E)}

theorem step_record (hstore : world.Keeps stream entries) {entry : Entry E} {expected : Nat}
    {fx : Task Ω H E (Option StoreError)} {k : Option StoreError → Task Ω H E Unit} {op next x w w'}
    (hcall : (record stream entry expected fx).bind k = .call op next) (ha : world.answers op w x w') :
    op.IsOn stream ∧ entries w' = entries w ++ (Exchange.mk op x).added stream ∧
      ((Exchange.mk op x).added stream = [entry] ∧ (entries w).length = expected ∧ next x = fx.bind k ∨
        (Exchange.mk op x).added stream = [] ∧
          ∃ e : StoreError, next x = k (some e) ∨ next x = .fail (.delivery (.store e))) := by
  rw [record_bind] at hcall
  cases hcall
  match x, ha with
  | .ok version, ha =>
    obtain ⟨hlen, hw⟩ := hstore.append_ok ha
    have hadded := (Exchange.added_append (Ω := Ω) (H := H) stream stream [entry] expected version).trans (if_pos rfl)
    exact ⟨rfl, by rw [hadded, hw], .inl ⟨hadded, hlen, rfl⟩⟩
  | .error e, ha =>
    refine ⟨rfl, (hstore.append_error ha).trans (List.append_nil _).symm, .inr ⟨rfl, e, ?_⟩⟩
    by_cases hc : e.isConcurrency
    · exact .inl (if_pos hc)
    · exact .inr (if_neg hc)

end

section
variable [Inhabited S]

structure Stepped (policy : PacedPolicy) (p : Definition Ω H I S E R) (i : I) (stream : String) (call : Call E)
    (now now' : List (Entry E)) (t : List (Exchange (requests Ω H E))) (x : Exchange (requests Ω H E))
    (r : Task Ω H E Unit) : Prop where
  kept : now' = now ++ x.added stream
  adds : Adds p i now call (x.added stream) r
  before : x.added stream ≠ [] → Prelude stream (p.run i default).1 t .unit
  progress : Progress policy p i stream now' (t ++ [x]) r call

variable {policy : PacedPolicy} {p : Definition Ω H I S E R} {i : I} {stream : String} {call : Call E}
  {now now' : List (Entry E)} {t : List (Exchange (requests Ω H E))} {r : Task Ω H E Unit}

theorem Stepped.nothing {x : Exchange (requests Ω H E)} (hx : x.added stream = []) (hw : now' = now)
    (hprogress : Progress policy p i stream now' (t ++ [x]) r call) :
    Stepped policy p i stream call now now' t x r :=
  ⟨by rw [hx, hw, List.append_nil], hx ▸ .nothing, fun h => absurd hx h, hprogress⟩

variable {world : Shared (requests Ω H E) W} {entries : W → List (Entry E)}

theorem Course.lost {event : E} (hb : Prelude stream (p.run i default).1 t .unit) (left : Nat) (retries : UInt32)
    (e : StoreError) : Course policy p i stream event now t
      (again policy stream (attempt p i stream event) left retries (some e)) := by
  cases left with
  | zero => exact .failing hb
  | succ left =>
    rw [again_some]
    cases policy.sleep (policy.delay (retries + 1).toNat) with
    | none => exact .trying hb
    | some time => exact .resting hb

theorem Course.load {event : E} (hstore : world.Keeps stream entries) {old w w'}
    (hold : entries w = Entry.history old) (hb : Prelude stream (p.run i default).1 t .unit) {left retries op next x}
    (hcall : proceed p i stream event (again policy stream (attempt p i stream event) left retries) = .call op next)
    (ha : world.answers op w x w') :
    Stepped policy p i stream (.deliver event) (entries w) (entries w') t ⟨op, x⟩ (next x) := by
  cases hcall
  have hw : entries w' = entries w := hstore.load ha
  refine .nothing rfl hw ?_
  have hvain := hb.vain (x := ⟨.store (.load stream none), x⟩) rfl rfl
  match x, ha with
  | .error e, _ => exact Course.failing hvain
  | .ok l, ha =>
    obtain rfl : l = Entry.history old := (hstore.load_ok ha).trans hold
    show Course policy p i stream event (entries w') _ ((react p i stream event (Entry.history old)).bind _)
    cases old with
    | none => exact Course.failing hvain
    | some events =>
      have hr := p.replay_history i events
      cases ho : ((p.initial i).advanceAll events).offer event with
      | none =>
        rw [react_of_ignored p i stream event hr ho, Effect.pure_bind, again_none]
        exact .ignoring hvain
      | some step =>
        rw [react_of_offer p i stream event hr ho]
        exact .recording hvain ((hw.trans hold) ▸ List.prefix_rfl) ho

theorem Stepped.spares (hstore : world.Keeps stream entries) {op x w w'} (hop : Request.Spares stream op)
    (ha : world.answers op w x w') (hprogress : Progress policy p i stream (entries w') (t ++ [⟨op, x⟩]) r call) :
    Stepped policy p i stream call (entries w) (entries w') t ⟨op, x⟩ r :=
  .nothing (Exchange.added_of_spares hop) (hstore.others hop ha) hprogress

theorem Course.step {event : E} (hstore : world.Keeps stream entries) (hp : p.Asks (Request.Spares stream) i)
    {old w w'} (hold : entries w = Entry.history old) (hempty : entries w = [] → recorded stream t = [])
    (h : Course policy p i stream event (entries w) t r) {op next x} (hcall : r = .call op next)
    (ha : world.answers op w x w') :
    Stepped policy p i stream (.deliver event) (entries w) (entries w') t ⟨op, x⟩ (next x) := by
  cases h with
  | trying hb =>
    rw [retrying_eq, attempt_bind] at hcall
    cases hcall
    refine .nothing rfl (hstore.contains ha) ?_
    have hvain := hb.vain (x := ⟨.store (.contains stream), x⟩) rfl rfl
    match x with
    | .error e => exact Course.failing hvain
    | .ok true => exact Course.reading hvain
    | .ok false => exact Course.starting hvain
  | resting hb => cases hcall
  | starting hb =>
    obtain ⟨hon, hw, ⟨hadded, hlen, hnext⟩ | ⟨hadded, e, hnext⟩⟩ := step_record hstore hcall ha
    · -- version 0 fits an empty stream alone, so nobody has started it
      have hnil : entries w = [] := List.length_eq_zero_iff.mp hlen
      rw [conclude_bind] at hnext
      rw [hnext]
      exact ⟨hw, hadded ▸ .start hnil, fun _ => hb, Course.reading (hb.start (hempty hnil) hon hadded)⟩
    · have hvain := hb.vain hon hadded
      refine .nothing hadded (by rw [hw, hadded, List.append_nil]) ?_
      rcases hnext with hnext | hnext <;> rw [hnext]
      · exact Course.lost hvain _ _ e
      · exact Course.failing hvain
  | @reading t fx left retries hb =>
    cases fx with
    | pure a => exact Course.load hstore hold hb hcall ha
    | call _ _ =>
      cases hcall
      have hop : Request.Spares stream op := (hb.asks hp.1).1
      exact .spares hstore hop ha (Course.reading (hb.call hop x))
    | _ => cases hcall
  | @recording t events step left retries hb hh ho =>
    obtain ⟨hon, hw, ⟨hadded, hlen, hnext⟩ | ⟨hadded, e, hnext⟩⟩ := step_record hstore hcall ha
    · -- the version still fits, so what was loaded is all that the stream holds
      have hnow : Entry.history (some events) = entries w := hh.eq_of_length hlen.symm
      rw [conclude_bind_of_unit step.1 (again_none ..)] at hnext
      rw [hnext]
      exact ⟨hw, hadded ▸ .event hnow.symm ho, fun _ => hb,
        Course.running hb hadded (fun y hy => absurd hy List.not_mem_nil) (hp.2 events event step ho)⟩
    · have hvain := hb.vain hon hadded
      refine .nothing hadded (by rw [hw, hadded, List.append_nil]) ?_
      rcases hnext with hnext | hnext <;> rw [hnext]
      · exact Course.lost hvain _ _ e
      · exact Course.failing hvain
  | @running a y v r hb hy hv hr =>
    subst hcall
    refine .spares hstore hr.1 ha ?_
    rw [List.append_assoc, List.cons_append]
    refine Course.running hb hy (fun z hz => ?_) (hr.2 x)
    rcases List.mem_append.mp hz with hz | hz
    · exact hv z hz
    · obtain rfl := List.mem_singleton.mp hz
      exact hr.1
  | ignoring hb => cases hcall
  | failing hb => cases hcall

theorem Starting.step (hstore : world.Keeps stream entries) (hp : p.Asks (Request.Spares stream) i) {w w'}
    (hempty : entries w = [] → recorded stream t = []) (h : Starting p i stream t r) {op next x}
    (hcall : r = .call op next) (ha : world.answers op w x w') :
    Stepped policy p i stream .start (entries w) (entries w') t ⟨op, x⟩ (next x) := by
  cases h with
  | starting hb =>
    obtain ⟨hon, hw, ⟨hadded, hlen, hnext⟩ | ⟨hadded, e, hnext⟩⟩ := step_record hstore hcall ha
    · have hnil : entries w = [] := List.length_eq_zero_iff.mp hlen
      have hprogress := Starting.opening (hb.start (hempty hnil) hon hadded)
      rw [conclude_bind] at hnext
      refine ⟨hw, hnext ▸ hadded ▸ .start hnil, fun _ => hb, ?_⟩
      rw [hnext, show (Effect.bind (p.run i default).1 fun _ => Effect.unit) = (p.run i default).1 from
        Effect.bind_pure _]
      exact hprogress
    · refine .nothing hadded (by rw [hw, hadded, List.append_nil]) ?_
      rcases hnext with hnext | hnext <;> rw [hnext]
      · exact Starting.failing (hb.vain hon hadded)
      · exact Starting.failing (hb.vain hon hadded)
  | opening hb =>
    subst hcall
    have hop : Request.Spares stream op := (hb.asks hp.1).1
    exact .spares hstore hop ha (Starting.opening (hb.call hop x))
  | failing hb => cases hcall

theorem Progress.step (hstore : world.Keeps stream entries) (hp : p.Asks (Request.Spares stream) i) {old w w'}
    (hold : entries w = Entry.history old) (hempty : entries w = [] → recorded stream t = []) {op next x}
    (h : Progress policy p i stream (entries w) t (.call op next) call) (ha : world.answers op w x w') :
    Stepped policy p i stream call (entries w) (entries w') t ⟨op, x⟩ (next x) := by
  cases call with
  | deliver event => exact Course.step hstore hp hold hempty h rfl ha
  | start => exact Starting.step hstore hp hempty h rfl ha

/-! ## What a call has done -/

theorem Prelude.recorded_eq {initial fx : Task Ω H E Unit} (h : Prelude stream initial t fx) :
    recorded stream t = [] ∨ recorded stream t = [.started] := by
  cases h with
  | fresh hr _ => exact .inl hr
  | begun hr _ => exact .inr hr

theorem Prelude.not_received {initial fx : Task Ω H E Unit} (h : Prelude stream initial t fx) (e : E) :
    .received e ∉ recorded stream t := by
  rcases h.recorded_eq with hr | hr <;> simp [hr]

theorem Progress.initial (call : Call E) : Progress policy p i stream now [] (call.task policy p i stream) call := by
  cases call with
  | deliver event => exact Course.trying (.fresh rfl rfl)
  | start => exact Starting.starting (.fresh rfl rfl)

theorem Progress.account (h : Progress policy p i stream now t r call) :
    (∃ fx, Prelude stream (p.run i default).1 t fx) ∨
      ∃ event sentinel, call = .deliver event ∧ recorded stream t = sentinel ++ [.received event] ∧
        (sentinel = [] ∨ sentinel = [.started]) := by
  cases call with
  | start =>
    cases h with
    | starting hb => exact .inl ⟨_, hb⟩
    | opening hb => exact .inl ⟨_, hb⟩
    | failing hb => exact .inl ⟨_, hb⟩
  | deliver event =>
    cases h with
    | trying hb => exact .inl ⟨_, hb⟩
    | resting hb => exact .inl ⟨_, hb⟩
    | starting hb => exact .inl ⟨_, hb⟩
    | reading hb => exact .inl ⟨_, hb⟩
    | recording hb _ _ => exact .inl ⟨_, hb⟩
    | running hb hx hv _ =>
      refine .inr ⟨event, _, rfl, ?_, hb.recorded_eq⟩
      rw [recorded_append, recorded_cons, hx, recorded_of_spares hv, List.append_nil]
    | ignoring hb => exact .inl ⟨_, hb⟩
    | failing hb => exact .inl ⟨_, hb⟩

theorem Course.ignored (hp : p.Asks (Request.Spares stream) i) {event : E}
    (h : Course policy p i stream event now t r) {next : Except StoreError (List (Entry E)) → Task Ω H E Unit}
    (hcall : r = .call (.store (.load stream none)) next) {entries : List (Entry E)} {node}
    (hr : p.replay i entries = .ok node) (ho : node.offer event = none) :
    Prelude stream (p.run i default).1 t .unit ∧ next (.ok entries) = .unit := by
  cases h with
  | trying hb => rw [retrying_eq, attempt_bind] at hcall; cases hcall
  | resting hb => cases hcall
  | starting hb => rw [record_bind] at hcall; cases hcall
  | @reading t fx left retries hb =>
    cases fx with
    | pure a =>
      cases hcall
      refine ⟨hb, ?_⟩
      show (react p i stream event entries).bind _ = _
      rw [react_of_ignored p i stream event hr ho, Effect.pure_bind, again_none]
    | call _ _ => cases hcall; exact absurd rfl (hb.asks hp.1).1
    | _ => cases hcall
  | recording hb _ _ => rw [record_bind] at hcall; cases hcall
  | running _ _ _ hasks => subst hcall; exact absurd rfl hasks.1
  | ignoring hb => cases hcall
  | failing hb => cases hcall

end

end Workflow.Delivery

import Workflow.Proofs.Delivery.Attempt
import Workflow.Proofs.History
import Workflow.Proofs.Process.FollowUp
import Workflow.Proofs.Store.Contract

/-!
# Re-entrant deliveries

Processes whose effects send follow-up events that are delivered to processes again, over a store in memory
and on one thread. Nothing comes between a look at a stream and the append that relies on it, so no append is
ever refused, however deliveries are nested, put side by side or dropped half-way. Main statement:
`reentrant_orderly`, at every point of a run.
-/

namespace Workflow.Delivery

variable {Ω : Signature} {H I E V : Type}

/-- Processes that get their own follow-up events delivered. A handler stands for the process that it
delivers to. A process is given the service that its follow-up events go to. -/
structure Network (Ω : Signature) (H I E : Type) where
  State : H → Type
  Value : H → Type
  inhabited h : Inhabited (State h)
  policy : PacedPolicy
  process : Service Ω H I E → ∀ h, Definition Ω H I (State h) E (Value h)
  streamOf : H → I → String

instance (net : Network Ω H I E) (h : H) : Inhabited (net.State h) := net.inhabited h

def announced : Option Ω.Op → Task Ω H E Unit → Task Ω H E Unit
  | none, fx => fx
  | some op, fx => (Task.act op).andThen fx

namespace Network

def service (net : Network Ω H I E) : Nat → Service Ω H I E :=
  Service.tie fun serve _ h f => followUps net.policy (net.process serve h) (net.streamOf h) f

/-- What a network is made of. `opening` is the act by which the initial effect of an instance announces
itself, if it does. `follows` are the follow-up events that may come of the initial effect (`none`) and of the
effect of an event. -/
structure Lawful (net : Network Ω H I E) (opening : H → I → Option Ω.Op)
    (follows : H → I → Option E → FollowUp I E → Prop) : Prop where
  streams {h i h' i'} : net.streamOf h i = net.streamOf h' i' → h = h' ∧ i = i'
  /-- What a process accepts does not depend on where its follow-up events go. -/
  accepts serve serve' h i events e :
    ((((net.process serve h).initial i).advanceAll events).offer e).isSome →
      ((((net.process serve' h).initial i).advanceAll events).offer e).isSome
  openings {h i h' i' op} : opening h i = some op → opening h' i' = some op → h = h' ∧ i = i'
  initial serve h i : ∃ fx, ((net.process serve h).run i default).1 = announced (opening h i) fx ∧
    Woven serve (fun op => ∀ h i, opening h i ≠ some op) (follows h i none) fx
  effects serve h i events e step :
    (((net.process serve h).initial i).advanceAll events).offer e = some step →
      Woven serve (fun op => ∀ h i, opening h i ≠ some op) (follows h i (some e)) step.1

end Network

/-! ## What has happened -/

def Refused (x : Exchange (requests Ω H E)) : Prop :=
  ∃ stream new expected, ∃ e : StoreError, x = ⟨.store (.append stream new expected), .error e⟩

def startings (stream : String) (t : List (Exchange (requests Ω H E))) : Nat :=
  (recorded stream t).countP Entry.isStart

def performed [DecidableEq Ω.Op] (op : Ω.Op) (t : List (Exchange (requests Ω H E))) : Nat :=
  t.countP fun x => match (x.op : Request Ω H E) with
    | .act op' => op' = op
    | _ => false

theorem startings_append (stream : String) (t t' : List (Exchange (requests Ω H E))) :
    startings stream (t ++ t') = startings stream t + startings stream t' := by
  unfold startings; rw [recorded_append, List.countP_append]

theorem performed_append [DecidableEq Ω.Op] (op : Ω.Op) (t t' : List (Exchange (requests Ω H E))) :
    performed op (t ++ t') = performed op t + performed op t' :=
  List.countP_append

def appended (stream : String) (entry : Entry E) (expected : Nat) : Exchange (requests Ω H E) :=
  ⟨.store (.append stream [entry] expected), .ok (expected + 1)⟩

section
variable (stream s : String) (entry : Entry E) (expected : Nat) (t : List (Exchange (requests Ω H E)))

theorem recorded_appended : recorded s (t ++ [appended stream entry expected]) =
    recorded s t ++ if stream = s then [entry] else [] := by
  rw [recorded_append, recorded_cons, recorded_nil, List.append_nil]
  rfl

theorem mem_recorded_appended : entry ∈ recorded stream (t ++ [appended stream entry expected]) := by
  rw [recorded_appended, if_pos rfl]
  exact List.mem_append_right _ List.mem_cons_self

theorem startings_appended : startings s (t ++ [appended stream entry expected]) =
    startings s t + if stream = s ∧ entry.isStart then 1 else 0 := by
  unfold startings
  rw [recorded_appended, List.countP_append]
  by_cases h : stream = s <;> simp [h]

theorem performed_appended [DecidableEq Ω.Op] (op : Ω.Op) :
    performed op (t ++ [appended stream entry expected]) = performed op t :=
  performed_append op t _

end

section
variable (net : Network Ω H I E) (opening : H → I → Option Ω.Op)
  (follows : H → I → Option E → FollowUp I E → Prop) (root : FollowUp I E → Prop)

/-- The event comes from outside, or something that it follows from has been recorded. -/
def Caused (t : List (Exchange (requests Ω H E))) (f : FollowUp I E) : Prop :=
  root f ∨ ∃ h i cause, cause.elim .started .received ∈ recorded (net.streamOf h i) t ∧ follows h i cause f

/-- What holds at every point of a run that began with the entries `before`, when it has had the exchanges
`t` and the store is `store`. -/
structure Orderly [DecidableEq Ω.Op] (before : String → List (Entry E)) (t : List (Exchange (requests Ω H E)))
    (store : MemoryStore (Entry E)) : Prop where
  kept stream : store.entries stream = before stream ++ recorded stream t
  unrefused x : x ∈ t → ¬ Refused x
  history h i : ∃ old, store.entries (net.streamOf h i) = Entry.history old
  accepted h i serve : (net.process serve h).AcceptedSince i (before (net.streamOf h i))
    (store.entries (net.streamOf h i))
  opened h i op : opening h i = some op → performed op t ≤ startings (net.streamOf h i) t
  caused {t₁ x t₂} h i e : t = t₁ ++ x :: t₂ → .received e ∈ x.added (net.streamOf h i) →
    Caused net follows root t₁ ⟨i, e⟩

inductive Admits (t : List (Exchange (requests Ω H E))) (h : H) (i : I) (now : List (Entry E)) :
    List (Entry E) → Prop
  | nothing : Admits t h i now []
  | start (hnil : now = []) : Admits t h i now [.started]
  | event {event events} (hnow : now = Entry.history (some events))
      (haccepted : ∀ serve, ∃ fx, (net.process serve h).Transition i now event fx)
      (hcause : Caused net follows root t ⟨i, event⟩) : Admits t h i now [.received event]

variable {net opening follows root}

theorem Caused.mono {t t' : List (Exchange (requests Ω H E))} {f : FollowUp I E} (h : Caused net follows root t f)
    (hle : t <+: t') : Caused net follows root t' f := by
  rcases h with h | ⟨h, i, cause, hmem, hf⟩
  · exact .inl h
  · obtain ⟨more, rfl⟩ := hle
    exact .inr ⟨h, i, cause, by rw [recorded_append]; exact List.mem_append_left _ hmem, hf⟩

theorem Admits.history {t h i now new} (had : Admits net follows root t h i now new)
    (hnow : ∃ old, now = Entry.history old) : ∃ old, now ++ new = Entry.history old := by
  cases had with
  | nothing => rw [List.append_nil]; exact hnow
  | start hnil => exact ⟨some [], by rw [hnil]; rfl⟩
  | @event event events hevents _ _ => exact ⟨some (events ++ [event]), by rw [hevents, ← Entry.history_append]; rfl⟩

theorem Admits.accepted {t h i now new} (had : Admits net follows root t h i now new) {before serve}
    (hnow : (net.process serve h).AcceptedSince i before now) :
    (net.process serve h).AcceptedSince i before (now ++ new) := by
  cases had with
  | nothing => rw [List.append_nil]; exact hnow
  | start _ => exact hnow.concat fun e he => by cases he
  | event _ haccepted _ => exact hnow.concat fun e he => by cases he; exact haccepted serve

theorem Admits.caused {t h i now new e} (had : Admits net follows root t h i now new) (he : .received e ∈ new) :
    Caused net follows root t ⟨i, e⟩ := by
  cases had with
  | nothing => cases he
  | start _ => cases List.mem_singleton.mp he
  | event _ _ hcause => cases List.mem_singleton.mp he; exact hcause

theorem Orderly.step [DecidableEq Ω.Op] {before t store} (h : Orderly net opening follows root before t store)
    {x : Exchange (requests Ω H E)} {store' : MemoryStore (Entry E)}
    (hkept : ∀ s, store'.entries s = store.entries s ++ x.added s) (hx : ¬ Refused x)
    (hadmits : ∀ h i, Admits net follows root t h i (store.entries (net.streamOf h i)) (x.added (net.streamOf h i)))
    (hopened : ∀ h i op, opening h i = some op →
      performed op (t ++ [x]) ≤ startings (net.streamOf h i) (t ++ [x])) :
    Orderly net opening follows root before (t ++ [x]) store' where
  kept s := by rw [hkept, h.kept, recorded_append]; simp
  unrefused y hy := by
    rcases List.mem_append.mp hy with hy | hy
    · exact h.unrefused y hy
    · exact List.mem_singleton.mp hy ▸ hx
  history i j := hkept _ ▸ (hadmits i j).history (h.history i j)
  accepted i j serve := hkept _ ▸ (hadmits i j).accepted (h.accepted i j serve)
  opened := hopened
  caused {t₁ y t₂} i j e ht he := by
    -- the exchange in question is the last one, or it was there before
    rcases List.eq_nil_or_concat t₂ with rfl | ⟨t₂, z, rfl⟩
    · obtain ⟨rfl, hlast⟩ := List.append_inj' ht rfl
      obtain rfl := List.singleton_inj.mp hlast
      exact (hadmits i j).caused he
    · rw [List.concat_eq_append, ← List.cons_append, ← List.append_assoc] at ht
      exact h.caused i j e (List.append_inj' ht rfl).1 he

end

/-! ## The discipline of deliveries -/

section
variable [DecidableEq Ω.Op] (o : Outside Ω H V) (net : Network Ω H I E) (opening : H → I → Option Ω.Op)
  (follows : H → I → Option E → FollowUp I E → Prop) (root : FollowUp I E → Prop)
  (before : String → List (Entry E))

/-- Wherever others may go on, every instance that was started has announced itself. -/
def orderly : Discipline (o.host (E := E)) where
  Point t w := Orderly net opening follows root before t w.2
  Calm t w := Orderly net opening follows root before t w.2 ∧
    ∀ h i op, opening h i = some op → performed op t = startings (net.streamOf h i) t
  point hc := hc.1
  wait _ hc := hc

variable {o net opening follows root before} {t : List (Exchange (requests Ω H E))} {w w' : V × MemoryStore (Entry E)}

theorem calm_quiet (hc : (orderly o net opening follows root before).Calm t w) {x : Exchange (requests Ω H E)}
    (hx : ¬ Refused x) (hadded : ∀ s, x.added s = []) (hmark : ∀ h i op, opening h i = some op → performed op [x] = 0)
    (hw : w'.2 = w.2) : (orderly o net opening follows root before).Calm (t ++ [x]) w' := by
  have hopened : ∀ h i op, opening h i = some op →
      performed op (t ++ [x]) = startings (net.streamOf h i) (t ++ [x]) := by
    intro h i op hop
    rw [performed_append, hmark h i op hop, hc.2 h i op hop, startings_append]
    simp [startings, hadded]
  refine ⟨hc.1.step (fun s => ?_) hx (fun h i => ?_) fun h i op hop => Nat.le_of_eq (hopened h i op hop), hopened⟩
  · rw [hw, hadded, List.append_nil]
  · rw [hadded]; exact .nothing

theorem ready_act {op : Ω.Op} (hop : ∀ h i, opening h i ≠ some op) :
    Effect.Ready (orderly o net opening follows root before) (Task.act op : Task Ω H E _) t := by
  intro t' w _ hc
  refine ⟨hc.1, fun x w' ha => calm_quiet hc ?_ (fun _ => rfl) (fun h i op' hop' => ?_) ?_⟩
  · rintro ⟨_, _, _, _, hx⟩; cases hx
  · have hne : op ≠ op' := fun heq => hop h i (heq ▸ hop')
    simp [performed, hne]
  · exact Outside.store_of_act ha

theorem ready_mediator : Effect.Ready (orderly o net opening follows root before) (Task.mediator : Task Ω H E _) t := by
  intro t' w _ hc
  refine ⟨hc.1, fun x w' ha => calm_quiet hc ?_ (fun _ => rfl) (fun _ _ _ _ => rfl) ?_⟩
  · rintro ⟨_, _, _, _, hx⟩; cases hx
  · obtain ⟨-, rfl⟩ := Prod.mk.inj (Option.some.inj ha)
    rfl

theorem orderly_append (laws : net.Lawful opening follows) {h : H} {i : I} {entry : Entry E} {expected : Nat}
    (hc : (orderly o net opening follows root before).Calm t w)
    (hlen : (w.2.entries (net.streamOf h i)).length = expected)
    (hadmits : Admits net follows root t h i (w.2.entries (net.streamOf h i)) [entry]) {x}
    (ha : (o.host (E := E)).answer (.store (.append (net.streamOf h i) [entry] expected)) w = some (x, w')) :
    x = .ok (expected + 1) ∧
      Orderly net opening follows root before (t ++ [appended (net.streamOf h i) entry expected]) w'.2 := by
  obtain rfl : x = .ok (expected + 1) :=
    (Prod.mk.inj (Option.some.inj ha)).1.symm.trans (MemoryStore.append_of_length hlen [entry]).1
  refine ⟨rfl, hc.1.step (fun s => ?_) ?_ (fun h' i' => ?_) fun h' i' op hop => ?_⟩
  · exact (o.keeps s).added (fun hd => by cases hd) ha
  · rintro ⟨_, _, _, _, hx⟩; cases hx
  · unfold appended
    by_cases hs : net.streamOf h i = net.streamOf h' i'
    · -- no other instance has the stream
      obtain ⟨rfl, rfl⟩ := laws.streams hs
      rw [Exchange.added_append, if_pos rfl]
      exact hadmits
    · rw [Exchange.added_append, if_neg hs]
      exact .nothing
  · rw [performed_appended, startings_appended, hc.2 h' i' op hop]
    exact Nat.le_add_right _ _

theorem calm_started (laws : net.Lawful opening follows) {h : H} {i : I} (hnone : opening h i = none)
    (hc : (orderly o net opening follows root before).Calm t w)
    (hp : Orderly net opening follows root before (t ++ [appended (net.streamOf h i) .started 0]) w'.2) :
    (orderly o net opening follows root before).Calm (t ++ [appended (net.streamOf h i) .started 0]) w' := by
  refine ⟨hp, fun h' i' op hop => ?_⟩
  have hne : net.streamOf h i ≠ net.streamOf h' i' := by
    intro hs
    obtain ⟨rfl, rfl⟩ := laws.streams hs
    rw [hnone] at hop
    cases hop
  rw [performed_appended, startings_appended, if_neg fun hs => hne hs.1]
  exact hc.2 h' i' op hop

theorem calm_announced (laws : net.Lawful opening follows) {h : H} {i : I} {op : Ω.Op} (hop : opening h i = some op)
    (hc : (orderly o net opening follows root before).Calm t w)
    (hp : Orderly net opening follows root before (t ++ [appended (net.streamOf h i) .started 0]) w'.2) {x} {w''}
    (hw : w''.2 = w'.2) : (orderly o net opening follows root before).Calm
      (t ++ [appended (net.streamOf h i) .started 0] ++ [⟨.act op, x⟩]) w'' := by
  have hopened : ∀ h' i' op', opening h' i' = some op' →
      performed op' (t ++ [appended (net.streamOf h i) .started 0] ++ [⟨.act op, x⟩]) =
        startings (net.streamOf h' i') (t ++ [appended (net.streamOf h i) .started 0] ++ [⟨.act op, x⟩]) := by
    intro h' i' op' hop'
    rw [performed_append, startings_append, performed_appended, startings_appended, hc.2 h' i' op' hop']
    by_cases heq : op = op'
    · obtain ⟨rfl, rfl⟩ := laws.openings hop (heq ▸ hop')
      simp [performed, startings, heq, Exchange.added, Entry.isStart]
    · -- another instance, whose stream was left alone
      have hne : net.streamOf h i ≠ net.streamOf h' i' := by
        intro hs
        obtain ⟨rfl, rfl⟩ := laws.streams hs
        exact heq (Option.some.inj (hop.symm.trans hop'))
      simp [performed, startings, heq, hne, Exchange.added]
  refine ⟨hp.step (fun s => ?_) ?_ (fun h' i' => .nothing) (fun h' i' op' hop' => ?_), hopened⟩
  · rw [hw]; exact (List.append_nil _).symm
  · rintro ⟨_, _, _, _, hx⟩; cases hx
  · exact Nat.le_of_eq (hopened h' i' op' hop')

/-! ## Deliveries keep the discipline -/

section
variable (laws : net.Lawful opening follows) {serve : Service Ω H I E}
  (hserve : ∀ t f, Caused net follows root t f → ∀ m handler,
    Effect.Ready (orderly o net opening follows root before) (serve m handler f) t)
include hserve

theorem ready_effect {h : H} {i : I} {cause : Option E} {fx : Task Ω H E Unit}
    (hfx : Woven serve (fun op => ∀ h i, opening h i ≠ some op) (follows h i cause) fx)
    (hcause : cause.elim .started .received ∈ recorded (net.streamOf h i) t) :
    Effect.Ready (orderly o net opening follows root before) fx t :=
  hfx.ready (fun _ hop => ready_act hop) ready_mediator fun f hf => hserve t f (.inr ⟨h, i, cause, hcause, hf⟩)

include laws

theorem safe_record {h : H} {i : I} {e : E} {events : List E} {step} (hcause : Caused net follows root t ⟨i, e⟩)
    (hc : (orderly o net opening follows root before).Calm t w)
    (hnow : w.2.entries (net.streamOf h i) = Entry.history (some events))
    (ho : (((net.process serve h).initial i).advanceAll events).offer e = some step)
    {g : Option StoreError → Task Ω H E Unit} (hg : g none = .unit) :
    Effect.Safe (orderly o net opening follows root before)
      ((record (net.streamOf h i) (.received e) (Entry.history (some events)).length (conclude step.1)).bind g) t w := by
  have hadmits : Admits net follows root t h i (w.2.entries (net.streamOf h i)) [.received e] := by
    refine .event hnow (fun serve' => ?_) hcause
    have hsome := laws.accepts serve serve' h i events e (by rw [ho]; rfl)
    obtain ⟨step', hstep'⟩ := Option.isSome_iff_exists.mp hsome
    exact ⟨step'.1, _, step'.2, hnow ▸ (net.process serve' h).replay_history i events, hstep'⟩
  rw [record_bind]
  refine ⟨hc.1, fun x w' ha => ?_⟩
  obtain ⟨rfl, hnext⟩ := orderly_append laws hc (congrArg List.length hnow) hadmits ha
  have hcalm : (orderly o net opening follows root before).Calm
      (t ++ [appended (net.streamOf h i) (.received e) (Entry.history (some events)).length]) w' := by
    refine ⟨hnext, fun h' i' op hop => ?_⟩
    rw [performed_appended, startings_appended, if_neg fun hs => by cases hs.2]
    exact hc.2 h' i' op hop
  show Effect.Safe _ ((conclude step.1).bind g) _ w'
  rw [conclude_bind_of_unit step.1 hg]
  exact ready_effect hserve (laws.effects serve h i events e step ho) (mem_recorded_appended ..) _ w'
    List.prefix_rfl hcalm

theorem safe_proceed {h : H} {i : I} {e : E} (hcause : Caused net follows root t ⟨i, e⟩)
    (hc : (orderly o net opening follows root before).Calm t w) {g : Option StoreError → Task Ω H E Unit}
    (hg : g none = .unit) :
    Effect.Safe (orderly o net opening follows root before)
      (proceed (net.process serve h) i (net.streamOf h i) e g) t w := by
  obtain ⟨old, hold⟩ := hc.1.history h i
  refine ⟨hc.1, fun x w' ha => ?_⟩
  obtain ⟨hx, rfl⟩ := Prod.mk.inj (Option.some.inj ha)
  obtain rfl : x = .ok (Entry.history old) := hx.symm.trans (congrArg Except.ok hold)
  have hread : (orderly o net opening follows root before).Calm
      (t ++ [⟨.store (.load (net.streamOf h i) none), .ok (Entry.history old)⟩]) w :=
    calm_quiet hc (by rintro ⟨_, _, _, _, hx⟩; cases hx) (fun _ => rfl) (fun _ _ _ _ => rfl) rfl
  show Effect.Safe _ ((react (net.process serve h) i _ e (Entry.history old)).bind g) _ w
  cases old with
  | none => exact hread
  | some events =>
    have hr := (net.process serve h).replay_history i events
    cases ho : (((net.process serve h).initial i).advanceAll events).offer e with
    | none =>
      rw [react_of_ignored _ i _ e hr ho, Effect.pure_bind, hg]
      exact hread
    | some step =>
      rw [react_of_offer _ i _ e hr ho]
      exact safe_record laws hserve (hcause.mono (List.prefix_append _ _)) hread hold ho hg

theorem ready_proceed (h : H) {i : I} {e : E} (hcause : Caused net follows root t ⟨i, e⟩)
    {g : Option StoreError → Task Ω H E Unit} (hg : g none = .unit) :
    Effect.Ready (orderly o net opening follows root before)
      (proceed (net.process serve h) i (net.streamOf h i) e g) t :=
  fun _ _ hle hc => safe_proceed laws hserve (hcause.mono hle) hc hg

theorem safe_begin {h : H} {i : I} {e : E} (hcause : Caused net follows root t ⟨i, e⟩)
    (hc : (orderly o net opening follows root before).Calm t w) (hnone : w.2.entries (net.streamOf h i) = [])
    {g : Option StoreError → Task Ω H E Unit} (hg : g none = .unit) :
    Effect.Safe (orderly o net opening follows root before)
      ((record (net.streamOf h i) .started 0 (conclude ((net.process serve h).run i default).1)).bind
        (onward (net.process serve h) i (net.streamOf h i) e g)) t w := by
  obtain ⟨fx, hinitial, hfx⟩ := laws.initial serve h i
  rw [record_bind, hinitial]
  refine ⟨hc.1, fun x w' ha => ?_⟩
  obtain ⟨rfl, hnext⟩ := orderly_append laws hc (show _ = 0 by rw [hnone]; rfl) (.start hnone) ha
  show Effect.Safe _ ((conclude (announced (opening h i) fx)).bind _)
    (t ++ [appended (net.streamOf h i) .started 0]) w'
  rw [conclude_bind]
  have hfx' := ready_effect hserve hfx (mem_recorded_appended (net.streamOf h i) .started 0 t)
  have hproceed := ready_proceed laws hserve h
    (hcause.mono (List.prefix_append t [appended (net.streamOf h i) .started 0])) hg
  have hboth := hfx'.bind fun _ => hproceed
  cases hop : opening h i with
  | none => exact hboth _ w' List.prefix_rfl (calm_started laws hop hc hnext)
  | some op =>
    refine ⟨hnext, fun x w'' ha' => ?_⟩
    have hw : w''.2 = w'.2 := Outside.store_of_act ha'
    exact hboth _ w'' (List.prefix_append _ _) (calm_announced laws hop hc hnext hw)

theorem ready_deliver (h : H) {i : I} {e : E} (hcause : Caused net follows root t ⟨i, e⟩) :
    Effect.Ready (orderly o net opening follows root before)
      (deliver net.policy (net.process serve h) i (net.streamOf h i) e) t := by
  -- from here to the append there is no pause, so what is found still holds when it is made
  intro t' w hle hc
  unfold deliver
  rw [retrying_eq, attempt_bind]
  refine ⟨hc.1, fun x w' ha => ?_⟩
  obtain ⟨hx, rfl⟩ := Prod.mk.inj (Option.some.inj ha)
  have hlooked : (orderly o net opening follows root before).Calm
      (t' ++ [⟨.store (.contains (net.streamOf h i)), x⟩]) w :=
    calm_quiet hc (by rintro ⟨_, _, _, _, hx⟩; cases hx) (fun _ => rfl) (fun _ _ _ _ => rfl) rfl
  have hcause' := hcause.mono (hle.trans (List.prefix_append t' [⟨.store (.contains (net.streamOf h i)), x⟩]))
  cases hnow : w.2.entries (net.streamOf h i) with
  | nil =>
    obtain rfl : x = .ok false := hx.symm.trans (by simp [MemoryStore.call, hnow])
    exact safe_begin laws hserve hcause' hlooked hnow (again_none ..)
  | cons entry rest =>
    obtain rfl : x = .ok true := hx.symm.trans (by simp [MemoryStore.call, hnow])
    exact safe_proceed laws hserve hcause' hlooked (again_none ..)

end

theorem ready_service (laws : net.Lawful opening follows) (depth : Nat) {f : FollowUp I E}
    (hcause : Caused net follows root t f) (m : Mediator H) (handler : H) :
    Effect.Ready (orderly o net opening follows root before) (net.service depth m handler f) t := by
  induction depth generalizing t f m handler with
  | zero =>
    -- handlers are nested too deep: the run ends with a question that has no answer
    intro t' w _ hc
    refine ⟨hc.1, ?_⟩
    intro x
    cases (show Empty from x)
  | succ depth ih =>
    apply ready_deliver laws ?_ handler hcause
    intro t f hcause m handler
    exact ih hcause m handler

theorem Orderly.startings_eq {before store} (h : Orderly net opening follows root before t store)
    (hbefore : ∀ h i, ∃ old, before (net.streamOf h i) = Entry.history old) (i : H) (j : I) :
    startings (net.streamOf i j) t =
      if (before (net.streamOf i j)).isEmpty && !(store.entries (net.streamOf i j)).isEmpty then 1 else 0 := by
  obtain ⟨old, hold⟩ := hbefore i j
  obtain ⟨now, hnow⟩ := h.history i j
  have hkept := h.kept (net.streamOf i j)
  have hcount : (store.entries (net.streamOf i j)).countP Entry.isStart =
      (before (net.streamOf i j)).countP Entry.isStart + startings (net.streamOf i j) t := by
    rw [hkept, List.countP_append]; rfl
  rw [hnow, hold, Entry.countP_isStart_history, Entry.countP_isStart_history] at hcount
  rw [hnow, hold] at hkept ⊢
  cases old with
  | none => cases now <;> simpa using hcount.symm
  | some events =>
    cases now with
    | none => exact absurd hkept (by simp)
    | some events' => simpa using hcount.symm

/-- At every point of a run in which effects woven of deliveries are run in turn, whatever becomes of each:
no append was refused, the streams are well-formed histories of accepted events, every instance that was
started was started once and, as far as the run has come to a pause, has announced itself once, and every
recorded event came after what it follows from. -/
theorem reentrant_orderly (o : Outside Ω H V) (laws : net.Lawful opening follows) (depth : Nat)
    {calls : List (Task Ω H E Unit)}
    (hcalls : ∀ c ∈ calls, Woven (net.service depth) (fun op => ∀ h i, opening h i ≠ some op) root c)
    {w₀ : V × MemoryStore (Entry E)} (hold : ∀ h i, ∃ old, w₀.2.entries (net.streamOf h i) = Entry.history old)
    {r : Task Ω H E Unit} (reached : Effect.Reaches o.host (Effect.inTurn calls) w₀ t r w) :
    Orderly net opening follows root w₀.2.entries t w.2 ∧
      (∀ h i, startings (net.streamOf h i) t =
        if (w₀.2.entries (net.streamOf h i)).isEmpty && !(w.2.entries (net.streamOf h i)).isEmpty then 1 else 0) ∧
      ((∀ op next, r ≠ .call op next) →
        ∀ h i op, opening h i = some op → performed op t = startings (net.streamOf h i) t) := by
  have hstart : (orderly o net opening follows root w₀.2.entries).Calm [] w₀ := by
    refine ⟨⟨fun s => (List.append_nil _).symm, fun x hx => absurd hx List.not_mem_nil, hold,
      fun h i serve => .refl _ i _, fun _ _ _ _ => Nat.le_refl 0, fun h i e ht => ?_⟩, fun _ _ _ _ => rfl⟩
    exact absurd ht (by simp)
  have hmain : Effect.Ready (orderly o net opening follows root w₀.2.entries) (Effect.inTurn calls) [] := by
    apply Effect.ready_inTurn
    intro c hc
    refine (hcalls c hc).ready (fun _ hop => ready_act hop) ready_mediator ?_
    intro f hf m handler
    exact ready_service laws depth (.inl hf) m handler
  have hsafe := (hmain [] w₀ List.prefix_rfl hstart).reaches reached
  rw [List.nil_append] at hsafe
  refine ⟨hsafe.point, hsafe.point.startings_eq hold, fun hr => ?_⟩
  cases r with
  | pure a => exact hsafe.2
  | fail err => exact hsafe.2
  | pause time next => exact hsafe.1.2
  | call op next => exact absurd rfl (hr op next)

end

/-! ## Two sides that pass a number on -/

inductive Side where
  | near
  | far
  deriving DecidableEq

namespace Side

def name : Side → String
  | near => "near"
  | far => "far"

def other : Side → Side
  | near => far
  | far => near

instance : Instance Side := ⟨fun _ => "relay"⟩

theorem eq_of_name {side side' : Side} (h : side.name = side'.name) : side = side' := by
  revert h
  cases side <;> cases side' <;> decide

end Side

def pass (serve : Service ⟨String, fun _ => Unit⟩ Unit Side Nat) (side : Side) :
    Nat → Task ⟨String, fun _ => Unit⟩ Unit Nat Unit
  | 0 => .fail (.failed "dropped")
  | n + 1 =>
    (Effect.selectFirst .emptyRace
      [(Effect.joinAll [Process.sendAll serve side.other [n], Effect.pauses 1]).discard, Effect.pauses 2]).recover
      fun _ => .unit

def relay : Network ⟨String, fun _ => Unit⟩ Unit Side Nat where
  State _ := Unit
  Value _ := Unit
  inhabited _ := inferInstance
  policy := RetryPolicy.never.punctual
  process serve _ :=
    ⟨fun side _ => (Task.act side.name, ⟨Unit, (), fun _ => .inProgress () fun n => some (pass serve side n, ())⟩)⟩
  streamOf _ := Side.name

def relayOpening (_ : Unit) (side : Side) : Option String := some side.name

def relayFollows (_ : Unit) (side : Side) (cause : Option Nat) (f : FollowUp Side Nat) : Prop :=
  f.target = side.other ∧ cause = some (f.event + 1)

def relayRoot (f : FollowUp Side Nat) : Prop := f = ⟨.near, 2⟩

def relayCalls : List (Task ⟨String, fun _ => Unit⟩ Unit Nat Unit) := [relay.service 4 .empty () ⟨.near, 2⟩]

def relayWorld : Outside ⟨String, fun _ => Unit⟩ Unit (List String) where
  act name names := some ((), names ++ [name])
  mediator _ := Mediator.empty.onFollowUp "relay" ()
  wait _ names := names

theorem pass_woven (serve : Service ⟨String, fun _ => Unit⟩ Unit Side Nat) (side : Side) (n : Nat) :
    Woven serve (fun op => ∀ h i, relayOpening h i ≠ some op) (relayFollows () side (some n)) (pass serve side n) := by
  cases n with
  | zero => exact .fail _
  | succ n =>
    refine .recover (.selectFirst _ ?_) fun _ => .pure ()
    simp only [List.mem_cons, List.not_mem_nil, or_false, forall_eq_or_imp, forall_eq]
    refine ⟨(Woven.joinAll ?_).map _, .pause _ (.pause _ (.pure ()))⟩
    simp only [List.mem_cons, List.not_mem_nil, or_false, forall_eq_or_imp, forall_eq]
    refine ⟨.sendAll fun e he => ?_, .pause _ (.pure ())⟩
    exact ⟨rfl, by rw [List.mem_singleton.mp he]⟩

theorem relay_offer (serve : Service ⟨String, fun _ => Unit⟩ Unit Side Nat) (h : Unit) (side : Side)
    (events : List Nat) (e : Nat) :
    ((((relay.process serve h).initial side).advanceAll events).offer e).map (·.1) = some (pass serve side e) := by
  obtain ⟨place, hplace⟩ := ((relay.process serve h).initial side).exists_place events
  rw [hplace]
  rfl

theorem relay_lawful : relay.Lawful relayOpening relayFollows where
  streams hs := ⟨rfl, Side.eq_of_name hs⟩
  accepts serve serve' h side events e _ := by
    have hoffer := congrArg Option.isSome (relay_offer serve' h side events e)
    rwa [Option.isSome_map] at hoffer
  openings hop hop' := ⟨rfl, Side.eq_of_name (Option.some.inj (hop.trans hop'.symm))⟩
  initial serve h side := ⟨.unit, rfl, .pure ()⟩
  effects serve h side events e step ho := by
    have hoffer := relay_offer serve h side events e
    rw [ho] at hoffer
    have hpass : step.1 = pass serve side e := Option.some.inj hoffer
    rw [hpass]
    exact pass_woven serve side e

theorem reentrant_orderly_relay :
    relay.Lawful relayOpening relayFollows ∧
    (∀ c ∈ relayCalls, Woven (relay.service 4) (fun op => ∀ h i, relayOpening h i ≠ some op) relayRoot c) ∧
    (∀ h i, ∃ old, (MemoryStore.empty : MemoryStore (Entry Nat)).entries (relay.streamOf h i) = Entry.history old) ∧
    ((Effect.inTurn relayCalls).run relayWorld.host ([], .empty)).2 =
      (["near", "far"], ⟨[("near", [.started, .received 2, .received 0]), ("far", [.started, .received 1])]⟩) ∧
    ∃ t r, Effect.Reaches relayWorld.host (Effect.inTurn relayCalls) ([], .empty) t r
        ((Effect.inTurn relayCalls).run relayWorld.host ([], .empty)).2 ∧
      Orderly relay relayOpening relayFollows relayRoot MemoryStore.empty.entries t
        ((Effect.inTurn relayCalls).run relayWorld.host ([], .empty)).2.2 := by
  have hcalls : ∀ c ∈ relayCalls,
      Woven (relay.service 4) (fun op => ∀ h i, relayOpening h i ≠ some op) relayRoot c := by
    intro c hc
    rw [List.mem_singleton.mp hc]
    exact Woven.deliver (show relayRoot ⟨.near, 2⟩ from rfl) .empty ()
  have hold : ∀ h i, ∃ old,
      (MemoryStore.empty : MemoryStore (Entry Nat)).entries (relay.streamOf h i) = Entry.history old :=
    fun h i => ⟨none, rfl⟩
  obtain ⟨t, r, reached⟩ :=
    Effect.exists_reaches relayWorld.host (Effect.inTurn relayCalls) ([], .empty)
  refine ⟨relay_lawful, hcalls, hold, rfl, t, r, reached, ?_⟩
  exact (reentrant_orderly relayWorld relay_lawful 4 hcalls hold reached).1

end Workflow.Delivery

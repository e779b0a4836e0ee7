import Workflow.Host
import Workflow.Process.FollowUp
import Workflow.Store.Memory
import Workflow.Proofs.Effect.Sequence

/-!
# Where follow-up events go

A mediator finds the handler that was registered last under the very key, and the keys of two processes differ. Events
that an effect yields are sent in two turns: first the handlers are called, one after another, and when all have been
called what they yielded is run, one after another. Main statement: `followUps_routed`.
-/

namespace Workflow

variable {Ω : Signature} {H I S E W : Type}

/-! ## Keys -/

theorem followUpKey_inj {p q : String} : followUpKey p = followUpKey q ↔ p = q := by
  unfold followUpKey
  rw [← String.toList_inj, ← String.toList_inj, String.toList_append, String.toList_append]
  exact List.append_left_inj _

/-! ## Registrations -/

inductive Registration (H : Type) where
  | raw (key : String) (handler : H)
  | followUp (process : String) (handler : H)

namespace Registration

def key : Registration H → String
  | raw key _ => key
  | followUp process _ => followUpKey process

def handler : Registration H → H
  | raw _ handler => handler
  | followUp _ handler => handler

def apply (m : Mediator H) : Registration H → Mediator H
  | raw key handler => m.register key handler
  | followUp process handler => m.onFollowUp process handler

theorem apply_eq (m : Mediator H) (r : Registration H) : r.apply m = m.register r.key r.handler := by
  cases r <;> rfl

end Registration

namespace Mediator

variable {m m' : Mediator H} {key key' : String} {rs before after : List (Registration H)} {r : Registration H}

theorem handler?_register_self (m : Mediator H) (key : String) (handler : H) :
    (m.register key handler).handler? key = some handler :=
  List.lookup_cons_self

theorem lookup_filter_of_ne (handlers : List (String × H)) (h : key' ≠ key) :
    (handlers.filter (·.1 ≠ key)).lookup key' = handlers.lookup key' := by
  induction handlers with
  | nil => rfl
  | cons first rest ih =>
    by_cases hfirst : first.1 = key
    · have hbeq : (key' == first.1) = false := beq_false_of_ne (hfirst ▸ h)
      rw [List.filter_cons_of_neg (by simp [hfirst]), List.lookup_cons, hbeq]
      exact ih
    · rw [List.filter_cons_of_pos (by simp [hfirst]), List.lookup_cons, List.lookup_cons, ih]

theorem handler?_register_of_ne (m : Mediator H) (handler : H) (h : key' ≠ key) :
    (m.register key handler).handler? key' = m.handler? key' := by
  have hbeq : (key' == key) = false := beq_false_of_ne h
  show List.lookup key' ((key, handler) :: _) = _
  rw [List.lookup_cons, hbeq]
  exact lookup_filter_of_ne m.handlers h

/-- The mediator after these registrations, the last one last. All handles to a mediator share one table, so it does not
matter through which of them a handler is registered. -/
def registered (rs : List (Registration H)) : Mediator H :=
  rs.foldl Registration.apply .empty

theorem handler?_foldl_congr (h : m.handler? key = m'.handler? key) (rs : List (Registration H)) :
    (rs.foldl Registration.apply m).handler? key = (rs.foldl Registration.apply m').handler? key := by
  induction rs generalizing m m' with
  | nil => exact h
  | cons r rs ih =>
    refine ih ?_
    rw [r.apply_eq, r.apply_eq]
    by_cases hkey : key = r.key
    · rw [hkey, handler?_register_self, handler?_register_self]
    · rw [handler?_register_of_ne _ _ hkey, handler?_register_of_ne _ _ hkey, h]

theorem handler?_foldl_of_forall_ne (h : ∀ r ∈ rs, r.key ≠ key) :
    (rs.foldl Registration.apply m).handler? key = m.handler? key := by
  induction rs generalizing m with
  | nil => rfl
  | cons r rs ih =>
    have hne : key ≠ r.key := (h r List.mem_cons_self).symm
    show (rs.foldl Registration.apply (r.apply m)).handler? key = _
    rw [ih fun r' hr' => h r' (List.mem_cons_of_mem r hr'), r.apply_eq, handler?_register_of_ne _ _ hne]

theorem handler?_registered_of_latest (h : ∀ r' ∈ after, r'.key ≠ r.key) :
    (registered (before ++ r :: after)).handler? r.key = some r.handler := by
  unfold registered
  rw [List.foldl_append, List.foldl_cons, handler?_foldl_of_forall_ne h, r.apply_eq, handler?_register_self]

theorem exists_latest (h : ∃ r ∈ rs, r.key = key) :
    ∃ before r after, rs = before ++ r :: after ∧ r.key = key ∧ ∀ r' ∈ after, r'.key ≠ key := by
  induction rs with
  | nil => exact absurd h.choose_spec.1 List.not_mem_nil
  | cons first rs ih =>
    by_cases hrs : ∃ r ∈ rs, r.key = key
    · obtain ⟨before, r, after, rfl, hkey, hafter⟩ := ih hrs
      exact ⟨first :: before, r, after, rfl, hkey, hafter⟩
    · obtain ⟨r, hr, hkey⟩ := h
      rcases List.mem_cons.mp hr with rfl | hr
      · exact ⟨[], r, rs, rfl, hkey, fun r' hr' hkey' => hrs ⟨r', hr', hkey'⟩⟩
      · exact absurd ⟨r, hr, hkey⟩ hrs

theorem handler?_registered_iff {handler : H} : (registered rs).handler? key = some handler ↔
    ∃ before r after, rs = before ++ r :: after ∧ r.key = key ∧ r.handler = handler ∧ ∀ r' ∈ after, r'.key ≠ key := by
  constructor
  · intro h
    by_cases hrs : ∃ r ∈ rs, r.key = key
    · obtain ⟨before, r, after, rfl, rfl, hafter⟩ := exists_latest hrs
      rw [handler?_registered_of_latest hafter] at h
      exact ⟨before, r, after, rfl, rfl, Option.some_inj.mp h, hafter⟩
    · have hne : ∀ r ∈ rs, r.key ≠ key := fun r hr hkey => hrs ⟨r, hr, hkey⟩
      unfold registered at h
      rw [handler?_foldl_of_forall_ne hne] at h
      cases h
  · rintro ⟨before, r, after, rfl, rfl, rfl, hafter⟩
    exact handler?_registered_of_latest hafter

theorem handler?_registered_of_ne (h : key ≠ r.key) :
    (registered (before ++ r :: after)).handler? key = (registered (before ++ after)).handler? key := by
  unfold registered
  rw [List.foldl_append, List.foldl_append]
  refine handler?_foldl_congr ?_ after
  rw [r.apply_eq, handler?_register_of_ne _ _ h]

end Mediator

/-! ## Calls -/

open Effect

section
variable [Instance I] (call : Calling Ω H I E) (host : Host (requests Ω H E) W)

def lookup (m : Mediator H) : Occurrence (requests Ω H E) :=
  .exchange ⟨.mediator, m⟩

theorem run_send (f : FollowUp I E) (w : W) :
    (call.send f).run host w =
      match host.answer .mediator w with
      | none => (.stopped, w)
      | some (m, w') =>
        match m.handler? f.key with
        | some handler => (call m handler f).run host w'
        | none => (.done .unit, w') := by
  show Effect.run host (.call .mediator fun m => m.route (call m) (.pure .unit) f) w = _
  rw [run_call]
  cases host.answer .mediator w with
  | none => rfl
  | some answered =>
    dsimp only
    unfold Mediator.route
    cases answered.1.handler? f.key <;> rfl

theorem chronicle_send (f : FollowUp I E) (w : W) :
    (call.send f).chronicle host w =
      match host.answer .mediator w with
      | none => []
      | some (m, w') => lookup m ::
        match m.handler? f.key with
        | some handler => (call m handler f).chronicle host w'
        | none => [] := by
  show Effect.chronicle host (.call .mediator fun m => m.route (call m) (.pure .unit) f) w = _
  rw [chronicle_call]
  cases host.answer .mediator w with
  | none => rfl
  | some answered =>
    dsimp only
    unfold Mediator.route lookup
    cases answered.1.handler? f.key <;> rfl

/-! ## Two turns -/

/-- What becomes of events: their handlers are called in turn, and when all have been called what they yielded is run
in turn; or not all calls come to an end, and nothing is run. -/
inductive Sent (i : I) (events : List E) (w : W) :
    Outcome Failure Unit → List (Occurrence (requests Ω H E)) → W → Prop
  | called {deliveries c w₁ outcome c' w₂}
      (calls : InTurn host (events.map fun event => call.send ⟨i, event⟩) w (.done deliveries) c w₁)
      (runs : InTurn host deliveries w₁ outcome c' w₂) : Sent i events w outcome.discard (c ++ c') w₂
  | uncalled {outcome c w₁}
      (calls : InTurn host (events.map fun event => call.send ⟨i, event⟩) w outcome c w₁)
      (h : outcome.isDone = false) : Sent i events w outcome.discard c w₁

theorem sent_sendWith (i : I) (events : List E) (w : W) :
    Sent call host i events w ((Process.sendWith call i events).run host w).1
      ((Process.sendWith call i events).chronicle host w) ((Process.sendWith call i events).run host w).2 := by
  have calls := inTurn_sequence host (events.map fun event => call.send ⟨i, event⟩) w
  unfold Process.sendWith Effect.traverse
  rw [run_bind, chronicle_bind]
  revert calls
  generalize (Effect.sequence _).run host w = first
  generalize (Effect.sequence _).chronicle host w = c
  obtain ⟨outcome, w₁⟩ := first
  intro calls
  cases outcome with
  | failed err =>
    rw [List.append_nil]
    exact .uncalled calls rfl
  | stopped =>
    rw [List.append_nil]
    exact .uncalled calls rfl
  | done deliveries =>
    dsimp only
    rw [run_discard, chronicle_discard]
    exact .called calls (inTurn_sequence host deliveries w₁)

/-! ## Calls that change nothing -/

theorem run_sendWith_of_steady {i : I} {events : List E} {w : W} {delivery : E → Task Ω H E Unit}
    (h : ∀ event ∈ events, (call.send ⟨i, event⟩).run host w = (.done (delivery event), w)) :
    let deliveries := Effect.sequence (events.map delivery)
    (Process.sendWith call i events).run host w = ((deliveries.run host w).1.discard, (deliveries.run host w).2) ∧
      (Process.sendWith call i events).chronicle host w =
        (events.flatMap fun event => (call.send ⟨i, event⟩).chronicle host w) ++ deliveries.chronicle host w := by
  intro deliveries
  obtain ⟨hrun, hchronicle⟩ := run_traverse_of_steady h
  unfold Process.sendWith
  rw [run_bind, chronicle_bind, hrun, hchronicle]
  dsimp only
  rw [run_discard, chronicle_discard]
  exact ⟨rfl, rfl⟩

end

section
variable [Instance I] (parts : HostParts Ω H E W)

theorem run_sendWith_of_unhandled (call : Calling Ω H I E) {i : I} {w : W} (events : List E)
    (h : (parts.mediator w).handler? (followUpKey (Instance.processName i)) = none) :
    (Process.sendWith call i events).run parts.host w = (.done (), w) ∧
      (Process.sendWith call i events).chronicle parts.host w = events.map fun _ => lookup (parts.mediator w) := by
  have hanswer : parts.host.answer .mediator w = some (parts.mediator w, w) := rfl
  have hsend (event : E) : (call.send ⟨i, event⟩).run parts.host w = (.done .unit, w) := by
    rw [run_send, hanswer]
    dsimp only
    rw [FollowUp.key, h]
  have hlook (event : E) : (call.send ⟨i, event⟩).chronicle parts.host w = [lookup (parts.mediator w)] := by
    rw [chronicle_send, hanswer]
    dsimp only
    rw [FollowUp.key, h]
  obtain ⟨hrun, hchronicle⟩ := run_sendWith_of_steady call parts.host fun event _ => hsend event
  have hunit (event : E) : (unit : Task Ω H E Unit).run parts.host w = (.done (), w) := rfl
  obtain ⟨hunits, hquiet⟩ := run_traverse_of_steady fun event (_ : event ∈ events) => hunit event
  unfold Effect.traverse at hunits hquiet
  have hlooks : (events.flatMap fun event => (call.send ⟨i, event⟩).chronicle parts.host w) =
      events.map fun _ => lookup (parts.mediator w) := by
    simp only [hlook, List.map_eq_flatMap]
  have hnone : (events.flatMap fun _ => (unit : Task Ω H E Unit).chronicle parts.host w) = [] :=
    List.flatMap_eq_nil_iff.mpr fun _ _ => rfl
  rw [hrun, hchronicle, hunits, hquiet, hlooks, hnone, List.append_nil]
  exact ⟨rfl, rfl⟩

theorem run_sendAll_of_handled (serve : Service Ω H I E) {i : I} {w : W} {handler : H} (events : List E)
    (h : (parts.mediator w).handler? (followUpKey (Instance.processName i)) = some handler) :
    ∃ outcome c w',
      InTurn parts.host (events.map fun event => serve (parts.mediator w) handler ⟨i, event⟩) w outcome c w' ∧
      (Process.sendAll serve i events).run parts.host w = (outcome.discard, w') ∧
      (Process.sendAll serve i events).chronicle parts.host w =
        (events.map fun _ => lookup (parts.mediator w)) ++ c := by
  have hanswer : parts.host.answer .mediator w = some (parts.mediator w, w) := rfl
  have hsend (event : E) : (serve.calling.send ⟨i, event⟩).run parts.host w =
      (.done (serve (parts.mediator w) handler ⟨i, event⟩), w) := by
    rw [run_send, hanswer]
    dsimp only
    rw [FollowUp.key, h]
    rfl
  have hlook (event : E) : (serve.calling.send ⟨i, event⟩).chronicle parts.host w =
      [lookup (parts.mediator w)] := by
    rw [chronicle_send, hanswer]
    dsimp only
    rw [FollowUp.key, h]
    rfl
  obtain ⟨hrun, hchronicle⟩ := run_sendWith_of_steady serve.calling parts.host fun event _ => hsend event
  refine ⟨_, _, _, inTurn_sequence parts.host _ w, hrun, ?_⟩
  rw [Process.sendAll, hchronicle]
  simp only [hlook, List.map_eq_flatMap]

end

/-! ## Effects that yield events -/

section
variable [Instance I] (i : I) (s : S) {w w₁ : W}

theorem run_enqueueWith (call : Calling Ω H I E) (host : Host (requests Ω H E) W) (events : Task Ω H E (List E))
    (w : W) :
    let enqueued := ((Process.enqueueWith call events).run i s).1
    match events.run host w with
    | (.done yielded, w₁) => ∃ outcome c w₂, Sent call host i yielded w₁ outcome c w₂ ∧
        enqueued.run host w = (outcome, w₂) ∧ enqueued.chronicle host w = events.chronicle host w ++ c
    | (.failed err, w₁) => enqueued.run host w = (.failed err, w₁) ∧
        enqueued.chronicle host w = events.chronicle host w
    | (.stopped, w₁) => enqueued.run host w = (.stopped, w₁) ∧
        enqueued.chronicle host w = events.chronicle host w := by
  intro enqueued
  have hrun : enqueued.run host w = _ := run_bind host events (Process.sendWith call i) w
  have hchronicle : enqueued.chronicle host w = _ := chronicle_bind host events (Process.sendWith call i) w
  cases hevents : events.run host w with
  | mk outcome w₁ =>
    rw [hevents] at hrun hchronicle
    cases outcome with
    | done yielded => exact ⟨_, _, _, sent_sendWith call host i yielded w₁, hrun, hchronicle⟩
    | failed err => exact ⟨hrun, hchronicle.trans (List.append_nil _)⟩
    | stopped => exact ⟨hrun, hchronicle.trans (List.append_nil _)⟩

theorem run_enqueueWith_of_unhandled {call : Calling Ω H I E} {parts : HostParts Ω H E W}
    {events : Task Ω H E (List E)} {yielded : List E} (hevents : events.run parts.host w = (.done yielded, w₁))
    (hnone : (parts.mediator w₁).handler? (followUpKey (Instance.processName i)) = none) :
    let enqueued := ((Process.enqueueWith call events).run i s).1
    enqueued.run parts.host w = (.done (), w₁) ∧ enqueued.chronicle parts.host w =
      events.chronicle parts.host w ++ yielded.map fun _ => lookup (parts.mediator w₁) := by
  intro enqueued
  have hrun : enqueued.run parts.host w = _ := run_bind parts.host events (Process.sendWith call i) w
  have hchronicle : enqueued.chronicle parts.host w = _ :=
    chronicle_bind parts.host events (Process.sendWith call i) w
  obtain ⟨hsent, hlooks⟩ := run_sendWith_of_unhandled parts call yielded hnone
  rw [hrun, hchronicle, hevents]
  exact ⟨hsent, congrArg _ hlooks⟩

theorem run_enqueue_of_handled {serve : Service Ω H I E} {parts : HostParts Ω H E W} {events : Task Ω H E (List E)}
    {yielded : List E} {handler : H} (hevents : events.run parts.host w = (.done yielded, w₁))
    (hhandler : (parts.mediator w₁).handler? (followUpKey (Instance.processName i)) = some handler) :
    let enqueued := ((Process.enqueue serve events).run i s).1
    ∃ outcome c w₂,
      InTurn parts.host (yielded.map fun event => serve (parts.mediator w₁) handler ⟨i, event⟩) w₁ outcome c w₂ ∧
      enqueued.run parts.host w = (outcome.discard, w₂) ∧
      enqueued.chronicle parts.host w = events.chronicle parts.host w ++
        (yielded.map fun _ => lookup (parts.mediator w₁)) ++ c := by
  intro enqueued
  have hrun : enqueued.run parts.host w = _ := run_bind parts.host events (Process.sendAll serve i) w
  have hchronicle : enqueued.chronicle parts.host w = _ :=
    chronicle_bind parts.host events (Process.sendAll serve i) w
  obtain ⟨outcome, c, w₂, hturn, hsent, hlooks⟩ := run_sendAll_of_handled parts serve yielded hhandler
  refine ⟨outcome, c, w₂, hturn, ?_, ?_⟩
  · rw [hrun, hevents]
    exact hsent
  · rw [hchronicle, hevents, List.append_assoc]
    exact congrArg _ hlooks

end

/-- A handler is the one registered last under the very key, and other processes have other keys. The effect is run
first; if it fails no handler is called. What it yields is sent, each event to the handler of that moment: without one
it is dropped. -/
theorem followUps_routed [Instance I] :
    (∀ (rs : List (Registration H)) (key : String) (handler : H), (Mediator.registered rs).handler? key = some handler ↔
      ∃ before r after, rs = before ++ r :: after ∧ r.key = key ∧ r.handler = handler ∧ ∀ r' ∈ after, r'.key ≠ key) ∧
    (∀ (before after : List (Registration H)) (p q : String) (handler : H), p ≠ q →
      (Mediator.registered (before ++ .followUp q handler :: after)).handler? (followUpKey p) =
        (Mediator.registered (before ++ after)).handler? (followUpKey p)) ∧
    (∀ (call : Calling Ω H I E) (host : Host (requests Ω H E) W) (f : FollowUp I E) (w : W),
      (call.send f).run host w =
        (match host.answer .mediator w with
        | none => (.stopped, w)
        | some (m, w') =>
          match m.handler? (followUpKey (Instance.processName f.target)) with
          | some handler => (call m handler f).run host w'
          | none => (.done .unit, w')) ∧
      (call.send f).chronicle host w =
        match host.answer .mediator w with
        | none => []
        | some (m, w') => lookup m ::
          match m.handler? (followUpKey (Instance.processName f.target)) with
          | some handler => (call m handler f).chronicle host w'
          | none => []) ∧
    (∀ (call : Calling Ω H I E) (host : Host (requests Ω H E) W) (events : Task Ω H E (List E)) (i : I) (s : S) (w : W),
      let enqueued := ((Process.enqueueWith call events).run i s).1
      match events.run host w with
      | (.done yielded, w₁) => ∃ outcome c w₂, Sent call host i yielded w₁ outcome c w₂ ∧
          enqueued.run host w = (outcome, w₂) ∧ enqueued.chronicle host w = events.chronicle host w ++ c
      | (.failed err, w₁) => enqueued.run host w = (.failed err, w₁) ∧
          enqueued.chronicle host w = events.chronicle host w
      | (.stopped, w₁) => enqueued.run host w = (.stopped, w₁) ∧
          enqueued.chronicle host w = events.chronicle host w) ∧
    (∀ (call : Calling Ω H I E) (parts : HostParts Ω H E W) (events : Task Ω H E (List E)) (i : I) (s : S)
      (yielded : List E) (w w₁ : W), events.run parts.host w = (.done yielded, w₁) →
      (parts.mediator w₁).handler? (followUpKey (Instance.processName i)) = none →
      let enqueued := ((Process.enqueueWith call events).run i s).1
      enqueued.run parts.host w = (.done (), w₁) ∧ enqueued.chronicle parts.host w =
        events.chronicle parts.host w ++ yielded.map fun _ => lookup (parts.mediator w₁)) ∧
    ∀ (serve : Service Ω H I E) (parts : HostParts Ω H E W) (events : Task Ω H E (List E)) (i : I) (s : S)
      (yielded : List E) (handler : H) (w w₁ : W), events.run parts.host w = (.done yielded, w₁) →
      (parts.mediator w₁).handler? (followUpKey (Instance.processName i)) = some handler →
      let enqueued := ((Process.enqueue serve events).run i s).1
      ∃ outcome c w₂,
        InTurn parts.host (yielded.map fun event => serve (parts.mediator w₁) handler ⟨i, event⟩) w₁ outcome c w₂ ∧
        enqueued.run parts.host w = (outcome.discard, w₂) ∧
        enqueued.chronicle parts.host w = events.chronicle parts.host w ++
          (yielded.map fun _ => lookup (parts.mediator w₁)) ++ c := by
  refine ⟨fun _ _ _ => Mediator.handler?_registered_iff, ?_, ?_, ?_, ?_, ?_⟩
  · intro before after p q handler hpq
    exact Mediator.handler?_registered_of_ne fun hkey => hpq (followUpKey_inj.mp hkey)
  · exact fun call host f w => ⟨run_send call host f w, chronicle_send call host f w⟩
  · exact fun call host events i s w => run_enqueueWith i s call host events w
  · exact fun _ _ _ i s _ _ _ => run_enqueueWith_of_unhandled i s
  · exact fun _ _ _ i s _ _ _ _ => run_enqueue_of_handled i s

def postRoom (rs : List (Registration Nat)) : HostParts chores Nat Nat (List String × Nat) where
  act := scribe.answer
  store call w := ((MemoryStore.call call .empty).1, w)
  mediator _ := .registered rs
  wait _ w := w

/-- The second of three letters is lost, so the third stays where it is; all had been announced before. Letters to
others are dropped. -/
theorem followUps_routed_lost :
    let rs : List (Registration Nat) := [.followUp "billing" 0, .raw "billing.enqueueEvent" 1, .followUp "orders" 2]
    let jot (entry : String) : Task chores Nat Nat Unit := Task.act (Ω := chores) (.note entry)
    let serve : Service chores Nat InstanceId Nat := fun _ _ f =>
      (jot "carried").bind fun _ => if f.event = 7 then .fail (.failed "lost") else .unit
    let call : Calling chores Nat InstanceId Nat := fun m handler f => (jot "announced").map fun _ => serve m handler f
    let letters : Task chores Nat Nat (List Nat) := (jot "written").map fun _ => [5, 7, 9]
    let bill : InstanceId := ⟨"billing", "1"⟩
    let left : List String := ["written", "announced", "announced", "announced", "carried", "carried"]
    "billing" ≠ "orders" ∧
    (Mediator.registered rs).handler? (followUpKey "billing") = some 1 ∧
    (∃ c, Sent call (postRoom rs).host bill [5, 7, 9] (["written"], 0) (.failed (.failed "lost")) c (left, 0)) ∧
    (∃ c, InTurn (postRoom rs).host ([5, 7, 9].map fun letter => serve (.registered rs) 1 ⟨bill, letter⟩)
      (["written"], 0) (.failed (.failed "lost")) c (["written", "carried", "carried"], 0)) ∧
    ((Process.enqueue (S := Unit) serve letters).run ⟨"mail", "1"⟩ ()).1.run (postRoom rs).host ([], 0) =
      (.done (), ["written"], 0) := by
  intro rs jot serve call letters bill left
  obtain ⟨-, hother, -, hsent, hnone, hsome⟩ :=
    followUps_routed (Ω := chores) (H := Nat) (I := InstanceId) (S := Unit) (E := Nat) (W := List String × Nat)
  have hne : "billing" ≠ "orders" := by decide
  have hletters : letters.run (postRoom rs).host ([], 0) = (.done [5, 7, 9], ["written"], 0) := rfl
  refine ⟨hne, ?_, ?_, ?_, ?_⟩
  · exact (hother [.followUp "billing" 0, .raw "billing.enqueueEvent" 1] [] "billing" "orders" 2 hne).trans rfl
  · obtain ⟨outcome, c, w₂, h, hrun, -⟩ := hsent call (postRoom rs).host letters bill () ([], 0)
    obtain ⟨rfl, rfl⟩ := Prod.mk.inj (hrun.symm.trans rfl : _ = (.failed (.failed "lost"), left, 0))
    exact ⟨c, h⟩
  · obtain ⟨outcome, c, w₂, h, hrun, -⟩ := hsome serve (postRoom rs) letters bill () [5, 7, 9] 1 ([], 0) _ hletters rfl
    have hend := hrun.symm.trans
      (rfl : _ = (Outcome.failed (Failure.failed "lost"), ["written", "carried", "carried"], 0))
    cases outcome <;> cases hend
    exact ⟨c, h⟩
  · exact (hnone serve.calling (postRoom rs) letters ⟨"mail", "1"⟩ () [5, 7, 9] ([], 0) _ hletters rfl).1

end Workflow

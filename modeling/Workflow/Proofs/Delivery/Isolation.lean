import Workflow.Proofs.Delivery.Errors
import Workflow.Proofs.Instance

/-!
# Instances side by side

Calls for several instances, each made with the conventional name of its stream, share one store in memory and one
world outside. Main statement: `instances_isolated`. What is known of an instance is not touched by the calls for
another one, unless the two share a stream (`instances_entangled`).
-/

namespace Workflow.Delivery

open Effect (runAll)

variable {Ω : Signature} {H E V : Type}

/-! ## Calls for instances -/

inductive Job (Ω : Signature) (H E : Type) : Type 1 where
  | deliver {S R : Type} [Inhabited S] (policy : PacedPolicy) (p : Definition Ω H InstanceId S E R) (id : InstanceId)
      (event : E)
  | start {S R : Type} [Inhabited S] (p : Definition Ω H InstanceId S E R) (id : InstanceId)
  | clear (id : InstanceId)

namespace Job

def id : Job Ω H E → InstanceId
  | deliver _ _ id _ => id
  | start _ id => id
  | clear id => id

def task : Job Ω H E → Task Ω H E Unit
  | deliver policy p id event => Delivery.deliver policy p id id.stream event
  | start p id => Delivery.start p id id.stream
  | clear id => Delivery.clear id.stream

/-- The effects of the process that the call is made with use neither the store nor the mediator. -/
def Acts : Job Ω H E → Prop
  | deliver _ p id _ => p.Asks Request.IsAct id
  | start p id => p.Asks Request.IsAct id
  | clear _ => True

/-- Whether the initial effect ends well, if the call is a delivery that starts its stream. -/
def opening (o : Outside Ω H V) : Job Ω H E → V × MemoryStore (Entry E) → Option Bool
  | deliver _ p id _, w =>
    if (w.2.entries id.stream).isEmpty then some ((p.run id default).1.run o.alone w.1).1.isDone else none
  | _, _ => none

/-- The events of the stream after the call: `none` if it is missing. -/
def after : Job Ω H E → Option (List E) → Option Bool → Option (List E)
  | deliver _ p id event, none, some true => some ((p.initial id).accepted [event])
  | deliver _ p id event, some old, _ => some (old ++ ((p.initial id).advanceAll old).accepted [event])
  | start _ _, some old, _ => some old
  | clear _, _, _ => none
  | _, none, _ => some []

end Job

/-! ## One call -/

section
variable {job : Job Ω H E} {stream : String}

theorem Job.spares (hacts : job.Acts) (hne : job.id.stream ≠ stream) : job.task.Asks (Request.Spares stream) := by
  cases job with
  | deliver policy p id event =>
    refine Effect.asks_of_leads fun t op next h => ?_
    cases (standing_of_leads h).pending rfl with
    | opening hv => exact (hv.asks hacts.1).2.1.spares stream
    | running htransition hv => exact (hv.asks (Process.Asks.transition hacts htransition)).2.1.spares stream
    | _ => exact hne
  | start p id =>
    refine Effect.asks_of_leads fun t op next h => ?_
    obtain ⟨g, hstart, hnone, hsome⟩ := start_eq p id id.stream
    change (Delivery.start p id id.stream).Leads t _ at h
    rw [hstart] at h
    rcases leads_of_record h with ⟨-, hr⟩ | ⟨e, t, -, -, hlost⟩ | ⟨e, -, -, hr⟩ | ⟨version, t, -, hrun⟩
    · rw [record_bind_eq] at hr
      cases hr
      exact hne
    · rw [hsome] at hlost
      cases hlost.of_fail.2
    · cases hr
    · rw [conclude_bind_of_unit _ hnone] at hrun
      exact (hrun.asks hacts.1).2.1.spares stream
  | clear id => exact (asks_clear id.stream).imp fun op hop => hop ▸ hne

variable (o : Outside Ω H V)

theorem Job.entries_of_ne (hacts : job.Acts) (hne : job.id.stream ≠ stream) (w : V × MemoryStore (Entry E)) :
    (job.task.run o.host w).2.2.entries stream = w.2.entries stream :=
  (o.keeps stream).run (job.spares hacts hne) w

theorem Job.entries_after (hacts : job.Acts) {w : V × MemoryStore (Entry E)} {old : Option (List E)}
    (hold : w.2.entries job.id.stream = Entry.history old) :
    (job.task.run o.host w).2.2.entries job.id.stream = Entry.history (job.after old (job.opening o w)) := by
  obtain ⟨v, store⟩ := w
  cases job with
  | deliver policy p id event =>
    have hs : store.entries id.stream = Entry.history old := hold
    show ((Delivery.deliver policy p id id.stream event).run o.host (v, store)).2.2.entries id.stream = _
    unfold opening
    dsimp only
    cases old with
    | none =>
      rw [(run_deliver_missing o policy hacts hs v event).entries, liveStart_entries, hs]
      cases ((p.run id default).1.run o.alone v).1.isDone <;> rfl
    | some old =>
      rw [(run_deliver_started o policy hacts hs v event).entries, liveStep_entries, hs, Entry.history_append]
      rfl
  | start p id =>
    have hs : store.entries id.stream = Entry.history old := hold
    show ((Delivery.start p id id.stream).run o.host (v, store)).2.2.entries id.stream = _
    cases old with
    | none => rw [run_start_missing o hacts.1 hs]; exact entries_started hs
    | some old => rw [run_start_started o (hs ▸ List.cons_ne_nil _ _)]; exact hs
  | clear id =>
    show ((Delivery.clear id.stream).run o.host (v, store)).2.2.entries id.stream = _
    rw [run_clear]
    exact MemoryStore.entries_erase_self store id.stream

end

/-! ## Calls one after another -/

section
variable (o : Outside Ω H V)

def endings (stream : String) : List (Job Ω H E) → V × MemoryStore (Entry E) → List Bool
  | [], _ => []
  | job :: jobs, w =>
    (if job.id.stream = stream then (job.opening o w).toList else []) ++
      endings stream jobs (job.task.run o.host w).2

variable {job : Job Ω H E} {stream : String}

theorem Job.isSome_opening {w w' : V × MemoryStore (Entry E)}
    (h : w'.2.entries job.id.stream = w.2.entries job.id.stream) :
    (job.opening o w').isSome = (job.opening o w).isSome := by
  cases job with
  | deliver policy p id event =>
    have hid : w'.2.entries id.stream = w.2.entries id.stream := h
    unfold opening
    dsimp only
    rw [hid]
    split <;> rfl
  | _ => rfl

theorem toList_append_inj {x y : Option Bool} {rest rest' : List Bool} (hsome : x.isSome = y.isSome)
    (h : x.toList ++ rest = y.toList ++ rest') : x = y ∧ rest = rest' := by
  match x, y with
  | none, none => exact ⟨rfl, h⟩
  | some x, some y =>
    obtain ⟨rfl, hrest⟩ := List.cons.inj h
    exact ⟨rfl, hrest⟩
  | none, some _ => cases hsome
  | some _, none => cases hsome

theorem entries_of_filter {a : InstanceId} (ha : a.stream ≠ stream) {jobs : List (Job Ω H E)}
    (hacts : ∀ job ∈ jobs, job.Acts) {w w' : V × MemoryStore (Entry E)} {old : Option (List E)}
    (hold : w.2.entries stream = Entry.history old) (hold' : w'.2.entries stream = Entry.history old)
    (hend : endings o stream jobs w = endings o stream (jobs.filter (·.id ≠ a)) w') :
    (runAll o.host (jobs.map Job.task) w).2.2.entries stream =
      (runAll o.host ((jobs.filter (·.id ≠ a)).map Job.task) w').2.2.entries stream := by
  induction jobs generalizing w w' old with
  | nil => exact hold.trans hold'.symm
  | cons job jobs ih =>
    have hjob := hacts job List.mem_cons_self
    have hjobs : ∀ job ∈ jobs, job.Acts := fun other h => hacts other (List.mem_cons_of_mem job h)
    by_cases hid : job.id = a
    · -- one run leaves the call out, and in the other it spares the stream
      have hne : job.id.stream ≠ stream := hid ▸ ha
      rw [List.filter_cons_of_neg (by simp [hid])] at hend ⊢
      rw [endings, if_neg hne, List.nil_append] at hend
      exact ih hjobs ((job.entries_of_ne o hjob hne w).trans hold) hold' hend
    · rw [List.filter_cons_of_pos (by simp [hid])] at hend ⊢
      rw [endings, endings] at hend
      by_cases hon : job.id.stream = stream
      · -- both runs find the stream alike, so the call starts it in both or in neither
        subst hon
        rw [if_pos rfl, if_pos rfl] at hend
        have hsome := job.isSome_opening o (hold.trans hold'.symm)
        obtain ⟨hsame, hrest⟩ := toList_append_inj hsome hend
        exact ih hjobs (job.entries_after o hjob hold) (hsame ▸ job.entries_after o hjob hold') hrest
      · rw [if_neg hon, if_neg hon, List.nil_append, List.nil_append] at hend
        exact ih hjobs ((job.entries_of_ne o hjob hon w).trans hold)
          ((job.entries_of_ne o hjob hon w').trans hold') hend

/-! ## What is known of an instance -/

def Accepts {S R : Type} [Inhabited S] (p : Definition Ω H InstanceId S E R) (id : InstanceId)
    (w : V × MemoryStore (Entry E)) (event : E) : Prop :=
  ∃ node, ((inspect p id id.stream).run o.host w).1 = .done node ∧ (node.offer event).isSome

structure Unmoved (id : InstanceId) (w w' : V × MemoryStore (Entry E)) : Prop where
  entries : w'.2.entries id.stream = w.2.entries id.stream
  node {S R : Type} [Inhabited S] (p : Definition Ω H InstanceId S E R) :
    ((inspect p id id.stream).run o.host w').1 = ((inspect p id id.stream).run o.host w).1
  accepts {S R : Type} [Inhabited S] (p : Definition Ω H InstanceId S E R) (event : E) :
    Accepts o p id w' event ↔ Accepts o p id w event

theorem unmoved_of_entries {id : InstanceId} {w w' : V × MemoryStore (Entry E)}
    (h : w'.2.entries id.stream = w.2.entries id.stream) : Unmoved o id w w' where
  entries := h
  node p := run_inspect_congr o h
  accepts p event := by unfold Accepts; rw [run_inspect_congr o h]

/-- Two instances share a stream just if they are the same, or one is the other with its separator moved. If they do
not, no call for one of them changes what is known of the other. Nor does it matter to the other whether the calls
for the first are made at all, as long as the initial effects that its own deliveries run end alike. -/
theorem instances_isolated : (∀ a b : InstanceId, a.stream = b.stream ↔ a = b ∨ a.Splits b ∨ b.Splits a) ∧
    ∀ a b : InstanceId, a ≠ b → ¬ a.Splits b → ¬ b.Splits a →
      (∀ job : Job Ω H E, job.id = a → job.Acts → ∀ w, Unmoved o b w (job.task.run o.host w).2) ∧
      ∀ (jobs : List (Job Ω H E)) (v : V), (∀ job ∈ jobs, job.Acts) →
        endings o b.stream jobs (v, .empty) = endings o b.stream (jobs.filter (·.id ≠ a)) (v, .empty) →
        Unmoved o b (runAll o.host ((jobs.filter (·.id ≠ a)).map Job.task) (v, .empty)).2
          (runAll o.host (jobs.map Job.task) (v, .empty)).2 := by
  refine ⟨InstanceId.stream_eq_iff, fun a b hne hab hba => ?_⟩
  have hstream : a.stream ≠ b.stream := fun h => by
    rcases (InstanceId.stream_eq_iff a b).mp h with h | h | h
    · exact hne h
    · exact hab h
    · exact hba h
  constructor
  · rintro job rfl hacts w
    exact unmoved_of_entries o (job.entries_of_ne o hacts hstream w)
  · intro jobs v hacts hend
    have hempty : (MemoryStore.empty : MemoryStore (Entry E)).entries b.stream = Entry.history none := rfl
    exact unmoved_of_entries o (entries_of_filter o hstream hacts hempty hempty hend)

end

def once : Definition ⟨Unit, fun _ => Nat⟩ Empty InstanceId Unit Nat Unit where
  run _ _ := ((Task.act ()).bind fun (begun : Nat) => if begun = 0 then .unit else .fail (.failed "late"),
    ⟨Bool, false, fun taken => if taken then .succeeded () () else .inProgress () fun _ => some (.unit, true)⟩)

def counting : Outside ⟨Unit, fun _ => Nat⟩ Empty Nat where
  act _ n := some (n, n + 1)
  mediator _ := .empty
  wait _ n := n

theorem once_acts (id : InstanceId) : once.Asks Request.IsAct id := by
  refine Process.asks_of_places ⟨trivial, fun begun => ?_⟩ fun taken e step h => ?_
  · show Effect.Asks Request.IsAct (if (begun : Nat) = 0 then (.unit : Task _ _ _ Unit) else .fail (.failed "late"))
    split <;> trivial
  · cases taken with
    | true => cases h
    | false => cases h; trivial

theorem acts_of_pair {a b : InstanceId} (event event' : Nat) :
    ∀ job ∈ ([.deliver RetryPolicy.never.punctual once a event, .deliver RetryPolicy.never.punctual once b event'] :
        List (Job ⟨Unit, fun _ => Nat⟩ Empty Nat)),
      job.Acts :=
  List.forall_mem_cons.mpr ⟨once_acts a, List.forall_mem_cons.mpr ⟨once_acts b, fun _ h => nomatch h⟩⟩

theorem instances_isolated_pair :
    let a : InstanceId := ⟨"p", "1"⟩
    let b : InstanceId := ⟨"p", "2"⟩
    let jobs : List (Job ⟨Unit, fun _ => Nat⟩ Empty Nat) :=
      [.deliver RetryPolicy.never.punctual once b 2, .deliver RetryPolicy.never.punctual once a 1]
    let others := jobs.filter (·.id ≠ a)
    let w := (runAll counting.host (jobs.map Job.task) (0, .empty)).2
    let w' := (runAll counting.host (others.map Job.task) (0, .empty)).2
    (a ≠ b ∧ ¬ a.Splits b ∧ ¬ b.Splits a ∧ (∀ job ∈ jobs, job.Acts) ∧
      endings counting b.stream jobs (0, .empty) = endings counting b.stream others (0, .empty)) ∧
    Unmoved counting b w' w ∧ w.2.entries b.stream = [.started, .received 2] ∧ w.2.entries a.stream = [.started] := by
  have hab : ¬ InstanceId.Splits ⟨"p", "1"⟩ ⟨"p", "2"⟩ := fun h => absurd h.stream_eq (by decide)
  have hba : ¬ InstanceId.Splits ⟨"p", "2"⟩ ⟨"p", "1"⟩ := fun h => absurd h.stream_eq (by decide)
  obtain ⟨-, isolated⟩ := (instances_isolated counting).2 _ _ (by decide) hab hba
  exact ⟨⟨by decide, hab, hba, acts_of_pair 2 1, rfl⟩, isolated _ 0 (acts_of_pair 2 1) rfl, rfl, rfl⟩

/-- Not every two instances are isolated: two of them may have one stream, and the effects of one may make the
initial effect of the other fail. -/
theorem instances_entangled :
    (let a : InstanceId := ⟨"a-b", "c"⟩
      let b : InstanceId := ⟨"a", "b-c"⟩
      let job : Job ⟨Unit, fun _ => Nat⟩ Empty Nat := .deliver RetryPolicy.never.punctual once a 1
      let w := (runAll counting.host ([job].map Job.task) (0, .empty)).2
      a ≠ b ∧ job.id = a ∧ job.Acts ∧ w.2.entries b.stream = [.started, .received 1] ∧
        Accepts counting once b (0, (.empty : MemoryStore (Entry Nat))) 2 ∧ ¬ Accepts counting once b w 2) ∧
    (let a : InstanceId := ⟨"p", "1"⟩
      let b : InstanceId := ⟨"p", "2"⟩
      let jobs : List (Job ⟨Unit, fun _ => Nat⟩ Empty Nat) :=
        [.deliver RetryPolicy.never.punctual once a 1, .deliver RetryPolicy.never.punctual once b 2]
      let w := (runAll counting.host (jobs.map Job.task) (0, .empty)).2
      let w' := (runAll counting.host ((jobs.filter (·.id ≠ a)).map Job.task) (0, .empty)).2
      a.stream ≠ b.stream ∧ (∀ job ∈ jobs, job.Acts) ∧ w.2.entries b.stream = [.started] ∧
        w'.2.entries b.stream = [.started, .received 2]) := by
  refine ⟨⟨by decide, rfl, once_acts _, rfl, ⟨_, rfl, rfl⟩, ?_⟩, ⟨by decide, acts_of_pair 1 2, rfl, rfl⟩⟩
  rintro ⟨node, hnode, hoffer⟩
  cases hnode
  cases hoffer

end Workflow.Delivery

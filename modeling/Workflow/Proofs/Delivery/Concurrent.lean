import Workflow.Proofs.Delivery.Course
import Workflow.Proofs.Delivery.Sequential

/-!
# Concurrent calls

Any number of deliveries and starts of one instance take turns on a store that meets the contract of the
stream. The stream is then a history that only grows, every event in it was accepted where it stands, and
each call has run no effect but those it recorded the cause of. Main statement: `concurrent_exactlyOnce`, for
every order of the turns.
-/

namespace Workflow

universe u v w

variable {Ω : Signature} {H I S E R : Type}

namespace Delivery

/-! ## What may be added -/

section
variable [Inhabited S] {p : Definition Ω H I S E R} {i : I} {now new : List (Entry E)} {call : Call E}
  {r : Task Ω H E Unit}

theorem Adds.history (h : Adds p i now call new r) {old : Option (List E)} (hold : now = Entry.history old) :
    ∃ more, now ++ new = Entry.history more := by
  cases h with
  | nothing => exact ⟨old, by rw [List.append_nil, hold]⟩
  | start hnil => exact ⟨some [], by rw [hnil]; rfl⟩
  | @event event events step hnow _ => exact ⟨some (events ++ [event]), by rw [hnow, ← Entry.history_append]; rfl⟩

theorem Adds.transition {e : E} (h : Adds p i now call new r) (he : .received e ∈ new) :
    call = .deliver e ∧ p.Transition i now e r := by
  cases h with
  | nothing => cases he
  | start _ => cases List.mem_singleton.mp he
  | event hnow ho =>
    cases List.mem_singleton.mp he
    refine ⟨rfl, _, _, ?_, ho⟩
    rw [hnow]
    exact p.replay_history i _

theorem Adds.acceptedSince {before : List (Entry E)} (hadds : Adds p i now call new r)
    (h : p.AcceptedSince i before now) : p.AcceptedSince i before (now ++ new) := by
  have accepted : ∀ e, .received e ∈ new → ∃ fx, p.Transition i now e fx := fun e he => ⟨r, (hadds.transition he).2⟩
  cases hadds with
  | nothing => rw [List.append_nil]; exact h
  | start _ => exact h.concat fun e he => accepted e (List.mem_singleton.mpr he.symm)
  | event _ _ => exact h.concat fun e he => accepted e (List.mem_singleton.mpr he.symm)

end

/-! ## Runs -/

section
variable [Inhabited S] {ι : Type v} [DecidableEq ι] {W : Type}

structure Invariant (policy : PacedPolicy) (p : Definition Ω H I S E R) (i : I) (stream : String)
    (calls : ι → Call E) (before now : List (Entry E)) (τ : List (ι × Exchange (requests Ω H E)))
    (pool : ι → Task Ω H E Unit) : Prop where
  kept : now = before ++ recorded stream (τ.map Prod.snd)
  history : ∃ old, now = Entry.history old
  accepted : p.AcceptedSince i before now
  progress j : Progress policy p i stream now (exchangesOf j τ) (pool j) (calls j)

variable {policy : PacedPolicy} {p : Definition Ω H I S E R} {i : I} {stream : String} {calls : ι → Call E}
  {world : Shared (requests Ω H E) W} {entries : W → List (Entry E)}

theorem recorded_exchangesOf_nil {j : ι} {τ : List (ι × Exchange (requests Ω H E))}
    (h : recorded stream (τ.map Prod.snd) = []) : recorded stream (exchangesOf j τ) = [] := by
  refine List.flatMap_eq_nil_iff.mpr fun x hx => ?_
  exact List.flatMap_eq_nil_iff.mp h x (List.mem_map_of_mem (Pool.mem_exchangesOf.mp hx))

theorem Invariant.stepped (hstore : world.Keeps stream entries) (hp : p.Asks (Request.Spares stream) i)
    {before w w' τ pool} (inv : Invariant policy p i stream calls before (entries w) τ pool) {j op next x}
    (hj : pool j = .call op next) (ha : world.answers op w x w') :
    Stepped policy p i stream (calls j) (entries w) (entries w') (exchangesOf j τ) ⟨op, x⟩ (next x) := by
  obtain ⟨old, hold⟩ := inv.history
  refine Progress.step hstore hp hold (fun hnil => ?_) (hj ▸ inv.progress j) ha
  exact recorded_exchangesOf_nil (List.append_eq_nil_iff.mp (inv.kept.symm.trans hnil)).2

theorem invariant_of_run (hstore : world.Keeps stream entries) (hp : p.Asks (Request.Spares stream) i) {w₀ old}
    (hold : entries w₀ = Entry.history old) {τ pool w}
    (run : Pool.Run world (fun j => (calls j).task policy p i stream) w₀ τ pool w) :
    Invariant policy p i stream calls (entries w₀) (entries w) τ pool := by
  induction run with
  | nil => exact ⟨by simp, ⟨old, hold⟩, .refl p i _, fun j => .initial (calls j)⟩
  | @call τ pool w j op next x w' _ hj ha inv =>
    have one := inv.stepped hstore hp hj ha
    obtain ⟨old, hold⟩ := inv.history
    refine ⟨?_, one.kept ▸ one.adds.history hold, one.kept ▸ one.adds.acceptedSince inv.accepted, fun k => ?_⟩
    · rw [one.kept, inv.kept]; simp
    · rw [Pool.exchangesOf_append]
      by_cases h : j = k
      · subst h
        rw [Pool.exchangesOf_cons_self, Function.update_self]
        exact one.progress
      · -- to the others the stream has only grown
        rw [Pool.exchangesOf_of_ne h, List.append_nil, Function.update_of_ne (Ne.symm h)]
        exact (inv.progress k).mono (one.kept ▸ List.prefix_append _ _)
  | @pause τ pool w j time next _ hj inv =>
    refine ⟨inv.kept, inv.history, inv.accepted, fun k => ?_⟩
    by_cases h : j = k
    · subst h
      rw [Function.update_self]
      exact Progress.pause (hj ▸ inv.progress j)
    · rw [Function.update_of_ne (Ne.symm h)]
      exact inv.progress k
  | rest _ hw inv => rw [hstore.rests hw]; exact inv

/-! ## Turns of a run -/

section
variable (hstore : world.Keeps stream entries) (hp : p.Asks (Request.Spares stream) i) {w₀ : W}
  {old : Option (List E)} (hold : entries w₀ = Entry.history old) {τ₁ τ₂ : List (ι × Exchange (requests Ω H E))}
  {j : ι} {x : Exchange (requests Ω H E)} {pool : ι → Task Ω H E Unit} {w : W}
include hstore hp hold

theorem turn_of_run (run : Pool.Run world (fun j => (calls j).task policy p i stream) w₀ (τ₁ ++ (j, x) :: τ₂) pool w) :
    ∃ pool₁ w₁ w₂ next, Invariant policy p i stream calls (entries w₀) (entries w₁) τ₁ pool₁ ∧
      pool₁ j = .call x.op next ∧
      Stepped policy p i stream (calls j) (entries w₁) (entries w₂) (exchangesOf j τ₁) x (next x.answer) ∧
      (next x.answer).Leads (exchangesOf j τ₂) (pool j) := by
  obtain ⟨pool₁, w₁, next, w₂, first, hj, ha, rest⟩ := run.cut
  have inv := invariant_of_run hstore hp hold first
  have leads := rest.leads j
  rw [Function.update_self] at leads
  exact ⟨pool₁, w₁, w₂, next, inv, hj, inv.stepped hstore hp hj ha, leads⟩

theorem starter_of_run
    (run : Pool.Run world (fun j => (calls j).task policy p i stream) w₀ (τ₁ ++ (j, x) :: τ₂) pool w)
    (hx : .started ∈ x.added stream) :
    entries w₀ ++ recorded stream (τ₁.map Prod.snd) = [] ∧
      ∃ rest, ((p.run i default).1.andThen rest).Leads (exchangesOf j τ₂) (pool j) := by
  obtain ⟨pool₁, w₁, w₂, next, inv, -, one, leads⟩ := turn_of_run hstore hp hold run
  have adds := one.adds
  rw [← inv.kept]
  generalize next x.answer = r, calls j = call, x.added stream = new at adds leads hx
  cases adds with
  | nothing => cases hx
  | start hnil => exact ⟨hnil, _, leads⟩
  | event _ _ => cases List.mem_singleton.mp hx

theorem recorder_of_run
    (run : Pool.Run world (fun j => (calls j).task policy p i stream) w₀ (τ₁ ++ (j, x) :: τ₂) pool w) {e : E}
    (hx : .received e ∈ x.added stream) :
    calls j = .deliver e ∧ Prelude stream (p.run i default).1 (exchangesOf j τ₁) .unit ∧
      ∃ fx, p.Transition i (entries w₀ ++ recorded stream (τ₁.map Prod.snd)) e fx ∧
        fx.Leads (exchangesOf j τ₂) (pool j) := by
  obtain ⟨pool₁, w₁, w₂, next, inv, -, one, leads⟩ := turn_of_run hstore hp hold run
  rw [← inv.kept]
  obtain ⟨hcall, htransition⟩ := one.adds.transition hx
  exact ⟨hcall, one.before (List.ne_nil_of_mem hx), _, htransition, leads⟩

end

/-! ## What a run comes to -/

/-- The entries a call may record, in this order and once each. -/
def Call.records : Call E → List (Entry E)
  | deliver event => [.started, .received event]
  | start => [.started]

/-- Concurrent calls have taken the turns `τ`, `pool` is left of them, and the stream has grown from `before`
to `now`. -/
structure ExactlyOnce (p : Definition Ω H I S E R) (i : I) (stream : String) (calls : ι → Call E)
    (before now : List (Entry E)) (τ : List (ι × Exchange (requests Ω H E))) (pool : ι → Task Ω H E Unit) :
    Prop where
  kept : now = before ++ recorded stream (τ.map Prod.snd)
  history : ∃ old, now = Entry.history old
  accepted : p.AcceptedSince i before now
  once j : (recorded stream (exchangesOf j τ)).Sublist (calls j).records
  starter {τ₁ j x τ₂} : τ = τ₁ ++ (j, x) :: τ₂ → .started ∈ x.added stream →
    before ++ recorded stream (τ₁.map Prod.snd) = [] ∧
      ∃ rest, ((p.run i default).1.andThen rest).Leads (exchangesOf j τ₂) (pool j)
  one_starter {j k} : .started ∈ recorded stream (exchangesOf j τ) →
    .started ∈ recorded stream (exchangesOf k τ) → j = k
  /-- A call that records an event has run no effect but the initial one, and that to the end if at all. From
  then on it is the effect of the transition that its event makes just there. -/
  recorder {τ₁ j x τ₂ e} : τ = τ₁ ++ (j, x) :: τ₂ → .received e ∈ x.added stream →
    calls j = .deliver e ∧ Prelude stream (p.run i default).1 (exchangesOf j τ₁) .unit ∧
      ∃ fx, p.Transition i (before ++ recorded stream (τ₁.map Prod.snd)) e fx ∧
        fx.Leads (exchangesOf j τ₂) (pool j)
  idle j : (∀ e, .received e ∉ recorded stream (exchangesOf j τ)) →
    ∃ fx, Prelude stream (p.run i default).1 (exchangesOf j τ) fx
  /-- A delivery that gives up has recorded no event. An effect may fail with the same error, but only
  after its event was recorded. -/
  exhausted {j n} : pool j = .fail (.delivery (.retriesExhausted stream n)) →
    (∀ e, .received e ∉ recorded stream (exchangesOf j τ)) ∨
      ∃ τ₁ x τ₂ e fx, τ = τ₁ ++ (j, x) :: τ₂ ∧ .received e ∈ x.added stream ∧
        p.Transition i (before ++ recorded stream (τ₁.map Prod.snd)) e fx ∧
        fx.Leads (exchangesOf j τ₂) (.fail (.delivery (.retriesExhausted stream n)))
  /-- A delivery that finds its event ignored is over, and has recorded no event. -/
  ignored {τ₁ j loaded τ₂ e node} : τ = τ₁ ++ (j, reading stream loaded) :: τ₂ →
    calls j = .deliver e → p.replay i loaded = .ok node → node.offer e = none →
      exchangesOf j τ₂ = [] ∧ pool j = .unit ∧ ∀ e, .received e ∉ recorded stream (exchangesOf j τ)

theorem Call.recorded_sublist {now t} {r : Task Ω H E Unit} {call : Call E}
    (h : Progress policy p i stream now t r call) : (recorded stream t).Sublist call.records := by
  rcases h.account with ⟨fx, hb⟩ | ⟨event, sentinel, rfl, hr, hs⟩
  · have hstarted : [Entry.started].Sublist call.records := by
      cases call with
      | deliver event => exact .cons_cons _ (List.nil_sublist _)
      | start => exact .refl _
    rcases hb.recorded_eq with hr | hr <;> rw [hr]
    · exact List.nil_sublist _
    · exact hstarted
  · rcases hs with rfl | rfl <;> rw [hr]
    · exact .cons _ (.refl _)
    · exact .refl _

omit [DecidableEq ι] in
theorem turn_unique {τ₁ τ₂ σ₁ σ₂ : List (ι × Exchange (requests Ω H E))} {j k : ι}
    {x y : Exchange (requests Ω H E)} (h : τ₁ ++ (j, x) :: τ₂ = σ₁ ++ (k, y) :: σ₂)
    (hx : x.added stream ≠ []) (hy : y.added stream ≠ []) (hτ : recorded stream (τ₁.map Prod.snd) = [])
    (hσ : recorded stream (σ₁.map Prod.snd) = []) : j = k := by
  rcases List.append_eq_append_iff.mp h with ⟨between, rfl, hbetween⟩ | ⟨between, rfl, hbetween⟩
  · cases between with
    | nil => exact (Prod.mk.inj (List.cons.inj hbetween).1).1
    | cons turn between =>
      obtain rfl := (List.cons.inj hbetween).1
      simp [hx] at hσ
  · cases between with
    | nil => exact (Prod.mk.inj (List.cons.inj hbetween).1).1.symm
    | cons turn between =>
      obtain rfl := (List.cons.inj hbetween).1
      simp [hy] at hτ

theorem exists_turn {j : ι} {τ : List (ι × Exchange (requests Ω H E))} {entry : Entry E}
    (h : entry ∈ recorded stream (exchangesOf j τ)) :
    ∃ τ₁ x τ₂, τ = τ₁ ++ (j, x) :: τ₂ ∧ entry ∈ x.added stream := by
  obtain ⟨x, hx, hentry⟩ := List.mem_flatMap.mp h
  obtain ⟨τ₁, τ₂, hτ⟩ := List.append_of_mem (Pool.mem_exchangesOf.mp hx)
  exact ⟨τ₁, x, τ₂, hτ, hentry⟩

/-- However the turns of concurrent calls fall, what each of them records and runs is recorded and run once,
and what has been recorded stays where it is. -/
theorem concurrent_exactlyOnce (hstore : world.Keeps stream entries) (hp : p.Asks (Request.Spares stream) i)
    {w₀ : W} {old : Option (List E)} (hold : entries w₀ = Entry.history old)
    {τ : List (ι × Exchange (requests Ω H E))} {pool : ι → Task Ω H E Unit} {w : W}
    (run : Pool.Run world (fun j => (calls j).task policy p i stream) w₀ τ pool w) :
    ExactlyOnce p i stream calls (entries w₀) (entries w) τ pool ∧
      ∀ ⦃τ' pool' w'⦄, Pool.Run world pool w τ' pool' w' → entries w <+: entries w' := by
  have inv := invariant_of_run hstore hp hold run
  have recorder {τ₁ j x τ₂ e} (hτ : τ = τ₁ ++ (j, x) :: τ₂) (hx : .received e ∈ x.added stream) :=
    recorder_of_run hstore hp hold (hτ ▸ run) hx
  have starter {τ₁ j x τ₂} (hτ : τ = τ₁ ++ (j, x) :: τ₂) (hx : .started ∈ x.added stream) :=
    starter_of_run hstore hp hold (hτ ▸ run) hx
  refine ⟨⟨inv.kept, inv.history, inv.accepted, fun j => Call.recorded_sublist (inv.progress j), starter, ?_, recorder,
    ?_, ?_, ?_⟩, ?_⟩
  · intro j k hj hk
    obtain ⟨τ₁, x, τ₂, hτ, hx⟩ := exists_turn hj
    obtain ⟨σ₁, y, σ₂, hσ, hy⟩ := exists_turn hk
    exact turn_unique (hτ.symm.trans hσ) (List.ne_nil_of_mem hx) (List.ne_nil_of_mem hy)
      (List.append_eq_nil_iff.mp (starter hτ hx).1).2 (List.append_eq_nil_iff.mp (starter hσ hy).1).2
  · intro j hnone
    rcases (inv.progress j).account with hb | ⟨event, sentinel, -, hr, -⟩
    · exact hb
    · exact absurd (hr ▸ List.mem_append_right _ (List.mem_singleton_self _)) (hnone event)
  · intro j n hfail
    rcases (inv.progress j).account with ⟨fx, hb⟩ | ⟨event, sentinel, -, hr, -⟩
    · exact .inl hb.not_received
    · obtain ⟨τ₁, x, τ₂, hτ, hx⟩ := exists_turn (hr ▸ List.mem_append_right sentinel (List.mem_singleton_self _))
      obtain ⟨-, -, fx, htransition, leads⟩ := recorder hτ hx
      exact .inr ⟨τ₁, x, τ₂, event, fx, hτ, hx, htransition, hfail ▸ leads⟩
  · -- the load is the last thing that the delivery asks
    rintro τ₁ j loaded τ₂ e node rfl hcall hr ho
    obtain ⟨pool₁, w₁, w₂, next, first, hj, -, leads⟩ := turn_of_run hstore hp hold run
    have course := first.progress j
    rw [hcall] at course
    obtain ⟨hb, hover⟩ := Course.ignored hp course hj hr ho
    obtain ⟨hnone, hunit⟩ := Effect.Leads.of_pure (hover ▸ leads)
    refine ⟨hnone, hunit, fun e => ?_⟩
    have hvain : recorded stream [(reading stream loaded : Exchange (requests Ω H E))] = [] := rfl
    rw [Pool.exchangesOf_append, Pool.exchangesOf_cons_self, hnone, recorded_append, hvain, List.append_nil]
    exact hb.not_received e
  · intro τ' pool' w' next
    have later := invariant_of_run hstore hp hold (run.append next)
    rw [later.kept, inv.kept, List.map_append, recorded_append, ← List.append_assoc]
    exact List.prefix_append _ _

end

def rivals : Bool → Call Nat
  | false => .deliver 2
  | true => .deliver 4

def meeting : Pool.State (requests ⟨String, fun _ => Unit⟩ Empty Nat) Failure Unit Bool
    (List String × MemoryStore (Entry Nat)) :=
  Pool.play noting.host (fun j => (rivals j).task RetryPolicy.never.punctual tally () "t") ([], .empty)
    [false, true, false, true, false, false, false, false]

theorem concurrent_exactlyOnce_rivals : (noting.host (E := Nat)).shared.Keeps "t" (fun w => w.2.entries "t") ∧
    tally.Asks (Request.Spares "t") () ∧
    (MemoryStore.empty : MemoryStore (Entry Nat)).entries "t" = Entry.history none ∧
    Pool.Run noting.host.shared (fun j => (rivals j).task RetryPolicy.never.punctual tally () "t") ([], .empty)
      meeting.1 meeting.2.1 meeting.2.2 ∧
    ExactlyOnce tally () "t" rivals [] (meeting.2.2.2.entries "t") meeting.1 meeting.2.1 ∧
    meeting.2.2 = (["opened", "counted"], ⟨[("t", [.started, .received 2])]⟩) ∧
    meeting.2.1 true = .fail (.delivery (.retriesExhausted "t" 1)) := by
  have hstore := noting.keeps (E := Nat) "t"
  have hp : tally.Asks (Request.Spares "t") () := tally_asks.imp fun op h => h.spares "t"
  have hold : (MemoryStore.empty : MemoryStore (Entry Nat)).entries "t" = Entry.history none := rfl
  have run : Pool.Run noting.host.shared (fun j => (rivals j).task RetryPolicy.never.punctual tally () "t") ([], .empty)
      meeting.1 meeting.2.1 meeting.2.2 := Pool.run_play _
  exact ⟨hstore, hp, hold, run, (concurrent_exactlyOnce hstore hp hold run).1, rfl, rfl⟩

end Delivery

end Workflow

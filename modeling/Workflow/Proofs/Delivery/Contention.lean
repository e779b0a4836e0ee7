import Mathlib.Algebra.Order.BigOperators.Group.Finset
import Workflow.Proofs.Delivery.Clearing
import Workflow.Proofs.Delivery.Retrying

/-!
# Contention

Any number of deliveries of one instance take turns on its stream. Each conflict of one of them is charged to what
another one has recorded meanwhile: at most the sentinel once, and an event each. Main statement:
`contention_bounded`, by which none meets more conflicts than there are deliveries, and none has to give up if its
policy allows as many retries.
-/

namespace Workflow.Delivery

universe v

variable {Ω : Signature} {H I S E R W : Type}

/-! ## Conflicts of a delivery -/

def eventCount (entries : List (Entry E)) : Nat :=
  entries.countP fun entry => !entry.isStart

theorem eventCount_append (entries more : List (Entry E)) :
    eventCount (entries ++ more) = eventCount entries + eventCount more :=
  List.countP_append

theorem length_eq_eventCount (entries : List (Entry E)) :
    entries.length = entries.countP Entry.isStart + eventCount entries := by
  rw [List.length_eq_countP_add_countP Entry.isStart]
  congr 2; funext entry
  simp

theorem refused_refusing {e : StoreError} (he : e.isConcurrency) (stream : String) (entry : Entry E) (expected : Nat) :
    (refusing stream entry expected e : Exchange (requests Ω H E)).refused stream = [entry] :=
  if_pos ⟨rfl, he⟩

theorem added_writing (stream : String) (entry : Entry E) (expected version : Nat) :
    (writing stream entry expected version : Exchange (requests Ω H E)).added stream = [entry] :=
  if_pos rfl

section
variable [Inhabited S] (p : Definition Ω H I S E R) (i : I) (stream : String) (event : E)

/-- A delivery that has exchanged `t` meets this conflict: at the sentinel of a stream it has just missed, or at the
event after the history it has just loaded. -/
inductive Refusal : (t : List (Exchange (requests Ω H E))) → Exchange (requests Ω H E) → Prop
  | sentinel {t e} (he : e.isConcurrency) : Refusal (t ++ [looking stream false]) (refusing stream .started 0 e)
  | event {t loaded fx e} (h : p.Transition i loaded event fx) (he : e.isConcurrency) :
      Refusal (t ++ [reading stream loaded]) (refusing stream (.received event) loaded.length e)

end

section
variable [Inhabited S] {policy : PacedPolicy} {p : Definition Ω H I S E R} {i : I} {stream : String} {event : E}
  {t t₁ t₂ : List (Exchange (requests Ω H E))} {x : Exchange (requests Ω H E)} {r : Task Ω H E Unit}

theorem refusal_of_leads (hp : p.Asks (Request.Spares stream) i)
    (h : (deliver policy p i stream event).Leads (t₁ ++ x :: t₂) r) (hx : x.refused stream ≠ []) :
    Refusal p i stream event t₁ x := by
  obtain ⟨next, pending, -⟩ := pending_of_leads h
  obtain ⟨op, reply⟩ := x
  cases pending with
  | looking => exact absurd rfl hx
  | starting =>
    match reply, hx with
    | .ok version, hx => exact absurd rfl hx
    | .error e, hx => exact .sentinel (of_not_not fun he => hx (if_neg fun hc => he hc.2))
  | opening hv => exact absurd (Exchange.refused_of_spares (hv.asks hp.1).2.1) hx
  | reading _ => exact absurd rfl hx
  | recording _ htransition =>
    match reply, hx with
    | .ok version, hx => exact absurd rfl hx
    | .error e, hx => exact .event htransition (of_not_not fun he => hx (if_neg fun hc => he hc.2))
  | running htransition hv =>
    exact absurd (Exchange.refused_of_spares (hv.asks (hp.transition htransition)).2.1) hx

theorem writing_of_leads (hp : p.Asks (Request.Spares stream) i)
    (h : (deliver policy p i stream event).Leads t r) (hmem : x ∈ t) (hx : x.added stream ≠ []) :
    (∃ version, x = writing stream .started 0 version) ∨
      ∃ expected version, x = writing stream (.received event) expected version := by
  obtain ⟨t₁, t₂, rfl⟩ := List.append_of_mem hmem
  obtain ⟨next, pending, -⟩ := pending_of_leads h
  obtain ⟨op, reply⟩ := x
  cases pending with
  | looking => exact absurd rfl hx
  | starting =>
    match reply, hx with
    | .ok version, _ => exact .inl ⟨version, rfl⟩
    | .error e, hx => exact absurd rfl hx
  | opening hv => exact absurd (Exchange.added_of_spares (hv.asks hp.1).2.1) hx
  | reading _ => exact absurd rfl hx
  | recording _ _ =>
    match reply, hx with
    | .ok version, _ => exact .inr ⟨_, version, rfl⟩
    | .error e, hx => exact absurd rfl hx
  | running htransition hv =>
    exact absurd (Exchange.added_of_spares (hv.asks (hp.transition htransition)).2.1) hx

theorem not_clears_of_leads (hp : p.Asks (Request.Spares stream) i)
    (h : (deliver policy p i stream event).Leads t r) (hmem : x ∈ t) : ¬ x.clears stream := by
  obtain ⟨t₁, t₂, rfl⟩ := List.append_of_mem hmem
  obtain ⟨next, pending, -⟩ := pending_of_leads h
  obtain ⟨op, reply⟩ := x
  cases pending with
  | opening hv => exact Exchange.not_clears_of_spares (hv.asks hp.1).2.1
  | running htransition hv => exact Exchange.not_clears_of_spares (hv.asks (hp.transition htransition)).2.1
  | _ => exact Bool.false_ne_true

theorem eventCount_recorded_le (hp : p.Asks (Request.Spares stream) i)
    (h : (deliver policy p i stream event).Leads t r) : eventCount (recorded stream t) ≤ 1 := by
  induction t using List.reverseRecOn generalizing r with
  | nil => exact Nat.zero_le 1
  | append_singleton t x ih =>
    obtain ⟨next, before, -⟩ := h.cut
    have hlast : recorded stream [x] = x.added stream := List.append_nil _
    rw [recorded_append, hlast, eventCount_append]
    by_cases hx : x.added stream = []
    · rw [hx]
      exact ih before
    rcases writing_of_leads hp h (List.mem_append_right t List.mem_cons_self) hx with
      ⟨version, rfl⟩ | ⟨expected, version, rfl⟩
    · rw [added_writing]
      exact ih before
    · -- had the event been recorded before, nothing would have been left to do but its effect
      have hnone : eventCount (recorded stream t) = 0 := by
        refine List.countP_eq_zero.mpr fun entry hentry => ?_
        obtain ⟨y, hy, hadded⟩ := List.mem_flatMap.mp hentry
        obtain ⟨u, v, rfl⟩ := List.append_of_mem hy
        cases entry with
        | started => exact Bool.false_ne_true
        | received e =>
          rw [List.append_assoc] at h
          obtain ⟨next', pending, after⟩ := pending_of_leads h
          obtain ⟨-, t₀, loaded, version', -, htransition, -⟩ := pending.received hp hadded
          have hspares := (after.asks (hp.transition htransition)).1 _ (List.mem_append_right v List.mem_cons_self)
          exact absurd (Exchange.added_of_spares hspares) hx
      rw [hnone, added_writing]
      exact Nat.le_refl 1

end

section
variable [Inhabited S] {p : Definition Ω H I S E R} {i : I} {stream : String} {event : E}
  {t : List (Exchange (requests Ω H E))}

theorem Lost.refused_ne_nil (h : Lost p i stream event t) : refused stream t ≠ [] := by
  have hlast (t₀ : List (Exchange (requests Ω H E))) {entry expected e} (he : e.isConcurrency) :
      refused stream (t₀ ++ [refusing stream entry expected e]) ≠ [] := by
    rw [refused_concat, refused_refusing he]
    exact List.append_ne_nil_of_right_ne_nil _ (List.cons_ne_nil _ _)
  cases h with
  | taken he => exact hlast [looking stream false] he
  | overtaken _ _ he => rw [List.append_cons]; exact hlast _ he

theorem length_le_refused {lost : List (List (Exchange (requests Ω H E)))} (h : ∀ a ∈ lost, Lost p i stream event a) :
    lost.length ≤ (refused stream lost.flatten).length := by
  induction lost with
  | nil => exact Nat.zero_le _
  | cons a lost ih =>
    have hrest := ih fun b hb => h b (List.mem_cons_of_mem a hb)
    have hfirst := List.length_pos_iff.mpr (h a List.mem_cons_self).refused_ne_nil
    rw [List.flatten_cons, refused_append, List.length_append, List.length_cons]
    omega

theorem Ending.inside (t₀ : List (Exchange (requests Ω H E))) {s : String} {n : Nat}
    (h : Ending p i stream event t (.fail (.delivery (.retriesExhausted s n)))) :
    Inside p i stream event (t₀ ++ t) (.fail (.delivery (.retriesExhausted s n))) := by
  generalize hr : Effect.fail (Failure.delivery (.retriesExhausted s n)) = r at h ⊢
  cases h with
  | unopened hv => cases hr; exact .initial hv
  | failed _ htransition hv => cases hr; rw [← List.append_assoc]; exact .step htransition hv
  | _ => cases hr

end

/-! ## Conflicts in a pool -/

section
variable [Inhabited S] {ι : Type v} [DecidableEq ι] {policy : PacedPolicy} {p : Definition Ω H I S E R} {i : I}
  {stream : String} {events : ι → E} {world : Shared (requests Ω H E) W} {entries : W → List (Entry E)}
  (hstore : world.Arbitrates stream entries) (hp : p.Asks (Request.Spares stream) i) {w₀ w : W}
  {τ τ₁ τ₂ : List (ι × Exchange (requests Ω H E))} {pool : ι → Task Ω H E Unit} {j : ι}

include hp in
theorem kept_of_deliveries (run : Pool.Run world (fun j => deliver policy p i stream (events j)) w₀ τ pool w) :
    ∀ turn ∈ τ, ¬ turn.2.clears stream := by
  rintro ⟨k, x⟩ hturn
  exact not_clears_of_leads hp (run.leads k) (Pool.mem_exchangesOf.mpr hturn)

section
include hstore hp

theorem found_after_refusal (run : Pool.Run world (fun j => deliver policy p i stream (events j)) w₀ τ pool w)
    {t₁ t₂ : List (Exchange (requests Ω H E))} {x : Exchange (requests Ω H E)}
    (hj : exchangesOf j τ = t₁ ++ x :: t₂) (hx : .started ∈ x.refused stream) : looking stream false ∉ t₂ := by
  have leads := run.leads j
  rw [hj] at leads
  have hkept := kept_of_deliveries hp run
  obtain ⟨τ₁, τ₂, rfl, -, rfl⟩ := Pool.exists_turn_of_exchangesOf hj
  obtain ⟨pool₁, w₁, next, w₂, -, -, ha, rest⟩ := run.cut
  cases refusal_of_leads hp leads (List.ne_nil_of_mem hx) with
  | event _ he => rw [refused_refusing he] at hx; cases List.mem_singleton.mp hx
  | sentinel he =>
    have hlen := hstore.conflict ha he
    have hsome : entries w₂ ≠ [] := by
      rw [hstore.append_error ha]
      exact fun hnil => hlen (List.length_eq_zero_iff.mpr hnil)
    have hkept' : ∀ turn ∈ τ₂, ¬ turn.2.clears stream := fun turn hturn =>
      hkept turn (List.mem_append_right _ (List.mem_cons_of_mem _ hturn))
    exact fun hmem => present_since hstore.toServes rest hkept' hsome j (Pool.mem_exchangesOf.mp hmem)

theorem sentinel_refused_le (run : Pool.Run world (fun j => deliver policy p i stream (events j)) w₀ τ pool w) :
    (refused stream (exchangesOf j τ)).countP Entry.isStart ≤ 1 := by
  generalize ht : exchangesOf j τ = t
  induction t using List.reverseRecOn generalizing τ pool w with
  | nil => exact Nat.zero_le 1
  | append_singleton t x ih =>
    have leads := run.leads j
    rw [ht] at leads
    have earlier : (refused stream t).countP Entry.isStart ≤ 1 := by
      obtain ⟨τ₁, τ₂, rfl, hτ₁, -⟩ := Pool.exists_turn_of_exchangesOf ht
      obtain ⟨pool₁, w₁, first, -⟩ := run.split
      exact ih first hτ₁
    rw [refused_concat, List.countP_append]
    by_cases hx : x.refused stream = []
    · rw [hx]
      exact earlier
    cases refusal_of_leads hp leads hx with
    | event _ he =>
      rw [refused_refusing he]
      exact earlier
    | @sentinel t e he =>
      -- a conflict at the sentinel before this one would have shown that the stream is there
      have hnone : (refused stream (t ++ [looking stream false])).countP Entry.isStart = 0 := by
        refine List.countP_eq_zero.mpr fun entry hentry => ?_
        cases entry with
        | received e => exact Bool.false_ne_true
        | started =>
          rw [refused_concat] at hentry
          obtain ⟨y, hy, hstarted⟩ := List.mem_flatMap.mp ((List.mem_append.mp hentry).resolve_right List.not_mem_nil)
          obtain ⟨u, v, rfl⟩ := List.append_of_mem hy
          have hsplit : exchangesOf j τ = u ++ y :: (v ++ looking stream false :: [refusing stream .started 0 e]) := by
            rw [ht]; simp
          exact absurd (List.mem_append_right v List.mem_cons_self) (found_after_refusal hstore hp run hsplit hstarted)
      rw [hnone, refused_refusing he]
      exact Nat.le_refl 1

omit hstore in
theorem entries_at_turn (hserves : world.Serves stream entries) {x : Exchange (requests Ω H E)}
    (run : Pool.Run world (fun j => deliver policy p i stream (events j)) w₀ (τ₁ ++ (j, x) :: τ₂) pool w) :
    ∃ w₁ w₂, entries w₁ = entries w₀ ++ recorded stream (τ₁.map Prod.snd) ∧ world.answers x.op w₁ x.answer w₂ := by
  have hkept := kept_of_deliveries hp run
  obtain ⟨pool₁, w₁, next, w₂, first, -, ha, -⟩ := run.cut
  exact ⟨w₁, w₂, grown_of_run hserves first fun turn hturn => hkept turn (List.mem_append_left _ hturn), ha⟩

theorem event_of_turn {k : ι} {y : Exchange (requests Ω H E)} (hadded : y.added stream ≠ [])
    (run : Pool.Run world (fun j => deliver policy p i stream (events j)) w₀ (τ₁ ++ (k, y) :: τ₂) pool w)
    (hsome : entries w₀ ++ recorded stream (τ₁.map Prod.snd) ≠ []) :
    ∃ expected version, y = writing stream (.received (events k)) expected version := by
  have hmem : y ∈ exchangesOf k (τ₁ ++ (k, y) :: τ₂) :=
    Pool.mem_exchangesOf.mpr (List.mem_append_right τ₁ List.mem_cons_self)
  rcases writing_of_leads hp (run.leads k) hmem hadded with ⟨version, rfl⟩ | hevent
  · obtain ⟨w₁, w₂, hw₁, ha⟩ := entries_at_turn hp hstore.toServes run
    have hempty : (entries w₁).length = 0 := (hstore.append_ok ha).1
    rw [hw₁] at hempty
    exact absurd (List.length_eq_zero_iff.mp hempty) hsome
  · exact hevent

/-- Whoever loses the race for its event has been overtaken, since it loaded the history, by one that recorded
an event. -/
theorem overtaker_of_refusal {t : List (Exchange (requests Ω H E))} {event : E} {fx : Task Ω H E Unit}
    {loaded : List (Entry E)} {e : StoreError} (he : e.isConcurrency) (htransition : p.Transition i loaded event fx)
    (run : Pool.Run world (fun j => deliver policy p i stream (events j)) w₀
      (τ₁ ++ (j, refusing stream (.received event) loaded.length e) :: τ₂) pool w)
    (hτ₁ : exchangesOf j τ₁ = t ++ [reading stream loaded]) :
    ∃ σ₁ σ₂ k, τ₁ = σ₁ ++ σ₂ ∧ exchangesOf j σ₁ = t ++ [reading stream loaded] ∧ k ≠ j ∧
      0 < eventCount (recorded stream (exchangesOf k σ₂)) := by
  obtain ⟨w₃, w₄, hw₃, hrefused⟩ := entries_at_turn hp hstore.toServes run
  obtain ⟨ρ, σ₂, rfl, hρ, hσ₂⟩ := Pool.exists_turn_of_exchangesOf hτ₁
  rw [List.append_assoc, List.cons_append] at run
  obtain ⟨w₁, w₂, hw₁, hload⟩ := entries_at_turn hp hstore.toServes run
  obtain rfl : loaded = entries w₁ := hstore.load_ok hload
  -- the stream is not what it was at the load, so somebody has recorded something since
  have hnew : recorded stream (σ₂.map Prod.snd) ≠ [] := by
    intro hnil
    have hvain : (reading stream (entries w₁) : Exchange (requests Ω H E)).added stream = [] := rfl
    rw [List.map_append, recorded_append, List.map_cons, recorded_cons, hvain, hnil, List.append_nil, List.append_nil,
      ← hw₁] at hw₃
    exact hstore.conflict hrefused he (congrArg List.length hw₃)
  obtain ⟨entry, hentry⟩ := List.exists_mem_of_ne_nil _ hnew
  obtain ⟨x, hx, hadded⟩ := List.mem_flatMap.mp hentry
  obtain ⟨⟨k, y⟩, hturn, rfl⟩ := List.mem_map.mp hx
  have hk : y ∈ exchangesOf k σ₂ := Pool.mem_exchangesOf.mpr hturn
  refine ⟨ρ ++ [(j, reading stream (entries w₁))], σ₂, k, by simp, ?_, ?_, ?_⟩
  · rw [Pool.exchangesOf_append, hρ, Pool.exchangesOf_cons_self]
    rfl
  · rintro rfl
    rw [hσ₂] at hk
    cases hk
  · obtain ⟨node, step, hr, -⟩ := htransition
    obtain ⟨known, hknown, -⟩ := Process.history_of_replay hr
    obtain ⟨σ, σ', rfl⟩ := List.append_of_mem hturn
    have hsome : entries w₀ ++ recorded stream ((ρ ++ (j, reading stream (entries w₁)) :: σ).map Prod.snd) ≠ [] := by
      rw [List.map_append, recorded_append, ← List.append_assoc, ← hw₁, hknown]
      exact List.append_ne_nil_of_left_ne_nil (List.cons_ne_nil _ _) _
    rw [List.append_assoc, List.cons_append, ← List.cons_append, ← List.append_assoc] at run
    obtain ⟨expected, version, rfl⟩ := event_of_turn hstore hp (List.ne_nil_of_mem hadded) run hsome
    refine List.countP_pos_iff.mpr ⟨.received (events k), List.mem_flatMap.mpr ⟨_, hk, ?_⟩, rfl⟩
    rw [added_writing]
    exact List.mem_singleton_self _

end

/-! ## How many conflicts there are -/

section
variable [Fintype ι]

/-- How many events the others have recorded. -/
def eventsBeside (stream : String) (j : ι) (τ : List (ι × Exchange (requests Ω H E))) : Nat :=
  ∑ k ∈ Finset.univ.erase j, eventCount (recorded stream (exchangesOf k τ))

theorem eventsBeside_append (stream : String) (j : ι) (τ τ' : List (ι × Exchange (requests Ω H E))) :
    eventsBeside stream j (τ ++ τ') = eventsBeside stream j τ + eventsBeside stream j τ' := by
  unfold eventsBeside
  rw [← Finset.sum_add_distrib]
  refine Finset.sum_congr rfl fun k _ => ?_
  rw [Pool.exchangesOf_append, recorded_append, eventCount_append]

theorem eventsBeside_pos {k : ι} (hk : k ≠ j) (h : 0 < eventCount (recorded stream (exchangesOf k τ))) :
    0 < eventsBeside stream j τ :=
  Nat.lt_of_lt_of_le h (Finset.single_le_sum (f := fun k => eventCount (recorded stream (exchangesOf k τ)))
    (fun _ _ => Nat.zero_le _) (Finset.mem_erase.mpr ⟨hk, Finset.mem_univ k⟩))

include hp in
theorem eventsBeside_lt (run : Pool.Run world (fun j => deliver policy p i stream (events j)) w₀ τ pool w) (j : ι) :
    eventsBeside stream j τ < Fintype.card ι := by
  have hle : eventsBeside stream j τ ≤ (Finset.univ.erase j).card * 1 :=
    Finset.sum_le_card_nsmul _ _ 1 fun k _ => eventCount_recorded_le hp (run.leads k)
  rw [Nat.mul_one] at hle
  exact Nat.lt_of_le_of_lt hle (Finset.card_lt_univ_of_notMem (Finset.notMem_erase j _))

include hstore hp in
/-- Each conflict at an event is charged to another one, which was recorded after the conflict before. -/
theorem events_refused_le (run : Pool.Run world (fun j => deliver policy p i stream (events j)) w₀ τ pool w) :
    eventCount (refused stream (exchangesOf j τ)) ≤ eventsBeside stream j τ := by
  generalize ht : exchangesOf j τ = t
  induction t using List.reverseRecOn generalizing τ pool w with
  | nil => exact Nat.zero_le _
  | append_singleton t x ih =>
    have leads := run.leads j
    rw [ht] at leads
    obtain ⟨τ₁, τ₂, rfl, hτ₁, -⟩ := Pool.exists_turn_of_exchangesOf ht
    have earlier : eventCount (refused stream t) ≤ eventsBeside stream j τ₁ := by
      obtain ⟨pool₁, w₁, first, -⟩ := run.split
      exact ih first hτ₁
    rw [refused_concat, eventCount_append, eventsBeside_append]
    by_cases hx : x.refused stream = []
    · rw [hx]
      exact Nat.le_trans earlier (Nat.le_add_right _ _)
    cases refusal_of_leads hp leads hx with
    | sentinel he =>
      rw [refused_refusing he]
      exact Nat.le_trans earlier (Nat.le_add_right _ _)
    | @event t loaded fx e htransition he =>
      obtain ⟨σ₁, σ₂, k, rfl, hσ₁, hk, hpos⟩ := overtaker_of_refusal hstore hp he htransition run hτ₁
      rw [List.append_assoc] at run
      obtain ⟨pool₁, w₁, first, -⟩ := run.split
      have charged := ih first hσ₁
      have another : 0 < eventsBeside stream j σ₂ := eventsBeside_pos hk hpos
      have one : eventCount [(.received (events j) : Entry E)] = 1 := rfl
      rw [refused_refusing he, one, eventsBeside_append]
      omega

/-- However the turns of deliveries to one stream fall, each of them meets at most as many conflicts as there are
deliveries: one at the sentinel, and one for each event that another one records. If the policy allows as many
retries none gives up; an effect of the process may fail with the same error. -/
theorem contention_bounded (hstore : world.Arbitrates stream entries) (hp : p.Asks (Request.Spares stream) i)
    (run : Pool.Run world (fun j => deliver policy p i stream (events j)) w₀ τ pool w) (j : ι) :
    (refused stream (exchangesOf j τ)).countP Entry.isStart ≤ 1 ∧
    eventCount (refused stream (exchangesOf j τ)) ≤ eventsBeside stream j τ ∧
    eventsBeside stream j τ < Fintype.card ι ∧
    (refused stream (exchangesOf j τ)).length ≤ Fintype.card ι ∧
    (Fintype.card ι ≤ policy.maxAttempts → ∀ s n, pool j = .fail (.delivery (.retriesExhausted s n)) →
      Inside p i stream (events j) (exchangesOf j τ) (pool j)) := by
  have hsentinel := sentinel_refused_le hstore hp run (j := j)
  have hevents := events_refused_le hstore hp run (j := j)
  have hbeside := eventsBeside_lt hp run j
  have hall : (refused stream (exchangesOf j τ)).length ≤ Fintype.card ι := by
    rw [length_eq_eventCount]
    omega
  refine ⟨hsentinel, hevents, hbeside, hall, fun hallowed s n hfail => ?_⟩
  have leads := run.leads j
  rw [hfail] at leads ⊢
  obtain ⟨lost, last, rest, accounted⟩ := leads_deliver_iff.mp leads
  rcases accounted.failed with hending | ⟨hraces, hlength, -⟩
  · rw [accounted.exchanges]
    exact hending.inside _
  · -- as many attempts have lost a race as are allowed and one more
    have hmany := length_le_refused hraces
    rw [accounted.flatten, List.length_append, List.length_singleton, hlength] at hmany
    omega

end

end

def crossing : Pool.State (requests ⟨String, fun _ => Unit⟩ Empty Nat) Failure Unit Bool
    (List String × MemoryStore (Entry Nat)) :=
  Pool.play noting.host (fun j => deliver RetryPolicy.standard.punctual tally () "t" (if j then 4 else 2))
    ([], ⟨[("t", [.started])]⟩)
    [false, true, false, true, false, false, true]

theorem contention_bounded_crossing : (noting.host (E := Nat)).shared.Arbitrates "t" (fun w => w.2.entries "t") ∧
    tally.Asks (Request.Spares "t") () ∧
    Pool.Run noting.host.shared (fun j => deliver RetryPolicy.standard.punctual tally () "t" (if j then 4 else 2))
      ([], ⟨[("t", [.started])]⟩) crossing.1 crossing.2.1 crossing.2.2 ∧
    refused "t" (exchangesOf true crossing.1) = [.received 4] ∧
    crossing.2.2 = (["counted"], ⟨[("t", [.started, .received 2])]⟩) ∧
    (refused "t" (exchangesOf true crossing.1)).length ≤ 2 ∧
    eventCount (refused "t" (exchangesOf true crossing.1)) ≤ eventsBeside "t" true crossing.1 := by
  have hstore := noting.arbitrates (E := Nat) "t"
  have hp : tally.Asks (Request.Spares "t") () := tally_asks.imp fun op h => h.spares "t"
  have run : Pool.Run noting.host.shared
      (fun j => deliver RetryPolicy.standard.punctual tally () "t" (if j then 4 else 2))
      ([], ⟨[("t", [.started])]⟩) crossing.1 crossing.2.1 crossing.2.2 := Pool.run_play _
  obtain ⟨-, hevents, -, hall, -⟩ := contention_bounded hstore hp run true
  exact ⟨hstore, hp, run, rfl, rfl, hall, hevents⟩

end Workflow.Delivery

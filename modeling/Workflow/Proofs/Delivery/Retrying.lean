import Workflow.Proofs.Delivery.Ending
import Workflow.Proofs.Delivery.Sequential
import Workflow.Proofs.Delivery.Standing
import Workflow.Proofs.Store.Clearing

/-!
# How often a delivery tries

A delivery is a row of attempts, each of which but the last has lost a race. Main statement:
`retries_accounted`, by which there are as many as the races lost, within what the retry policy allows, and the
delivery ends as the last of them or gives up.
-/

namespace Workflow.Delivery

universe u v

variable {Ω : Signature} {H I S E R : Type}

/-! ## Lost attempts -/

section
variable [Inhabited S] (p : Definition Ω H I S E R) (i : I) (stream : String) (event : E)

/-- An attempt has lost a race with these exchanges: at the sentinel of a stream it missed, or at the event
after a history in which that is accepted. -/
inductive Lost : List (Exchange (requests Ω H E)) → Prop
  | taken {e} (he : e.isConcurrency) : Lost [looking stream false, refusing stream .started 0 e]
  | overtaken {t loaded fx e} (ho : Opening p i stream t) (h : p.Transition i loaded event fx)
      (he : e.isConcurrency) :
      Lost (t ++ [reading stream loaded, refusing stream (.received event) loaded.length e])

variable {p i stream event}

theorem lost_iff {t : List (Exchange (requests Ω H E))} :
    Lost p i stream event t ↔ ∃ e, (attempt p i stream event).Leads t (.pure (some e)) := by
  refine ⟨fun h => ?_, fun ⟨e, h⟩ => ?_⟩
  · cases h with
    | taken he => exact ⟨_, (Ending.taken he).leads⟩
    | overtaken ho h he => exact ⟨_, (Ending.overtaken ho h he).leads⟩
  · generalize hr : (Effect.pure (some e) : Task Ω H E (Option StoreError)) = r at h
    cases ending_iff.mpr ⟨h, hr ▸ .pure _⟩ with
    | taken he => exact .taken he
    | overtaken ho htransition he => exact .overtaken ho htransition he
    | _ => cases hr

end

/-! ## Rows of attempts -/

section
variable [Inhabited S] (policy : PacedPolicy) (p : Definition Ω H I S E R) (i : I) (stream : String) (event : E)

/-- The exchanges `t` of a delivery are those of the attempts it has lost and of the one that is left or was
the last, of which there is `rest`. -/
structure Accounted (t : List (Exchange (requests Ω H E))) (r : Task Ω H E Unit)
    (lost : List (List (Exchange (requests Ω H E)))) (last : List (Exchange (requests Ω H E)))
    (rest : Task Ω H E (Option StoreError)) : Prop where
  exchanges : t = lost.flatten ++ last
  races : ∀ a ∈ lost, Lost p i stream event a
  allowed : lost.length ≤ policy.maxAttempts
  latest : (attempt p i stream event).Leads last rest
  left : r = rest.bind
    (following policy p i stream event (policy.maxAttempts - lost.length) (UInt32.ofNat lost.length))
  ended : rest.IsOver → Ending p i stream event last rest
  counted : (UInt32.ofNat lost.length).toNat = lost.length

end

section
variable [Inhabited S] {policy : PacedPolicy} {p : Definition Ω H I S E R} {i : I} {stream : String} {event : E}

theorem leads_retrying {attempt : Task Ω H E (Option StoreError)} {left : Nat} {retries : UInt32}
    {t : List (Exchange (requests Ω H E))} {r : Task Ω H E Unit}
    (h : (retrying policy stream attempt left retries).Leads t r) :
    (∃ rest, attempt.Leads t rest ∧ r = rest.bind (again policy stream attempt left retries)) ∨
      ∃ first t' others e, left = others + 1 ∧ t = first ++ t' ∧ attempt.Leads first (.pure (some e)) ∧
        (retrying policy stream attempt others (retries + 1)).Leads t' r := by
  rw [retrying_eq] at h
  rcases h.of_bind with hfirst | ⟨first, t', conflict, rfl, hfirst, hover⟩
  · exact .inl hfirst
  have hwhole : attempt.Leads (first ++ []) (.pure conflict) := by rw [List.append_nil]; exact hfirst
  cases conflict with
  | none =>
    rw [again_none] at hover
    obtain ⟨rfl, rfl⟩ := hover.of_pure
    exact .inl ⟨.pure none, hwhole, (again_none ..).symm⟩
  | some e =>
    cases left with
    | zero =>
      obtain ⟨rfl, rfl⟩ := hover.of_fail
      exact .inl ⟨.pure (some e), hwhole, rfl⟩
    | succ left =>
      rw [again_some] at hover
      rcases hover.of_suspend with ⟨rfl, rfl⟩ | hagain
      · refine .inl ⟨.pure (some e), hwhole, ?_⟩
        rw [Effect.pure_bind, again_some]
      · exact .inr ⟨first, t', left, e, rfl, rfl, hfirst, hagain⟩

theorem lost_of_retrying {left retries : Nat} {t : List (Exchange (requests Ω H E))} {r : Task Ω H E Unit}
    (h : (retrying policy stream (attempt p i stream event) left (UInt32.ofNat retries)).Leads t r) :
    ∃ (lost : List (List (Exchange (requests Ω H E)))) (last : List (Exchange (requests Ω H E)))
      (rest : Task Ω H E (Option StoreError)), t = lost.flatten ++ last ∧ (∀ a ∈ lost, Lost p i stream event a) ∧
        lost.length ≤ left ∧ (attempt p i stream event).Leads last rest ∧
        r = rest.bind
          (following policy p i stream event (left - lost.length) (UInt32.ofNat (retries + lost.length))) := by
  induction left generalizing retries t with
  | zero =>
    rcases leads_retrying h with ⟨rest, hrest, hr⟩ | ⟨first, t', others, e, hleft, -⟩
    · exact ⟨[], t, rest, rfl, by simp, Nat.le_refl _, hrest, hr⟩
    · cases hleft
  | succ left ih =>
    rcases leads_retrying h with ⟨rest, hrest, hr⟩ | ⟨first, t', others, e, hleft, rfl, hfirst, hagain⟩
    · exact ⟨[], t, rest, rfl, by simp, Nat.zero_le _, hrest, hr⟩
    · cases hleft
      rw [← UInt32.ofNat_one, ← UInt32.ofNat_add] at hagain
      obtain ⟨lost, last, rest, rfl, hlost, hlen, hlast, rfl⟩ := ih hagain
      refine ⟨first :: lost, last, rest, (List.append_assoc ..).symm, ?_, Nat.succ_le_succ hlen, hlast, ?_⟩
      · exact List.forall_mem_cons.mpr ⟨lost_iff.mpr ⟨e, hfirst⟩, hlost⟩
      · rw [List.length_cons, Nat.succ_sub_succ, Nat.add_right_comm, Nat.add_assoc]

theorem retrying_of_lost (policy : PacedPolicy) {lost : List (List (Exchange (requests Ω H E)))}
    (hlost : ∀ a ∈ lost, Lost p i stream event a) {left : Nat} (hlen : lost.length ≤ left) (retries : Nat) :
    (retrying policy stream (attempt p i stream event) left (UInt32.ofNat retries)).Leads lost.flatten
      (retrying policy stream (attempt p i stream event) (left - lost.length)
        (UInt32.ofNat (retries + lost.length))) := by
  induction lost generalizing left retries with
  | nil => exact .nil
  | cons a lost ih =>
    obtain ⟨left, rfl⟩ := Nat.exists_eq_succ_of_ne_zero (Nat.ne_of_gt (Nat.lt_of_lt_of_le (Nat.succ_pos _) hlen))
    obtain ⟨e, ha⟩ := lost_iff.mp (hlost a List.mem_cons_self)
    have hfirst : (retrying policy stream (attempt p i stream event) (left + 1) (UInt32.ofNat retries)).Leads a
        ((Effect.suspend (policy.sleep (policy.delay (UInt32.ofNat retries + 1).toNat))).andThen
          (retrying policy stream (attempt p i stream event) left (UInt32.ofNat (retries + 1)))) := by
      have hagain := ha.bind (again policy stream (attempt p i stream event) (left + 1) (UInt32.ofNat retries))
      rw [UInt32.ofNat_add]
      rw [Effect.pure_bind, again_some] at hagain
      rw [retrying_eq]
      exact hagain
    have hnext := ih (fun b hb => hlost b (List.mem_cons_of_mem a hb)) (Nat.le_of_succ_le_succ hlen) (retries + 1)
    rw [List.length_cons, Nat.succ_sub_succ, ← Nat.add_assoc, Nat.add_right_comm]
    exact hfirst.trans ((Effect.Leads.suspend_andThen _ _).trans hnext)

/-- As long as `left` and the counter stand for all the retries that are allowed, it is the policy that is asked
for each of them, and the counter does not overflow. -/
theorem again_allows (stream : String) (attempt : Task Ω H E (Option StoreError)) {left : Nat} {retries : UInt32}
    (h : left + retries.toNat = policy.maxAttempts) (e : StoreError) :
    again policy stream attempt left retries (some e) =
      if policy.allows retries.toNat then
        (Effect.suspend (policy.sleep (policy.delay (retries.toNat + 1)))).andThen
          (retrying policy stream attempt (left - 1) (retries + 1))
      else .fail (.delivery (.retriesExhausted stream (min (retries.toNat + 1) RetryPolicy.countLimit))) := by
  cases left with
  | zero =>
    have hnone : ¬ policy.allows retries.toNat := by
      unfold RetryPolicy.allows
      rw [decide_eq_true_iff]
      omega
    rw [if_neg hnone]
    rfl
  | succ left =>
    have hallowed : policy.allows retries.toNat := by
      unfold RetryPolicy.allows
      rw [decide_eq_true_iff]
      omega
    rw [if_pos hallowed, again_some, policy.toNat_add_one hallowed]
    rfl

theorem leads_deliver_iff {t : List (Exchange (requests Ω H E))} {r : Task Ω H E Unit} :
    (deliver policy p i stream event).Leads t r ↔
      ∃ lost last rest, Accounted policy p i stream event t r lost last rest := by
  unfold deliver
  constructor
  · intro h
    have hloop : (retrying policy stream (attempt p i stream event) policy.maxAttempts (UInt32.ofNat 0)).Leads t r := h
    obtain ⟨lost, last, rest, ht, hlost, hlen, hlast, hr⟩ := lost_of_retrying hloop
    rw [Nat.zero_add] at hr
    exact ⟨lost, last, rest, ht, hlost, hlen, hlast, hr, fun hover => ending_iff.mpr ⟨hlast, hover⟩,
      policy.toNat_ofNat hlen⟩
  · rintro ⟨lost, last, rest, rfl, hlost, hlen, hlast, rfl, -, -⟩
    have hrow := retrying_of_lost policy hlost hlen 0
    rw [Nat.zero_add, retrying_eq policy stream _ (policy.maxAttempts - lost.length)] at hrow
    exact hrow.trans (hlast.bind _)

end

section
variable [Inhabited S] {policy : PacedPolicy} {p : Definition Ω H I S E R} {i : I} {stream : String} {event : E}

theorem following_eq_fail {left : Nat} {retries : UInt32} {e : StoreError} {err : Failure}
    (h : following policy p i stream event left retries (some e) = .fail err) :
    left = 0 ∧ err = .delivery (.retriesExhausted stream (min (retries.toNat + 1) RetryPolicy.countLimit)) := by
  cases left with
  | zero => cases h; exact ⟨rfl, rfl⟩
  | succ left =>
    rw [following, again_some] at h
    cases hsleep : policy.sleep (policy.delay (retries + 1).toNat) with
    | none =>
      rw [hsleep, Effect.andThen, Effect.suspend, Effect.unit, Effect.pure_bind, retrying_eq, attempt_bind] at h
      cases h
    | some time =>
      rw [hsleep] at h
      cases h

theorem Accounted.flatten {t : List (Exchange (requests Ω H E))} {r : Task Ω H E Unit} {lost last rest}
    (h : Accounted policy p i stream event t r lost last rest) : (lost ++ [last]).flatten = t := by
  rw [h.exchanges]
  simp

theorem Accounted.failed {t : List (Exchange (requests Ω H E))} {err : Failure} {lost last rest}
    (h : Accounted policy p i stream event t (.fail err) lost last rest) :
    Ending p i stream event last (.fail err) ∨
      (∀ a ∈ lost ++ [last], Lost p i stream event a) ∧ lost.length = policy.maxAttempts ∧
        err = .delivery (.retriesExhausted stream (min (policy.maxAttempts + 1) RetryPolicy.countLimit)) := by
  have hleft := h.left
  cases rest with
  | fail e =>
    cases hleft
    exact .inl (h.ended (.fail err))
  | pure conflict =>
    cases conflict with
    | none => rw [Effect.pure_bind, following, again_none] at hleft; cases hleft
    | some e =>
      obtain ⟨hover, herr⟩ := following_eq_fail hleft.symm
      have hall : lost.length = policy.maxAttempts := Nat.le_antisymm h.allowed (Nat.le_of_sub_eq_zero hover)
      rw [h.counted, hall] at herr
      refine .inr ⟨fun a ha => ?_, hall, herr⟩
      rcases List.mem_append.mp ha with ha | ha
      · exact h.races a ha
      · obtain rfl := List.mem_singleton.mp ha
        exact lost_iff.mpr ⟨e, h.latest⟩
  | call op next => cases hleft
  | pause time next => cases hleft

end

/-! ## Runs -/

section
variable {W : Type} (host : Host (requests Ω H E) W)

def Conflicts (outcome : Outcome Failure (Option StoreError)) : Prop :=
  ∃ e, outcome = .done (some e)

def waited (time? : Option Duration) (w : W) : W :=
  match time? with
  | none => w
  | some time => host.wait time w

theorem run_suspend_andThen (time? : Option Duration) (e : Task Ω H E Unit) (w : W) :
    ((Effect.suspend time?).andThen e).run host w = e.run host (waited host time? w) := by
  cases time? <;> rfl

theorem transcript_suspend_andThen (time? : Option Duration) (e : Task Ω H E Unit) (w : W) :
    ((Effect.suspend time?).andThen e).transcript host w = e.transcript host (waited host time? w) := by
  cases time? <;> rfl

variable (policy : PacedPolicy) (stream : String) (attempt : Task Ω H E (Option StoreError)) (w : W)

/-- The world in which an attempt begins after so many others: `w`, or that which the attempt before it has left
and the clock has let the delay pass in. -/
def entered : Nat → W
  | 0 => w
  | k + 1 => waited host (policy.sleep (policy.delay (k + 1))) (attempt.run host (entered k)).2

def tried (k : Nat) : Outcome Failure (Option StoreError) × W :=
  attempt.run host (entered host policy attempt w k)

theorem entered_succ {k : Nat} {time : Duration} (h : policy.sleep (policy.delay (k + 1)) = some time) :
    entered host policy attempt w (k + 1) = host.wait time (tried host policy attempt w k).2 := by
  rw [entered, h]
  rfl

def tries (k : Nat) : List (Exchange (requests Ω H E)) :=
  (List.range k).flatMap fun j => attempt.transcript host (entered host policy attempt w j)

theorem tries_succ (k : Nat) : tries host policy attempt w (k + 1) =
    tries host policy attempt w k ++ attempt.transcript host (entered host policy attempt w k) := by
  simp [tries, List.range_succ]

variable {host policy attempt w}

theorem run_retrying {k : Nat} (h : ∀ j < k, Conflicts (tried host policy attempt w j).1) {left : Nat}
    (hleft : left + k ≤ policy.maxAttempts) :
    (retrying policy stream attempt (left + k) 0).run host w =
        (retrying policy stream attempt left (UInt32.ofNat k)).run host (entered host policy attempt w k) ∧
      (retrying policy stream attempt (left + k) 0).transcript host w = tries host policy attempt w k ++
        (retrying policy stream attempt left (UInt32.ofNat k)).transcript host
          (entered host policy attempt w k) := by
  induction k generalizing left with
  | zero => exact ⟨rfl, rfl⟩
  | succ k ih =>
    have hleft' : left + 1 + k ≤ policy.maxAttempts := by omega
    obtain ⟨hrun, htranscript⟩ := ih (fun j hj => h j (Nat.lt_succ_of_lt hj)) hleft'
    obtain ⟨e, he⟩ := h k (Nat.lt_succ_self k)
    have hcounter : UInt32.ofNat k + 1 = UInt32.ofNat (k + 1) := (UInt32.ofNat_add k 1).symm
    rw [← Nat.succ_add_eq_add_succ, hrun, htranscript, retrying_eq policy stream attempt (left + 1),
      Effect.run_bind, Effect.transcript_bind, tries_succ, entered, List.append_assoc]
    unfold tried at he
    generalize attempt.run host (entered host policy attempt w k) = last at he
    obtain ⟨outcome, w'⟩ := last
    obtain rfl : outcome = .done (some e) := he
    dsimp only
    rw [again_some, run_suspend_andThen, transcript_suspend_andThen, hcounter,
      policy.toNat_ofNat (Nat.le_trans (Nat.le_add_left (k + 1) left) hleft)]
    exact ⟨rfl, rfl⟩

theorem run_retrying_settled {k : Nat} (h : ∀ j < k, Conflicts (tried host policy attempt w j).1)
    (hk : ¬ Conflicts (tried host policy attempt w k).1) {left : Nat} (hleft : left + k ≤ policy.maxAttempts) :
    (retrying policy stream attempt (left + k) 0).run host w =
        ((tried host policy attempt w k).1.discard, (tried host policy attempt w k).2) ∧
      (retrying policy stream attempt (left + k) 0).transcript host w = tries host policy attempt w (k + 1) := by
  obtain ⟨hrun, htranscript⟩ := run_retrying stream h hleft
  rw [hrun, htranscript, retrying_eq, Effect.run_bind, Effect.transcript_bind, tries_succ]
  unfold tried at hk ⊢
  generalize attempt.run host (entered host policy attempt w k) = last at hk ⊢
  obtain ⟨outcome, w'⟩ := last
  cases outcome with
  | done conflict =>
    cases conflict with
    | none => simp only [again_none]; exact ⟨rfl, by rw [Effect.unit, Effect.transcript, List.append_nil]⟩
    | some e => exact absurd ⟨e, rfl⟩ hk
  | failed err => exact ⟨rfl, by rw [List.append_nil]⟩
  | stopped => exact ⟨rfl, by rw [List.append_nil]⟩

theorem run_retrying_exhausted {k : Nat} (h : ∀ j ≤ k, Conflicts (tried host policy attempt w j).1)
    (hk : k ≤ policy.maxAttempts) :
    (retrying policy stream attempt k 0).run host w =
        (.failed (.delivery (.retriesExhausted stream (min (k + 1) RetryPolicy.countLimit))),
          (tried host policy attempt w k).2) ∧
      (retrying policy stream attempt k 0).transcript host w = tries host policy attempt w (k + 1) := by
  obtain ⟨hrun, htranscript⟩ :=
    run_retrying stream (fun j hj => h j (Nat.le_of_lt hj)) (Nat.zero_add k ▸ hk)
  rw [Nat.zero_add] at hrun htranscript
  obtain ⟨e, he⟩ := h k (Nat.le_refl k)
  rw [hrun, htranscript, retrying_eq, Effect.run_bind, Effect.transcript_bind, tries_succ]
  unfold tried at he ⊢
  generalize attempt.run host (entered host policy attempt w k) = last at he ⊢
  obtain ⟨outcome, w'⟩ := last
  obtain rfl : outcome = .done (some e) := he
  dsimp only
  rw [again, policy.toNat_ofNat hk, Effect.run_fail, Effect.transcript, List.append_nil]
  exact ⟨rfl, rfl⟩

end

/-! ## The initial effect -/

/-- The attempt has started its stream: what it goes on with is the initial effect. -/
def Begins (stream : String) (a : List (Exchange (requests Ω H E))) : Prop :=
  ∃ version v, a = looking stream false :: writing stream .started 0 version :: v

section
variable {ι : Type v} [DecidableEq ι] {W : Type} {world : Shared (requests Ω H E) W} {stream : String}
  {entries : W → List (Entry E)} {pool₀ pool : ι → Task Ω H E Unit} {w₀ w : W}
  {τ : List (ι × Exchange (requests Ω H E))} {j : ι}

theorem found_since (hserves : world.Serves stream entries) (run : Pool.Run world pool₀ w₀ τ pool w)
    (hkept : ∀ turn ∈ τ, ¬ turn.2.clears stream) {t₁ t₂ t₃ : List (Exchange (requests Ω H E))} {version : Nat}
    (hj : exchangesOf j τ = t₁ ++ writing stream .started 0 version :: (t₂ ++ looking stream false :: t₃)) : False := by
  obtain ⟨τ₁, τ₂, rfl, -, hτ₂⟩ := Pool.exists_turn_of_exchangesOf hj
  obtain ⟨pool₁, w₁, next, w₂, -, -, ha, rest⟩ := run.cut
  have hsome : entries w₂ ≠ [] := by
    rw [(hserves.append_ok ha).2]
    exact List.append_ne_nil_of_right_ne_nil _ (List.cons_ne_nil _ _)
  have hkept' : ∀ turn ∈ τ₂, ¬ turn.2.clears stream := fun turn hturn =>
    hkept turn (List.mem_append_right _ (List.mem_cons_of_mem _ hturn))
  refine present_since hserves rest hkept' hsome j (Pool.mem_exchangesOf.mp ?_)
  rw [hτ₂]
  exact List.mem_append_right t₂ List.mem_cons_self

theorem begins_once (hserves : world.Serves stream entries) (run : Pool.Run world pool₀ w₀ τ pool w)
    (hkept : ∀ turn ∈ τ, ¬ turn.2.clears stream) {before : List (Exchange (requests Ω H E))}
    {attempts : List (List (Exchange (requests Ω H E)))} (hj : exchangesOf j τ = before ++ attempts.flatten) :
    attempts.Pairwise fun a b => ¬ (Begins stream a ∧ Begins stream b) := by
  induction attempts generalizing before with
  | nil => exact .nil
  | cons a attempts ih =>
    refine .cons ?_ (ih (hj.trans (by rw [List.flatten_cons, List.append_assoc])))
    rintro b hb ⟨⟨version, v, rfl⟩, ⟨version', v', rfl⟩⟩
    obtain ⟨between, later, rfl⟩ := List.append_of_mem hb
    have hsplit : exchangesOf j τ = (before ++ [looking stream false]) ++ writing stream .started 0 version ::
        ((v ++ between.flatten) ++ looking stream false ::
          (writing stream .started 0 version' :: v' ++ later.flatten)) := by
      rw [hj]; simp
    exact found_since hserves run hkept hsplit

end

/-! ## What a delivery comes to -/

/-- If the first attempts of a delivery meet conflicts and the next does not, within the retries that are allowed,
then these are all it makes and it ends as the last one, having slept for the delay of each retry before it: where the
clock sleeps for the very time it is given, that is what passes. If there are no more retries it has given up. Its counter tells how many retries it has made. The attempts it lost have
recorded neither the event nor run its effect, and while nobody clears the stream one attempt at most runs the
initial effect. -/
theorem retries_accounted [Inhabited S] (policy : PacedPolicy) (p : Definition Ω H I S E R) (i : I) (stream : String)
    (event : E) :
    (∀ (W : Type) (host : Host (requests Ω H E) W) (w : W),
      (∀ k ≤ policy.maxAttempts, (∀ j < k, Conflicts (tried host policy (attempt p i stream event) w j).1) →
        ¬ Conflicts (tried host policy (attempt p i stream event) w k).1 →
        (deliver policy p i stream event).run host w =
            ((tried host policy (attempt p i stream event) w k).1.discard,
              (tried host policy (attempt p i stream event) w k).2) ∧
          (deliver policy p i stream event).transcript host w =
            tries host policy (attempt p i stream event) w (k + 1)) ∧
      ((∀ j ≤ policy.maxAttempts, Conflicts (tried host policy (attempt p i stream event) w j).1) →
        (deliver policy p i stream event).run host w =
            (.failed (.delivery (.retriesExhausted stream (min (policy.maxAttempts + 1) RetryPolicy.countLimit))),
              (tried host policy (attempt p i stream event) w policy.maxAttempts).2) ∧
          (deliver policy p i stream event).transcript host w =
            tries host policy (attempt p i stream event) w (policy.maxAttempts + 1)) ∧
      ∀ k, policy.sleep (policy.delay (k + 1)) = some (policy.delay (k + 1)) →
        entered host policy (attempt p i stream event) w (k + 1) =
          host.wait (policy.delay (k + 1)) (tried host policy (attempt p i stream event) w k).2) ∧
    (∀ left retries, left + retries.toNat = policy.maxAttempts → ∀ e,
      following policy p i stream event left retries (some e) =
        if policy.allows retries.toNat then
          (Effect.suspend (policy.sleep (policy.delay (retries.toNat + 1)))).andThen
            (retrying policy stream (attempt p i stream event) (left - 1) (retries + 1))
        else .fail (.delivery (.retriesExhausted stream (min (retries.toNat + 1) RetryPolicy.countLimit)))) ∧
    (∀ t, Lost p i stream event t ↔ ∃ e, (attempt p i stream event).Leads t (.pure (some e))) ∧
    (∀ t r, (deliver policy p i stream event).Leads t r ↔
      ∃ lost last rest, Accounted policy p i stream event t r lost last rest) ∧
    ∀ (ι W : Type) [DecidableEq ι] (world : Shared (requests Ω H E) W) (entries : W → List (Entry E))
      (pool₀ pool : ι → Task Ω H E Unit) (w₀ w : W) (τ : List (ι × Exchange (requests Ω H E))) (j : ι),
      world.Serves stream entries → Pool.Run world pool₀ w₀ τ pool w → (∀ turn ∈ τ, ¬ turn.2.clears stream) →
      ∀ lost last rest, Accounted policy p i stream event (exchangesOf j τ) (pool j) lost last rest →
        (lost ++ [last]).Pairwise fun a b => ¬ (Begins stream a ∧ Begins stream b) := by
  refine ⟨fun W host w => ⟨fun k hk hlost hlast => ?_, fun hlost => ?_, fun k hsleep => ?_⟩,
    fun left retries h => again_allows stream _ h, fun t => lost_iff, fun t r => leads_deliver_iff, ?_⟩
  · have hleft : policy.maxAttempts - k + k = policy.maxAttempts := Nat.sub_add_cancel hk
    have hsettled := run_retrying_settled stream hlost hlast (Nat.le_of_eq hleft)
    rw [hleft] at hsettled
    exact hsettled
  · exact run_retrying_exhausted stream hlost (Nat.le_refl _)
  · exact entered_succ host policy (attempt p i stream event) w hsleep
  · intro ι W _ world entries pool₀ pool w₀ w τ j hserves run hkept lost last rest accounted
    exact begins_once hserves run hkept (accounted.flatten.symm.trans (List.nil_append _).symm)

def crowded (losses : Nat) : Host (requests ⟨String, fun _ => Unit⟩ Empty Nat) (Nat × List Duration) where
  answer
    | .act _, w => some ((), w)
    | .store (.append stream _ expected), (n, times) =>
      some (if n < losses then .error (.concurrency stream expected (expected + 1)) else .ok (expected + 1), n + 1,
        times)
    | .store (.load _ _), w => some (.ok [.started], w)
    | .store (.contains _), w => some (.ok true, w)
    | .store (.delete _), w => some (.ok (), w)
    | .mediator, w => some (.empty, w)
    | .nestedTooDeep, _ => none
  wait time w := (w.1, w.2 ++ [time])

theorem retries_accounted_crowded :
    let patient := (RetryPolicy.fixed 1 (.ofMilliseconds 5)).punctual
    let delivery := deliver patient tally () "t" 2
    patient.sleep (patient.delay 1) = some (patient.delay 1) ∧
    (delivery.run (crowded 1) (0, []) = (.done (), 2, [patient.delay 1]) ∧
      (delivery.transcript (crowded 1) (0, [])).length = 7) ∧
    (delivery.run (crowded 2) (0, []) = (.failed (.delivery (.retriesExhausted "t" 2)), 2, [patient.delay 1]) ∧
      (delivery.transcript (crowded 2) (0, [])).length = 6) := by
  intro patient delivery
  obtain ⟨settled, -, slept⟩ := (retries_accounted patient tally () "t" 2).1 _ (crowded 1) (0, [])
  obtain ⟨-, exhausted, slept'⟩ := (retries_accounted patient tally () "t" 2).1 _ (crowded 2) (0, [])
  have second : entered (crowded 1) patient (attempt tally () "t" 2) (0, []) 1 = (1, [patient.delay 1]) := slept 0 rfl
  have second' : entered (crowded 2) patient (attempt tally () "t" 2) (0, []) 1 = (1, [patient.delay 1]) := slept' 0 rfl
  refine ⟨rfl, ?_, ?_⟩
  · have hsettled := settled 1 (Nat.le_refl 1) (fun j hj => ?_) ?_
    · obtain ⟨hrun, htranscript⟩ := hsettled
      rw [tried, second] at hrun
      rw [tries_succ, tries_succ, second] at htranscript
      exact ⟨hrun, by rw [htranscript]; rfl⟩
    · obtain rfl : j = 0 := by omega
      exact ⟨.concurrency "t" 1 2, rfl⟩
    · rw [tried, second]
      rintro ⟨e, he⟩
      cases he
  · have hexhausted := exhausted fun j hj => ?_
    · obtain ⟨hrun, htranscript⟩ := hexhausted
      rw [show patient.maxAttempts = 1 from rfl] at hrun htranscript
      rw [tried, second'] at hrun
      rw [tries_succ, tries_succ, second'] at htranscript
      exact ⟨hrun, by rw [htranscript]; rfl⟩
    · match j, hj with
      | 0, _ => exact ⟨.concurrency "t" 1 2, rfl⟩
      | 1, _ => rw [tried, second']; exact ⟨.concurrency "t" 1 2, rfl⟩

end Workflow.Delivery

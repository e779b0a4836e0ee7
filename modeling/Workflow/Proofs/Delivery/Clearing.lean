import Workflow.Proofs.Delivery.Sequential
import Workflow.Proofs.Delivery.Standing
import Workflow.Proofs.Store.Clearing

/-!
# Deliveries and clearings

Any number of deliveries of one instance take turns with calls that clear its stream. Versions are counts of
entries, so an append that fits need not meet the history it was made for: the stream may have been cleared and
grown to the same length again. Main statement: `concurrent_clearing`. An event is recorded by a delivery to
which it was acceptable after the history it had loaded, and that is the stream the event is appended to unless
a clearing has come in between (`clearing_overtakes`).
-/

namespace Workflow.Delivery

universe v

variable {Ω : Signature} {H I S E R W : Type}

inductive Visit (E : Type) where
  | deliver (event : E)
  | clear

def Visit.task [Inhabited S] (policy : PacedPolicy) (p : Definition Ω H I S E R) (i : I) (stream : String) :
    Visit E → Task Ω H E Unit
  | deliver event => Delivery.deliver policy p i stream event
  | clear => Delivery.clear stream

/-- The exchange has told a delivery that its stream is there: it was found or started. -/
def Confirms (stream : String) (x : Exchange (requests Ω H E)) : Prop :=
  x = looking stream true ∨ ∃ version, x = writing stream .started 0 version

/-! ## Inside the effects of the process -/

section
variable [Inhabited S] (p : Definition Ω H I S E R) (i : I) (stream : String) (event : E)

/-- A delivery has come to where an effect of the process is left to run, and has this left of it: the initial
effect, right after the sentinel, or that of the transition which the event makes after the loaded history. -/
inductive Inside : List (Exchange (requests Ω H E)) → Task Ω H E Unit → Prop
  | initial {t version v r} (hv : (p.run i default).1.Leads v r) :
      Inside (t ++ looking stream false :: writing stream .started 0 version :: v) r
  | step {t loaded version v fx r} (h : p.Transition i loaded event fx) (hv : fx.Leads v r) :
      Inside (t ++ reading stream loaded :: writing stream (.received event) loaded.length version :: v) r

end

section
variable [Inhabited S] {policy : PacedPolicy} {p : Definition Ω H I S E R} {i : I} {stream : String} {event : E}
  {t : List (Exchange (requests Ω H E))} {r : Task Ω H E Unit} {op : Request Ω H E}
  {next : (requests Ω H E).Answer op → Task Ω H E Unit}

theorem Opened.confirmed (h : Opened p i stream t r) : ∃ t₀ x v, t = t₀ ++ x :: v ∧ Confirms stream x := by
  cases h with
  | @found t => exact ⟨t, _, [], rfl, .inl rfl⟩
  | @begun t version v fx hv =>
    exact ⟨t ++ [looking stream false], _, v, by rw [List.append_assoc]; rfl, .inr ⟨version, rfl⟩⟩

theorem Pending.inside (h : Pending policy p i stream event t op next) (hop : op.Spares stream) :
    ∃ rest, Inside p i stream event t (.call op rest) := by
  cases h with
  | opening hv => exact ⟨_, .initial hv⟩
  | running h hv => exact ⟨_, .step h hv⟩
  | _ => exact absurd rfl hop

theorem Standing.invalidHistory {flaw : HistoryFlaw} (h : Standing policy p i stream event t r)
    (hr : r = .fail (.delivery (.invalidHistory flaw))) :
    Inside p i stream event t r ∨
      ∃ t₀ loaded, t = t₀ ++ [Delivery.reading stream loaded] ∧ Opened p i stream t₀ .unit ∧
        p.replay i loaded = .error flaw := by
  cases h with
  | trying => rw [retrying_eq, attempt_bind] at hr; cases hr
  | starting => rw [record_bind_eq] at hr; cases hr
  | @reading t fx left retries ho =>
    cases fx with
    | fail err =>
      cases ho with
      | begun hv => exact .inl (.initial hv)
    | _ => cases hr
  | recording _ _ => rw [record_bind_eq] at hr; cases hr
  | running h hv => exact .inl (.step h hv)
  | invalid ho hflaw => cases hr; exact .inr ⟨_, _, rfl, ho, hflaw⟩
  | _ => cases hr

theorem Pending.received (hp : p.Asks (Request.Spares stream) i) (h : Pending policy p i stream event t op next)
    {x : (requests Ω H E).Answer op} {e : E} (he : .received e ∈ (Exchange.mk op x).added stream) :
    e = event ∧ ∃ t₀ loaded version, t = t₀ ++ [Delivery.reading stream loaded] ∧
      p.Transition i loaded event (next x) ∧
      Exchange.mk op x = writing stream (.received event) loaded.length version := by
  cases h with
  | looking => cases he
  | starting =>
    match x, he with
    | .ok version, he =>
      rw [Exchange.added_append, if_pos rfl] at he
      cases List.mem_singleton.mp he
  | opening hv =>
    rw [Exchange.added_of_spares (hv.asks hp.1).2.1] at he
    cases he
  | reading ho => cases he
  | @recording t loaded fx left retries ho h =>
    match x, he with
    | .ok version, he =>
      rw [Exchange.added_append, if_pos rfl] at he
      cases List.mem_singleton.mp he
      refine ⟨rfl, t, loaded, version, rfl, ?_, rfl⟩
      show p.Transition i loaded event ((conclude fx).bind _)
      rw [conclude_bind_of_unit fx (again_none ..)]
      exact h
  | running h hv =>
    rw [Exchange.added_of_spares (hv.asks (hp.transition h)).2.1] at he
    cases he

theorem Pending.history {world : Shared (requests Ω H E) W} {entries : W → List (Entry E)}
    (hserves : world.Serves stream entries) (hp : p.Asks (Request.Spares stream) i)
    (h : Pending policy p i stream event t op next) {w w' : W} {x} {old : Option (List E)}
    (hold : entries w = Entry.history old) (ha : world.answers op w x w') :
    ∃ more, entries w' = Entry.history more := by
  cases h with
  | looking => exact ⟨old, (hserves.contains ha).trans hold⟩
  | starting =>
    match x, ha with
    | .ok version, ha =>
      obtain ⟨hlen, hw⟩ := hserves.append_ok ha
      have hnil : entries w = [] := List.length_eq_zero_iff.mp hlen
      exact ⟨some [], by rw [hw, hnil]; rfl⟩
    | .error e, ha => exact ⟨old, (hserves.append_error ha).trans hold⟩
  | opening hv => exact ⟨old, (hserves.others (hv.asks hp.1).2.1 ha).trans hold⟩
  | reading ho => exact ⟨old, (hserves.load ha).trans hold⟩
  | recording ho h =>
    match x, ha with
    | .ok version, ha =>
      obtain ⟨hlen, hw⟩ := hserves.append_ok ha
      obtain ⟨node, -, hr, -⟩ := h
      obtain ⟨loaded, rfl, -⟩ := Process.history_of_replay hr
      cases old with
      -- whatever was replayed has an entry, so the append does not fit an empty stream
      | none => rw [hold] at hlen; cases hlen
      | some events => exact ⟨some (events ++ [event]), by rw [hw, hold, ← Entry.history_append]; rfl⟩
    | .error e, ha => exact ⟨old, (hserves.append_error ha).trans hold⟩
  | running h hv => exact ⟨old, (hserves.others (hv.asks (hp.transition h)).2.1 ha).trans hold⟩

end

/-! ## Runs -/

theorem clear_of_leads {stream : String} {t : List (Exchange (requests Ω H E))} {r : Task Ω H E Unit}
    (h : (clear stream).Leads t r) : (t = [] ∧ r = clear stream) ∨ r = .unit ∨ ∃ e, r = storeFault e := by
  induction h with
  | nil => exact .inl ⟨rfl, rfl⟩
  | call _ x ih =>
    rcases ih with ⟨-, hr⟩ | hr | ⟨e, hr⟩
    · cases hr
      match x with
      | .ok _ => exact .inr (.inl rfl)
      | .error e => exact .inr (.inr ⟨e, rfl⟩)
    · cases hr
    · cases hr
  | pause _ ih => rcases ih with ⟨-, hr⟩ | hr | ⟨e, hr⟩ <;> cases hr

section
variable [Inhabited S] {ι : Type v} [DecidableEq ι] {policy : PacedPolicy} {p : Definition Ω H I S E R} {i : I}
  {stream : String} {visits : ι → Visit E} {world : Shared (requests Ω H E) W} {entries : W → List (Entry E)}
  {pool : ι → Task Ω H E Unit} {w₀ w : W} {τ : List (ι × Exchange (requests Ω H E))} {j : ι}

theorem pending_of_visits (run : Pool.Run world (fun j => (visits j).task policy p i stream) w₀ τ pool w)
    {op next} (hj : pool j = .call op next) :
    (∃ event, visits j = .deliver event ∧ Pending policy p i stream event (exchangesOf j τ) op next) ∨
      (visits j = .clear ∧ op = .store (.delete stream)) := by
  have leads := run.leads j
  rw [hj] at leads
  cases hv : visits j with
  | deliver event =>
    rw [hv] at leads
    exact .inl ⟨event, rfl, (standing_of_leads leads).pending rfl⟩
  | clear =>
    rw [hv] at leads
    rcases clear_of_leads leads with ⟨-, hr⟩ | hr | ⟨e, hr⟩ <;> cases hr
    exact .inr ⟨rfl, rfl⟩

theorem history_of_visits (hserves : world.Serves stream entries) (hp : p.Asks (Request.Spares stream) i)
    {old : Option (List E)} (hold : entries w₀ = Entry.history old)
    (run : Pool.Run world (fun j => (visits j).task policy p i stream) w₀ τ pool w) :
    ∃ more, entries w = Entry.history more := by
  induction run with
  | nil => exact ⟨old, hold⟩
  | @call τ pool w j op next x w' run hj ha ih =>
    obtain ⟨now, hnow⟩ := ih
    rcases pending_of_visits run hj with ⟨event, -, pending⟩ | ⟨-, rfl⟩
    · exact pending.history hserves hp hnow ha
    · match x, ha with
      | .ok u, ha => exact ⟨none, hserves.delete_ok ha⟩
      | .error e, ha => exact ⟨now, (hserves.delete_error ha).trans hnow⟩
  | pause _ _ ih => exact ih
  | rest _ hw ih => rw [hserves.rests hw]; exact ih

theorem cleared_since (hserves : world.Serves stream entries) {τ₁ τ₂ : List (ι × Exchange (requests Ω H E))}
    {x : Exchange (requests Ω H E)} {pool₀ : ι → Task Ω H E Unit}
    (run : Pool.Run world pool₀ w₀ (τ₁ ++ (j, x) :: τ₂) pool w) (hx : Confirms stream x) (hw : entries w = []) :
    ∃ turn ∈ τ₂, turn.2.clears stream := by
  obtain ⟨pool₁, w₁, next, w₂, -, -, ha, rest⟩ := run.cut
  have hthere : entries w₂ ≠ [] := by
    rcases hx with rfl | ⟨version, rfl⟩
    · have hnonempty := hserves.contains_ok ha
      rw [hserves.contains ha]
      intro hnil
      rw [hnil] at hnonempty
      cases hnonempty
    · obtain ⟨-, hwritten⟩ := hserves.append_ok ha
      rw [hwritten]
      exact List.append_ne_nil_of_right_ne_nil _ (List.cons_ne_nil _ _)
  by_contra hnone
  -- the stream would only have grown since
  have hgrown := grown_of_run hserves rest fun turn hturn hclears => hnone ⟨turn, hturn, hclears⟩
  rw [hw] at hgrown
  exact hthere (List.append_eq_nil_iff.mp hgrown.symm).1

end

/-! ## What a run comes to -/

/-- Deliveries and clearings have taken the turns `τ`, `pool` is left of them, and the stream has come from
`before` to `now`. -/
structure Overtaken [Inhabited S] {ι : Type v} [DecidableEq ι] (p : Definition Ω H I S E R) (i : I) (stream : String)
    (visits : ι → Visit E) (before now : List (Entry E)) (τ : List (ι × Exchange (requests Ω H E)))
    (pool : ι → Task Ω H E Unit) : Prop where
  kept : now = contents stream before (τ.map Prod.snd)
  history : ∃ old, now = Entry.history old
  /-- An event is recorded by a delivery of it, at the length of the history that this loaded last. It was
  accepted after that history, which is the stream itself unless that was cleared since. From then on the
  delivery is the effect of the transition which the event made there. -/
  recorder {τ₁ j x τ₂ e} : τ = τ₁ ++ (j, x) :: τ₂ → .received e ∈ x.added stream → visits j = .deliver e ∧
    ∃ σ₁ σ₂ loaded fx, τ₁ = σ₁ ++ (j, reading stream loaded) :: σ₂ ∧ exchangesOf j σ₂ = [] ∧
      loaded = contents stream before (σ₁.map Prod.snd) ∧
      loaded.length = (contents stream before (τ₁.map Prod.snd)).length ∧
      ((∀ turn ∈ σ₂, ¬ turn.2.clears stream) → contents stream before (τ₁.map Prod.snd) = loaded) ∧
      p.Transition i loaded e fx ∧ fx.Leads (exchangesOf j τ₂) (pool j)
  runs {τ₁ j x τ₂} : τ = τ₁ ++ (j, x) :: τ₂ → x.op.Spares stream →
    ∃ e rest, visits j = .deliver e ∧ Inside p i stream e (exchangesOf j τ₁) (.call x.op rest)
  /-- A delivery finds a history invalid only if its stream was cleared between its being there and the load.
  An effect of the process may fail with the same error. -/
  invalid {j flaw} : pool j = .fail (.delivery (.invalidHistory flaw)) → ∃ e, visits j = .deliver e ∧
    (Inside p i stream e (exchangesOf j τ) (pool j) ∨
      flaw = .empty ∧ ∃ τ₁ x τ₂ τ₃, τ = τ₁ ++ (j, x) :: τ₂ ++ (j, reading stream []) :: τ₃ ∧
        Confirms stream x ∧ ∃ turn ∈ τ₂, turn.2.clears stream)

section
variable [Inhabited S] {ι : Type v} [DecidableEq ι] {policy : PacedPolicy} {p : Definition Ω H I S E R} {i : I}
  {stream : String} {visits : ι → Visit E} {world : Shared (requests Ω H E) W} {entries : W → List (Entry E)}

section
variable (hserves : world.Serves stream entries) (hp : p.Asks (Request.Spares stream) i) {w₀ w : W}
  {τ₁ τ₂ : List (ι × Exchange (requests Ω H E))} {j : ι} {x : Exchange (requests Ω H E)} {pool : ι → Task Ω H E Unit}
include hserves hp

theorem recorder_of_visits
    (run : Pool.Run world (fun j => (visits j).task policy p i stream) w₀ (τ₁ ++ (j, x) :: τ₂) pool w) {e : E}
    (hx : .received e ∈ x.added stream) : visits j = .deliver e ∧
    ∃ σ₁ σ₂ loaded fx, τ₁ = σ₁ ++ (j, reading stream loaded) :: σ₂ ∧ exchangesOf j σ₂ = [] ∧
      loaded = contents stream (entries w₀) (σ₁.map Prod.snd) ∧
      loaded.length = (contents stream (entries w₀) (τ₁.map Prod.snd)).length ∧
      ((∀ turn ∈ σ₂, ¬ turn.2.clears stream) → contents stream (entries w₀) (τ₁.map Prod.snd) = loaded) ∧
      p.Transition i loaded e fx ∧ fx.Leads (exchangesOf j τ₂) (pool j) := by
  obtain ⟨pool₁, w₁, next, w₂, first, hj, ha, rest⟩ := run.cut
  have leads := rest.leads j
  rw [Function.update_self] at leads
  rcases pending_of_visits first hj with ⟨event, hvisit, pending⟩ | ⟨-, hop⟩
  · obtain ⟨rfl, t₀, loaded, version, ht, htransition, hwriting⟩ := pending.received hp hx
    obtain ⟨σ₁, σ₂, rfl, -, hσ₂⟩ := Pool.exists_turn_of_exchangesOf ht
    -- the load, and what has become of the stream since
    obtain ⟨pool₃, w₃, next₃, w₄, before, -, hload, since⟩ := first.cut
    have hloaded : loaded = entries w₃ := hserves.load_ok hload
    have hbefore := contents_of_run hserves before
    have hfirst := contents_of_run hserves first
    obtain rfl : x = writing stream (.received e) loaded.length version := hwriting
    have hlength : (entries w₁).length = loaded.length := (hserves.append_ok ha).1
    rw [← hfirst]
    refine ⟨hvisit, σ₁, σ₂, loaded, next (.ok version), rfl, hσ₂, hloaded.trans hbefore, hlength.symm, fun hkept => ?_,
      htransition, leads⟩
    have hgrown := grown_of_run hserves since hkept
    rw [hserves.load hload, ← hloaded] at hgrown
    exact (List.IsPrefix.eq_of_length ⟨_, hgrown.symm⟩ hlength.symm).symm
  · obtain ⟨op, reply⟩ := x
    obtain rfl : op = .store (.delete stream) := hop
    cases hx

end

theorem invalid_of_visits (hserves : world.Serves stream entries) (hp : p.Asks (Request.Spares stream) i) {w₀ w : W}
    {old : Option (List E)} (hold : entries w₀ = Entry.history old) {τ : List (ι × Exchange (requests Ω H E))}
    {pool : ι → Task Ω H E Unit} (run : Pool.Run world (fun j => (visits j).task policy p i stream) w₀ τ pool w)
    {j : ι} {flaw : HistoryFlaw} (hfail : pool j = .fail (.delivery (.invalidHistory flaw))) :
    ∃ e, visits j = .deliver e ∧ (Inside p i stream e (exchangesOf j τ) (pool j) ∨
      flaw = .empty ∧ ∃ τ₁ x τ₂ τ₃, τ = τ₁ ++ (j, x) :: τ₂ ++ (j, reading stream []) :: τ₃ ∧
        Confirms stream x ∧ ∃ turn ∈ τ₂, turn.2.clears stream) := by
  have leads := run.leads j
  cases hvisit : visits j with
  | clear =>
    rw [hvisit] at leads
    rcases clear_of_leads leads with ⟨-, hr⟩ | hr | ⟨e, hr⟩ <;> rw [hfail] at hr <;> cases hr
  | deliver event =>
    rw [hvisit] at leads
    refine ⟨event, rfl, ?_⟩
    rcases (standing_of_leads leads).invalidHistory hfail with inside | ⟨t₀, loaded, ht, ho, hflaw⟩
    · exact .inl inside
    obtain ⟨σ, τ₃, rfl, hσ, -⟩ := Pool.exists_turn_of_exchangesOf ht
    obtain ⟨pool₁, w₁, next, w₂, first, -, hload, -⟩ := run.cut
    have hloaded : loaded = entries w₁ := hserves.load_ok hload
    -- what was loaded is a history, so it was nothing
    obtain ⟨now, hnow⟩ := history_of_visits hserves hp hold first
    obtain ⟨rfl, rfl⟩ : loaded = [] ∧ flaw = .empty := by
      subst hloaded
      cases now with
      | none => rw [hnow] at hflaw ⊢; cases hflaw; exact ⟨rfl, rfl⟩
      | some events => rw [hnow, p.replay_history] at hflaw; cases hflaw
    obtain ⟨t, x, v, rfl, hx⟩ := ho.confirmed
    obtain ⟨τ₁, τ₂, rfl, -, -⟩ := Pool.exists_turn_of_exchangesOf hσ
    exact .inr ⟨rfl, τ₁, x, τ₂, τ₃, rfl, hx, cleared_since hserves first hx hloaded.symm⟩

theorem concurrent_clearing (hserves : world.Serves stream entries) (hp : p.Asks (Request.Spares stream) i) {w₀ : W}
    {old : Option (List E)} (hold : entries w₀ = Entry.history old) {τ : List (ι × Exchange (requests Ω H E))}
    {pool : ι → Task Ω H E Unit} {w : W}
    (run : Pool.Run world (fun j => (visits j).task policy p i stream) w₀ τ pool w) :
    Overtaken p i stream visits (entries w₀) (entries w) τ pool := by
  refine ⟨contents_of_run hserves run, history_of_visits hserves hp hold run, ?_, ?_, ?_⟩
  · rintro τ₁ j x τ₂ e rfl hx
    exact recorder_of_visits hserves hp run hx
  · rintro τ₁ j x τ₂ rfl hx
    obtain ⟨pool₁, w₁, next, w₂, first, hj, -, -⟩ := run.cut
    rcases pending_of_visits first hj with ⟨event, hvisit, pending⟩ | ⟨-, hop⟩
    · obtain ⟨rest, inside⟩ := pending.inside hx
      exact ⟨event, rest, hvisit, inside⟩
    · rw [hop] at hx
      exact absurd rfl hx
  · exact fun hfail => invalid_of_visits hserves hp hold run hfail

end

/-! ## Clearings that overtake a delivery -/

def pairing : Definition ⟨String, fun _ => Unit⟩ Empty Unit Nat Nat Unit where
  run _ s := (.unit, ⟨Option Nat, none, fun
    | none => .inProgress s fun n => some (Task.act "first", some n)
    | some m => .inProgress s fun n => if n = m then some (Task.act "again", some m) else none⟩)

theorem pairing_asks : pairing.Asks (Request.Spares "t") () := by
  refine Process.asks_of_places trivial fun q e step h => ?_
  cases q with
  | none => cases h; exact ⟨id, fun _ => trivial⟩
  | some m =>
    obtain ⟨-, h⟩ := Option.ite_none_right_eq_some.mp h
    cases h
    exact ⟨id, fun _ => trivial⟩

def visitors : Fin 4 → Visit Nat
  | 0 => .deliver 1
  | 1 => .deliver 1
  | 2 => .clear
  | 3 => .deliver 2

abbrev play (schedule : List (Fin 4)) : Pool.State (requests ⟨String, fun _ => Unit⟩ Empty Nat) Failure Unit (Fin 4)
    (List String × MemoryStore (Entry Nat)) :=
  Pool.play noting.host (fun j => (visitors j).task RetryPolicy.never.punctual pairing () "t") ([], .empty) schedule

/-- Between the load and the append of a delivery the stream is cleared and grows to the same length. -/
def rebuilt := play [0, 0, 0, 0, 0, 1, 1, 2, 3, 3, 3, 3, 3, 1, 1]

/-- Between the look at the stream and the load of a delivery the stream is cleared. -/
def emptied := play [0, 0, 0, 0, 0, 1, 2, 1]

theorem run_play_visitors (schedule : List (Fin 4)) :
    Pool.Run noting.host.shared (fun j => (visitors j).task RetryPolicy.never.punctual pairing () "t") ([], .empty)
      (play schedule).1 (play schedule).2.1 (play schedule).2.2 :=
  Pool.run_play schedule

theorem clearing_overtakes :
    (noting.host (E := Nat)).shared.Serves "t" (fun w => w.2.entries "t") ∧ pairing.Asks (Request.Spares "t") () ∧
    (Pool.Run noting.host.shared (fun j => (visitors j).task RetryPolicy.never.punctual pairing () "t") ([], .empty)
        rebuilt.1 rebuilt.2.1 rebuilt.2.2 ∧
      rebuilt.2.2 = (["first", "first", "again"], ⟨[("t", [.started, .received 2, .received 1])]⟩) ∧
      ¬ pairing.AcceptedSince () [] (rebuilt.2.2.2.entries "t")) ∧
    Pool.Run noting.host.shared (fun j => (visitors j).task RetryPolicy.never.punctual pairing () "t") ([], .empty)
      emptied.1 emptied.2.1 emptied.2.2 ∧
    emptied.2.1 1 = .fail (.delivery (.invalidHistory .empty)) := by
  refine ⟨noting.serves "t", pairing_asks, ⟨run_play_visitors _, rfl, fun h => ?_⟩, run_play_visitors _, rfl⟩
  have hsplit : rebuilt.2.2.2.entries "t" = [.started, .received 2] ++ .received 1 :: [] := rfl
  obtain ⟨fx, node, next, hr, ho⟩ := h hsplit List.nil_prefix
  cases hr
  cases ho

theorem concurrent_clearing_rebuilt :
    (noting.host (E := Nat)).shared.Serves "t" (fun w => w.2.entries "t") ∧ pairing.Asks (Request.Spares "t") () ∧
    (MemoryStore.empty : MemoryStore (Entry Nat)).entries "t" = Entry.history none ∧
    Pool.Run noting.host.shared (fun j => (visitors j).task RetryPolicy.never.punctual pairing () "t") ([], .empty)
      rebuilt.1 rebuilt.2.1 rebuilt.2.2 ∧
    Overtaken pairing () "t" visitors [] (rebuilt.2.2.2.entries "t") rebuilt.1 rebuilt.2.1 := by
  have hserves := noting.serves (E := Nat) "t"
  have hold : (MemoryStore.empty : MemoryStore (Entry Nat)).entries "t" = Entry.history none := rfl
  have run := run_play_visitors [0, 0, 0, 0, 0, 1, 1, 2, 3, 3, 3, 3, 3, 1, 1]
  exact ⟨hserves, pairing_asks, hold, run, concurrent_clearing hserves pairing_asks hold run⟩

end Workflow.Delivery

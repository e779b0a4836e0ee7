import Workflow.Proofs.Delivery.Sequential

/-!
# The life of an instance

An instance that was cleared lives as one that never was: nothing of its old stream matters to the deliveries that
follow (`runAll_deliver_congr`). To start it by hand is what its first delivery does anyway (`runAll_start_deliver`).
Main statement: `lives_alike`.
-/

namespace Workflow.Delivery

open Effect (runAll)

variable {Ω : Signature} {H I S E R V : Type} (o : Outside Ω H V)

section
variable [Inhabited S] {p : Definition Ω H I S E R} {i : I} {stream : String}

/-! ## The same stream in two stores -/

theorem exists_live (policy : PacedPolicy) (hacts : p.Asks Request.IsAct i) (old : Option (List E)) (v : V) (e : E) :
    ∃ live new, Entry.history old ++ live.2.1 = Entry.history (some new) ∧
      ∀ store : MemoryStore (Entry E), store.entries stream = Entry.history old →
        Follows stream store ((deliver policy p i stream e).run o.host (v, store)) live := by
  cases old with
  | none =>
    have hnew : Entry.history none ++ (liveStart o p i v e).2.1 = _ := liveStart_entries o p i v e
    exact ⟨_, _, hnew, fun store hs => run_deliver_missing o policy hacts hs v e⟩
  | some old =>
    have hnew : Entry.history (some old) ++ (liveStep o ((p.initial i).advanceAll old) v e).2.1 =
        Entry.history (some (old ++ ((p.initial i).advanceAll old).accepted [e])) := by
      rw [liveStep_entries, Entry.history_append]
    exact ⟨_, _, hnew, fun store hs => run_deliver_started o policy hacts hs v e⟩

theorem runAll_deliver_congr (policy : PacedPolicy) (hacts : p.Asks Request.IsAct i) (events : List E)
    {old : Option (List E)} {store store' : MemoryStore (Entry E)} (hs : store.entries stream = Entry.history old)
    (hs' : store'.entries stream = Entry.history old) (v : V) :
    let ran := runAll o.host (events.map (deliver policy p i stream)) (v, store)
    let ran' := runAll o.host (events.map (deliver policy p i stream)) (v, store')
    ran.1 = ran'.1 ∧ ran.2.1 = ran'.2.1 ∧
      (∃ new, ran.2.2.entries stream = Entry.history new ∧ ran'.2.2.entries stream = Entry.history new) ∧
      ∀ other, other ≠ stream → ran.2.2.entries other = store.entries other := by
  induction events generalizing old v store store' with
  | nil => exact ⟨rfl, rfl, ⟨old, hs, hs'⟩, fun _ _ => rfl⟩
  | cons e events ih =>
    obtain ⟨live, new, hnew, hfollows⟩ := exists_live o policy hacts old v e
    have first := hfollows store hs
    have first' := hfollows store' hs'
    simp only [List.map_cons, runAll]
    generalize (deliver policy p i stream e).run o.host (v, store) = run at first ⊢
    generalize (deliver policy p i stream e).run o.host (v, store') = run' at first' ⊢
    obtain ⟨outcome, w, left⟩ := run
    obtain ⟨outcome', w', left'⟩ := run'
    obtain ⟨rfl, rfl, hentries, hothers⟩ := first
    obtain ⟨rfl, rfl, hentries', -⟩ := first'
    rw [hs, hnew] at hentries
    rw [hs', hnew] at hentries'
    obtain ⟨houtcomes, hworld, hend, hrest⟩ := ih hentries hentries' live.2.2
    exact ⟨congrArg _ houtcomes, hworld, hend, fun other hne => (hrest other hne).trans (hothers other hne)⟩

theorem run_inspect {old : Option (List E)} {w : V × MemoryStore (Entry E)}
    (hs : w.2.entries stream = Entry.history old) :
    (inspect p i stream).run o.host w = (.done ((p.initial i).advanceAll (old.getD [])), w) := by
  cases old with
  | none => exact run_inspect_missing o hs
  | some old => exact run_inspect_started o hs

/-! ## Starting by hand -/

theorem runAll_start_deliver (policy : PacedPolicy) (hacts : (p.run i default).1.Asks Request.IsAct)
    {store : MemoryStore (Entry E)} (hs : store.entries stream = []) {v : V}
    (hdone : ((p.run i default).1.run o.alone v).1 = .done ()) (e : E) (events : List E) :
    let deliveries := (e :: events).map (deliver policy p i stream)
    runAll o.host (start p i stream :: deliveries) (v, store) =
      (.done () :: (runAll o.host deliveries (v, store)).1, (runAll o.host deliveries (v, store)).2) := by
  have hstarted : (store.append stream [.started] 0).2.entries stream ≠ [] := by
    rw [entries_started hs]
    exact List.cons_ne_nil _ _
  -- the first delivery starts the stream itself and is then where it is after a start by hand
  have hfirst : (deliver policy p i stream e).run o.host (v, store) =
      (deliver policy p i stream e).run o.host ((start p i stream).run o.host (v, store)).2 := by
    rw [run_start_missing o hacts hs, run_deliver_present o policy hstarted, run_deliver_absent o policy hacts hs]
    generalize (p.run i default).1.run o.alone v = opened at hdone ⊢
    obtain ⟨outcome, v'⟩ := opened
    obtain rfl : outcome = .done () := hdone
    rfl
  have houtcome : ((start p i stream).run o.host (v, store)).1 = .done () := by
    rw [run_start_missing o hacts hs]
    exact hdone
  simp only [List.map_cons, runAll, houtcome, ← hfirst]

end

/-- To clear a stream, once or more often, is to begin anew where it never was; to start it by hand adds nothing to what
the first delivery does, and is refused if there is anything in the stream. -/
theorem lives_alike [Inhabited S] (policy : PacedPolicy) (p : Definition Ω H I S E R) (i : I) (stream : String)
    (hacts : p.Asks Request.IsAct i) (v : V) (store : MemoryStore (Entry E)) :
    let deliveries := fun events : List E => events.map (deliver policy p i stream)
    let cleared := (clear stream).run o.host (v, store)
    (cleared.1 = .done () ∧ cleared.2.1 = v ∧ ∀ fresh : MemoryStore (Entry E), fresh.find? stream = none → ∀ events,
      let again := runAll o.host (deliveries events) cleared.2
      let first := runAll o.host (deliveries events) (v, fresh)
      again.1 = first.1 ∧ again.2.1 = first.2.1 ∧ again.2.2.entries stream = first.2.2.entries stream ∧
      (∃ node, (inspect p i stream).run o.host again.2 = (.done node, again.2) ∧
        (inspect p i stream).run o.host first.2 = (.done node, first.2)) ∧
      ∀ other, other ≠ stream → again.2.2.entries other = store.entries other) ∧
    (clear stream).run o.host cleared.2 = cleared ∧
    (store.find? stream = none → cleared = (.done (), v, store)) ∧
    (store.find? stream = none → ((p.run i default).1.run o.alone v).1 = .done () → ∀ events, events ≠ [] →
      let lived := runAll o.host (deliveries events) (v, store)
      runAll o.host (start p i stream :: deliveries events) (v, store) = (.done () :: lived.1, lived.2)) ∧
    ∀ n, 1 ≤ n → (store.entries stream).length = n →
      (start p i stream).run o.host (v, store) = (.failed (.delivery (.store (.concurrency stream 0 n))), v, store) := by
  intro deliveries cleared
  have hcleared : cleared = (.done (), v, store.erase stream) := run_clear o (v, store)
  rw [hcleared]
  refine ⟨⟨rfl, rfl, ?_⟩, ?_, ?_, ?_, ?_⟩
  · intro fresh hfresh events
    have hs : (store.erase stream).entries stream = Entry.history none := MemoryStore.entries_erase_self store stream
    have hs' : fresh.entries stream = Entry.history none := MemoryStore.entries_of_not_find? hfresh
    obtain ⟨houtcomes, hworld, ⟨new, hnew, hnew'⟩, hothers⟩ := runAll_deliver_congr o policy hacts events hs hs' v
    refine ⟨houtcomes, hworld, hnew.trans hnew'.symm, ⟨_, run_inspect o hnew, run_inspect o hnew'⟩, ?_⟩
    intro other hne
    exact (hothers other hne).trans (MemoryStore.entries_erase_of_ne hne)
  · rw [run_clear, MemoryStore.erase_erase]
  · intro hmissing
    rw [MemoryStore.erase_of_missing hmissing]
  · intro hmissing hdone events hevents
    obtain ⟨e, rest, rfl⟩ := List.exists_cons_of_ne_nil hevents
    exact runAll_start_deliver o policy hacts.1 (MemoryStore.entries_of_not_find? hmissing) hdone e rest
  · rintro n hn rfl
    exact run_start_started o (List.ne_nil_of_length_pos hn) v

theorem lives_alike_tally :
    let spoilt : MemoryStore (Entry Nat) := ⟨[("u", [.started]), ("t", [.received 8, .started])]⟩
    let deliveries := [2, 3, 4].map (deliver RetryPolicy.standard.punctual tally () "t")
    let again := runAll noting.host deliveries ((clear "t").run noting.host (["before"], spoilt)).2
    let started := runAll noting.host (start tally () "t" :: deliveries) ([], .empty)
    (tally.Asks Request.IsAct () ∧ (MemoryStore.empty : MemoryStore (Entry Nat)).find? "t" = none ∧
      ((tally.run () default).1.run noting.alone []).1 = .done () ∧ (spoilt.entries "t").length = 2) ∧
    again.2.1 = ["before", "opened", "counted", "counted"] ∧
    again.2.2.entries "t" = [.started, .received 2, .received 4] ∧ again.2.2.entries "u" = [.started] ∧
    started.2 = (runAll noting.host deliveries ([], .empty)).2 ∧
    (start tally () "t").run noting.host ([], spoilt) =
      (.failed (.delivery (.store (.concurrency "t" 0 2))), [], spoilt) := by
  intro spoilt deliveries again started
  have hmissing : (MemoryStore.empty : MemoryStore (Entry Nat)).find? "t" = none := rfl
  obtain ⟨⟨-, -, hlife⟩, -⟩ :=
    lives_alike noting RetryPolicy.standard.punctual tally () "t" tally_asks ["before"] spoilt
  obtain ⟨-, hworld, hentries, -, hothers⟩ := hlife .empty hmissing [2, 3, 4]
  obtain ⟨-, -, -, hstart, -⟩ := lives_alike noting RetryPolicy.standard.punctual tally () "t" tally_asks [] .empty
  obtain ⟨-, -, -, -, hrefused⟩ := lives_alike noting RetryPolicy.standard.punctual tally () "t" tally_asks [] spoilt
  have hstarted : started = (.done () :: _, _) := hstart hmissing rfl [2, 3, 4] (List.cons_ne_nil _ _)
  exact ⟨⟨tally_asks, hmissing, rfl, rfl⟩, hworld, hentries, hothers "u" (by decide), (Prod.ext_iff.mp hstarted).2,
    hrefused 2 (by decide) rfl⟩

end Workflow.Delivery

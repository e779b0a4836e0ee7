import Workflow.Proofs.Effect.Plan

/-!
# Effects side by side

What `joinAll` and `selectFirst` come to for members that follow plans: a plan again. Results come in list order,
what is written comes round by round, and who fails or ends first is found by the number of segments and then by the
place in the list. Main statements: `follows_joinAll`, `follows_joinAll_of_failed`, `follows_selectFirst`.
-/

namespace Workflow.Effect

universe u v w

open Plan

variable {σ : Signature} {L ε : Type} {α : Type u} {β : Type v} {γ : Type w} {W : Type} {host : Host σ W}
  {written : Exchange σ → List L} {tick : Duration}

variable {es : List (Effect σ ε α)} {ps before after : List (Plan L ε α)} {p : Plan L ε α}

/-! ## All members succeed -/

theorem endings_of_follows_pure {values : List α}
    (h : List.Forall₂ (Follows host written tick) (values.map (pure (σ := σ) (ε := ε))) ps) (w : W) :
    ps.map Plan.ending = values.map .ok := by
  induction values generalizing ps with
  | nil => cases h; rfl
  | cons a values ih =>
    cases h with
    | cons hp hps => exact congrArg₂ List.cons (ending_of_follows_pure hp w) (ih hps)

theorem not_fails_of_ok {values : List α} (hok : ps.map Plan.ending = values.map .ok) (hp : p ∈ ps) : ¬ p.Fails := by
  rintro ⟨err, herr⟩
  have hmem := List.mem_map_of_mem (f := Plan.ending) hp
  rw [hok, herr] at hmem
  simp at hmem

theorem round_joinAll (h : List.Forall₂ (Follows host written tick) es ps) (hok : ∀ p ∈ ps, p.Fails → 1 < p.length)
    (hlong : ∃ p ∈ ps, 1 < p.length) (w : W) :
    ∃ t nexts w', Proceeds host (joinAll es) w t (pause tick (joinAll nexts)) w' ∧
      t.flatMap written = roundOf ps 0 ∧ List.Forall₂ (Follows host written tick) nexts (ps.map rest) := by
  obtain ⟨t, rs, nexts, w', hround, hrest, hwritten, hfollow, hsome, -⟩ := exists_round h hok w
  exact ⟨t, nexts, w', hround.joinAll_pause hrest (hsome.mpr hlong), hwritten, hfollow⟩

theorem follows_joinAll_of_longest {values : List α} {n : Nat} (hn : longest ps = n + 1)
    (h : List.Forall₂ (Follows host written tick) es ps) (hok : ps.map Plan.ending = values.map .ok)
    {q : Plan L ε (List α)} (hq : q.segments = (List.range (n + 1)).map (roundOf ps)) (hend : q.ending = .ok values) :
    Follows host written tick (joinAll es) q := by
  -- The induction is on the rounds. A round without a pause is the last, and its values are the planned ones.
  induction n generalizing es ps q with
  | zero =>
    rw [eq_last_of_segments hq, hend]
    intro w
    obtain ⟨t, rs, nexts, w', hround, hrest, hwritten, hfollow, hsome, -⟩ :=
      exists_round h (fun p hp hfails => absurd hfails (not_fails_of_ok hok hp)) w
    rcases pause_mem_or_all_ended hrest with hpause | ⟨values', rfl, rfl⟩
    · obtain ⟨p, hp, hlength⟩ := hsome.mp hpause
      exact absurd (hn ▸ le_longest hp : p.length ≤ 0 + 1) (Nat.not_le_of_gt hlength)
    · have hvalues := endings_of_follows_pure hfollow w
      rw [map_ending_map_rest, hok] at hvalues
      obtain rfl := List.map_injective_iff.mpr (fun _ _ => Except.ok.inj) hvalues
      exact ⟨t, w', hround.joinAll_done, hwritten⟩
  | succ n ih =>
    rw [map_roundOf_range] at hq
    obtain ⟨q, rfl, hq, hend'⟩ := eq_more_of_segments hq (by simp)
    intro w
    have hlong : ∃ p ∈ ps, 1 < p.length := exists_of_one_lt_longest (by omega)
    obtain ⟨t, nexts, w', hpause, hwritten, hfollow⟩ :=
      round_joinAll h (fun p hp hfails => absurd hfails (not_fails_of_ok hok hp)) hlong w
    have hn' : longest (ps.map rest) = n + 1 := by rw [longest_map_rest]; omega
    have hok' : (ps.map rest).map Plan.ending = values.map .ok := by rw [map_ending_map_rest, hok]
    exact ⟨t, joinAll nexts, w', hpause, hwritten, ih hn' hfollow hok' hq (hend'.trans hend)⟩

/-! ## The first failure and the first ending -/

theorem roundsTo_of_last {segment : List L} {ending : Except ε α} :
    roundsTo before (.last segment ending) after = [roundOf before 0 ++ segment] := by
  show [roundOf (before ++ [.last segment ending]) 0] = _
  simp [roundOf, segmentAt, segments]

theorem split_at (h : List.Forall₂ (Follows host written tick) es (before ++ p :: after)) :
    ∃ sooner e later, es = sooner ++ e :: later ∧ List.Forall₂ (Follows host written tick) sooner before ∧
      Follows host written tick e p := by
  have hdrop := List.forall₂_drop_append es before (p :: after) h
  generalize hrest : es.drop before.length = rest at hdrop
  cases hdrop with
  | @cons e _ later _ hp _ =>
    refine ⟨es.take before.length, e, later, ?_, List.forall₂_take_append es before (p :: after) h, hp⟩
    rw [← hrest, List.take_append_drop]

/-- The whole goes on as long as no member that satisfies `P` has ended, and once the first of those has ended with
`final` it ends with `outcome`. -/
structure EndsWith (host : Host σ W) (written : Exchange σ → List L) (tick : Duration)
    (whole : List (Effect σ ε α) → Effect σ ε β) (P : Plan L ε α → Prop) (final : Except ε α)
    (outcome : Except ε β) : Prop where
  round {es : List (Effect σ ε α)} {ps} : List.Forall₂ (Follows host written tick) es ps →
    (∀ p ∈ ps, P p → 1 < p.length) → (∃ p ∈ ps, 1 < p.length) → ∀ w, ∃ t nexts w',
      Proceeds host (whole es) w t (pause tick (whole nexts)) w' ∧ t.flatMap written = roundOf ps 0 ∧
        List.Forall₂ (Follows host written tick) nexts (ps.map rest)
  last {es : List (Effect σ ε α)} {ps} : List.Forall₂ (Follows host written tick) es ps →
    (∀ p ∈ ps, P p → 1 < p.length) → ∀ {e segment}, Follows host written tick e (.last segment final) →
      ∀ later w, ∃ t w', Proceeds host (whole (es ++ e :: later)) w t (ofExcept outcome) w' ∧
        t.flatMap written = roundOf ps 0 ++ segment

theorem endsWith_joinAll (err : ε) :
    EndsWith host written tick joinAll (Plan.Fails (α := α)) (.error err) (.error err) where
  round := round_joinAll
  last h hok _ _ he later w := by
    obtain ⟨t, rs, nexts, w₁, hround, hrest, hwritten, -⟩ := exists_round h hok w
    obtain ⟨t', w', hfail, rfl⟩ := he w₁
    exact ⟨t ++ t', w', hround.joinAll_fail hrest hfail, by rw [List.flatMap_append, hwritten]⟩

theorem endsWith_selectFirst (none : ε) (final : Except ε α) :
    EndsWith host written tick (selectFirst none) (fun _ => True) final final where
  round {es _} h hpaused hlong w := by
    obtain ⟨t, rs, nexts, w', hround, -, hwritten, hfollow, -, hall⟩ :=
      exists_round h (fun p hp _ => hpaused p hp trivial) w
    obtain rfl := hall fun p hp => hpaused p hp trivial
    have hne : es ≠ [] := by
      rintro rfl
      cases h
      exact absurd hlong.choose_spec.1 List.not_mem_nil
    exact ⟨t, nexts, w', hround.selectFirst_pause none hne, hwritten, hfollow⟩
  last h hpaused _ _ he later w := by
    obtain ⟨t, rs, nexts, w₁, hround, -, hwritten, -, -, hall⟩ :=
      exists_round h (fun p hp _ => hpaused p hp trivial) w
    obtain rfl := hall fun p hp => hpaused p hp trivial
    obtain ⟨t', w', hend, rfl⟩ := he w₁
    exact ⟨t ++ t', w', hround.selectFirst_end none hend, by rw [List.flatMap_append, hwritten]⟩

theorem EndsWith.follows {whole : List (Effect σ ε α) → Effect σ ε β} {P : Plan L ε α → Prop} {final : Except ε α}
    {outcome : Except ε β} (hwhole : EndsWith host written tick whole P final outcome) (hP : ∀ q, P q.rest ↔ P q)
    (h : List.Forall₂ (Follows host written tick) es (before ++ p :: after)) (first : Foremost P before p after)
    (hp : p.ending = final) {q : Plan L ε β} (hq : q.segments = roundsTo before p after) (hend : q.ending = outcome) :
    Follows host written tick (whole es) q := by
  -- A round for each segment of the foremost; what is left of the members has it as its foremost again.
  induction p generalizing es before after q with
  | last segment ending =>
    obtain rfl : ending = final := hp
    rw [roundsTo_of_last] at hq
    rw [eq_last_of_segments hq, hend]
    obtain ⟨sooner, e, later, rfl, hsooner, he⟩ := split_at h
    exact hwhole.last hsooner first.before he later
  | more segment p ih =>
    have hlong : 1 < (Plan.more segment p).length := Nat.succ_lt_succ p.length_pos
    rw [roundsTo_of_more hlong] at hq
    obtain ⟨q, rfl, hq, hend'⟩ := eq_more_of_segments hq (roundsTo_ne_nil _ _ _)
    intro w
    obtain ⟨t, nexts, w', hpause, hwritten, hfollow⟩ :=
      hwhole.round h (fun p' hp' hP' => Nat.lt_of_lt_of_le hlong (first.length_le hp' hP'))
        ⟨_, List.mem_append_right before List.mem_cons_self, hlong⟩ w
    rw [List.map_append, List.map_cons] at hfollow
    exact ⟨t, whole nexts, w', hpause, hwritten, ih hfollow (first.rest hP hlong) hp hq (hend'.trans hend)⟩

theorem follows_joinAll {values : List α} (h : List.Forall₂ (Follows host written tick) es ps)
    (hok : ps.map Plan.ending = values.map .ok) {q : Plan L ε (List α)}
    (hq : q.segments = (List.range (longest ps)).map (roundOf ps)) (hend : q.ending = .ok values) :
    Follows host written tick (joinAll es) q := by
  obtain ⟨n, hn⟩ : ∃ n, longest ps = n + 1 := ⟨longest ps - 1, (Nat.sub_add_cancel (longest_pos ps)).symm⟩
  rw [hn] at hq
  exact follows_joinAll_of_longest hn h hok hq hend

theorem follows_joinAll_of_failed {err : ε} (h : List.Forall₂ (Follows host written tick) es (before ++ p :: after))
    (first : Foremost Plan.Fails before p after) (herr : p.ending = .error err) {q : Plan L ε (List α)}
    (hq : q.segments = roundsTo before p after) (hend : q.ending = .error err) :
    Follows host written tick (joinAll es) q :=
  (endsWith_joinAll err).follows (fun _ => fails_rest) h first herr hq hend

theorem follows_selectFirst (none : ε) (h : List.Forall₂ (Follows host written tick) es (before ++ p :: after))
    (first : Foremost (fun _ => True) before p after) {q : Plan L ε α} (hq : q.segments = roundsTo before p after)
    (hend : q.ending = p.ending) : Follows host written tick (selectFirst none es) q :=
  (endsWith_selectFirst none p.ending).follows (fun _ => Iff.rfl) h first rfl hq hend

/-! ## Members that never suspend -/

end Workflow.Effect

import Workflow.Proofs.Effect.Rounds

/-!
# Plans

A plan is what an effect does of itself: segments of what it writes, with a suspension between any two, and an
ending. An effect follows its plan if it does so in whatever worlds its rounds begin; what its neighbours do to
the world is nothing to it. In a round the members of a list write the segments of that round: `exists_round`.
-/

namespace Workflow

universe u v

inductive Plan (L ε : Type) (α : Type u) where
  | last (segment : List L) (ending : Except ε α)
  | more (segment : List L) (rest : Plan L ε α)

namespace Plan

variable {L ε : Type} {α : Type u}

def segments : Plan L ε α → List (List L)
  | last segment _ => [segment]
  | more segment rest => segment :: rest.segments

def ending : Plan L ε α → Except ε α
  | last _ ending => ending
  | more _ rest => rest.ending

def length (p : Plan L ε α) : Nat := p.segments.length

def segmentAt (p : Plan L ε α) (round : Nat) : List L := p.segments.getD round []

def rest : Plan L ε α → Plan L ε α
  | last _ ending => last [] ending
  | more _ rest => rest

def Fails (p : Plan L ε α) : Prop := ∃ err, p.ending = .error err

@[simp] theorem length_last (segment : List L) (ending : Except ε α) : (last segment ending).length = 1 := rfl

@[simp] theorem length_more (segment : List L) (p : Plan L ε α) : (more segment p).length = p.length + 1 := rfl

theorem length_pos (p : Plan L ε α) : 0 < p.length := by
  cases p <;> exact Nat.succ_pos _

theorem length_rest {p : Plan L ε α} (h : 1 < p.length) : p.rest.length + 1 = p.length := by
  cases p with
  | last segment ending => exact absurd h (Nat.lt_irrefl 1)
  | more segment rest => rfl

@[simp] theorem ending_rest (p : Plan L ε α) : p.rest.ending = p.ending := by
  cases p <;> rfl

@[simp] theorem segmentAt_rest (p : Plan L ε α) (round : Nat) : p.rest.segmentAt round = p.segmentAt (round + 1) := by
  cases p with
  | last segment ending => cases round <;> rfl
  | more segment rest => rfl

theorem eq_last_of_segments {p : Plan L ε α} {segment : List L} (h : p.segments = [segment]) :
    p = .last segment p.ending := by
  cases p with
  | last _ ending => rw [List.singleton_inj.mp h]; rfl
  | more _ rest => exact absurd (congrArg List.length (List.cons.inj h).2) (Nat.ne_of_gt rest.length_pos)

theorem eq_more_of_segments {p : Plan L ε α} {segment : List L} {later : List (List L)}
    (h : p.segments = segment :: later) (hlater : later ≠ []) :
    ∃ rest, p = .more segment rest ∧ rest.segments = later ∧ rest.ending = p.ending := by
  cases p with
  | last _ ending => exact absurd (List.cons.inj h).2.symm hlater
  | more _ rest =>
    obtain ⟨rfl, hrest⟩ := List.cons.inj h
    exact ⟨rest, rfl, hrest, rfl⟩

theorem fails_rest {p : Plan L ε α} : p.rest.Fails ↔ p.Fails := by
  unfold Fails
  rw [ending_rest]

/-! ## Lists of plans -/

/-- What is written in a round: the segments of the members that have one, in list order. -/
def roundOf (ps : List (Plan L ε α)) (round : Nat) : List L := ps.flatMap (·.segmentAt round)

def longest (ps : List (Plan L ε α)) : Nat := (ps.map length).foldr max 1

/-- Of the members that satisfy `P` this one has the fewest segments, and of those with as few it stands first. -/
structure Foremost (P : Plan L ε α → Prop) (before : List (Plan L ε α)) (p : Plan L ε α)
    (after : List (Plan L ε α)) : Prop where
  holds : P p
  before q : q ∈ before → P q → p.length < q.length
  after q : q ∈ after → P q → p.length ≤ q.length

/-- What is written up to the last segment of a member: the rounds before it, and of its last round the part of
the members up to it. -/
def roundsTo (before : List (Plan L ε α)) (p : Plan L ε α) (after : List (Plan L ε α)) : List (List L) :=
  (List.range (p.length - 1)).map (roundOf (before ++ p :: after)) ++ [roundOf (before ++ [p]) (p.length - 1)]

theorem roundOf_map_rest (ps : List (Plan L ε α)) : roundOf (ps.map rest) = roundOf ps ∘ Nat.succ := by
  funext round
  unfold roundOf
  rw [List.flatMap_map]
  simp only [segmentAt_rest]
  rfl

theorem map_ending_map_rest (ps : List (Plan L ε α)) : (ps.map rest).map ending = ps.map ending := by
  rw [List.map_map]
  exact List.map_congr_left fun p _ => ending_rest p

theorem map_roundOf_range (ps : List (Plan L ε α)) (n : Nat) :
    (List.range (n + 1)).map (roundOf ps) = roundOf ps 0 :: (List.range n).map (roundOf (ps.map rest)) := by
  rw [List.range_succ_eq_map, List.map_cons, List.map_map, roundOf_map_rest]

theorem le_longest {ps : List (Plan L ε α)} {p : Plan L ε α} (h : p ∈ ps) : p.length ≤ longest ps := by
  induction ps with
  | nil => exact absurd h List.not_mem_nil
  | cons q ps ih =>
    rcases List.mem_cons.mp h with rfl | h
    · exact Nat.le_max_left ..
    · exact Nat.le_trans (ih h) (Nat.le_max_right ..)

theorem longest_pos (ps : List (Plan L ε α)) : 0 < longest ps := by
  induction ps with
  | nil => exact Nat.one_pos
  | cons q ps ih => exact Nat.lt_of_lt_of_le ih (Nat.le_max_right ..)

theorem longest_map_rest (ps : List (Plan L ε α)) : longest (ps.map rest) = max (longest ps - 1) 1 := by
  induction ps with
  | nil => rfl
  | cons p ps ih =>
    show max p.rest.length (longest (ps.map rest)) = max (max p.length (longest ps) - 1) 1
    have hps := longest_pos ps
    rw [ih]
    cases p with
    | last segment ending => simp only [rest, length_last]; omega
    | more segment p => simp only [rest, length_more]; have := p.length_pos; omega

theorem exists_of_one_lt_longest {ps : List (Plan L ε α)} (h : 1 < longest ps) : ∃ p ∈ ps, 1 < p.length := by
  induction ps with
  | nil => exact absurd h (Nat.lt_irrefl 1)
  | cons q ps ih =>
    by_cases hq : 1 < q.length
    · exact ⟨q, List.mem_cons_self, hq⟩
    · change 1 < max q.length (longest ps) at h
      obtain ⟨p, hp, hlength⟩ := ih (by omega)
      exact ⟨p, List.mem_cons_of_mem q hp, hlength⟩

namespace Foremost

variable {P : Plan L ε α → Prop} {before after : List (Plan L ε α)} {p : Plan L ε α}

theorem length_le (h : Foremost P before p after) {q : Plan L ε α} (hq : q ∈ before ++ p :: after) (hP : P q) :
    p.length ≤ q.length := by
  rcases List.mem_append.mp hq with hq | hq
  · exact Nat.le_of_lt (h.before q hq hP)
  · rcases List.mem_cons.mp hq with rfl | hq
    · exact Nat.le_refl _
    · exact h.after q hq hP

theorem rest (h : Foremost P before p after) (hP : ∀ q, P q.rest ↔ P q) (hlength : 1 < p.length) :
    Foremost P (before.map Plan.rest) p.rest (after.map Plan.rest) := by
  have hp := length_rest hlength
  refine ⟨(hP p).mpr h.holds, fun q hq hPq => ?_, fun q hq hPq => ?_⟩
  · obtain ⟨q, hmem, rfl⟩ := List.mem_map.mp hq
    have hlt := h.before q hmem ((hP q).mp hPq)
    have hq := length_rest (Nat.lt_trans hlength hlt)
    omega
  · obtain ⟨q, hmem, rfl⟩ := List.mem_map.mp hq
    have hle := h.after q hmem ((hP q).mp hPq)
    have hq := length_rest (Nat.lt_of_lt_of_le hlength hle)
    omega

end Foremost

theorem exists_foremost {P : Plan L ε α → Prop} {ps : List (Plan L ε α)} (h : ∃ p ∈ ps, P p) :
    ∃ before p after, ps = before ++ p :: after ∧ Foremost P before p after := by
  induction ps with
  | nil => exact absurd h.choose_spec.1 List.not_mem_nil
  | cons q ps ih =>
    by_cases hps : ∃ p ∈ ps, P p
    · obtain ⟨before, p, after, rfl, first⟩ := ih hps
      -- With as few segments as the foremost of the tail the head is before it.
      by_cases hq : P q ∧ q.length ≤ p.length
      · exact ⟨[], q, before ++ p :: after, rfl, hq.1, fun _ h => absurd h List.not_mem_nil,
          fun x hx hP => Nat.le_trans hq.2 (first.length_le hx hP)⟩
      · refine ⟨q :: before, p, after, rfl, first.holds, fun x hx hP => ?_, first.after⟩
        rcases List.mem_cons.mp hx with rfl | hx
        · exact Nat.lt_of_not_le fun hle => hq ⟨hP, hle⟩
        · exact first.before x hx hP
    · obtain ⟨p, hp, hP⟩ := h
      rcases List.mem_cons.mp hp with rfl | hp
      · exact ⟨[], p, ps, rfl, hP, fun _ h => absurd h List.not_mem_nil, fun x hx hx' => absurd ⟨x, hx, hx'⟩ hps⟩
      · exact absurd ⟨p, hp, hP⟩ hps

theorem exists_plan {segments : List (List L)} (h : segments ≠ []) (ending : Except ε α) :
    ∃ p : Plan L ε α, p.segments = segments ∧ p.ending = ending := by
  induction segments with
  | nil => exact absurd rfl h
  | cons segment later ih =>
    by_cases hlater : later = []
    · subst hlater
      exact ⟨.last segment ending, rfl, rfl⟩
    · obtain ⟨p, rfl, rfl⟩ := ih hlater
      exact ⟨.more segment p, rfl, rfl⟩

theorem roundsTo_ne_nil (before : List (Plan L ε α)) (p : Plan L ε α) (after : List (Plan L ε α)) :
    roundsTo before p after ≠ [] :=
  List.append_ne_nil_of_right_ne_nil _ (List.cons_ne_nil _ _)

theorem rounds_ne_nil (ps : List (Plan L ε α)) : (List.range (longest ps)).map (roundOf ps) ≠ [] := by
  have hps := longest_pos ps
  simp only [ne_eq, List.map_eq_nil_iff, List.range_eq_nil]
  omega

theorem roundsTo_of_more {before after : List (Plan L ε α)} {p : Plan L ε α} (h : 1 < p.length) :
    roundsTo before p after =
      roundOf (before ++ p :: after) 0 :: roundsTo (before.map rest) p.rest (after.map rest) := by
  obtain ⟨n, hn⟩ : ∃ n, p.rest.length = n + 1 := ⟨p.rest.length - 1, (Nat.sub_add_cancel p.rest.length_pos).symm⟩
  have hp : p.length = n + 2 := by rw [← length_rest h, hn]
  have hall : before.map rest ++ p.rest :: after.map rest = (before ++ p :: after).map rest := by simp
  have hpart : before.map rest ++ [p.rest] = (before ++ [p]).map rest := by simp
  unfold roundsTo
  rw [hall, hpart, hp, hn]
  show (List.range (n + 1)).map _ ++ _ = _ :: ((List.range n).map _ ++ _)
  rw [map_roundOf_range, roundOf_map_rest (before ++ [p])]
  rfl

end Plan

/-! ## Following a plan -/

namespace Effect

variable {σ : Signature} {L ε : Type} {α : Type u} {W : Type}

section
variable (host : Host σ W) (written : Exchange σ → List L) (tick : Duration)

/-- In whatever world a round of the effect begins, it writes the segment of that round and then suspends for a
tick, or ends as planned if the segment was the last. -/
def Follows : Effect σ ε α → Plan L ε α → Prop
  | e, .last segment ending =>
    ∀ w, ∃ t w', Proceeds host e w t (ofExcept ending) w' ∧ t.flatMap written = segment
  | e, .more segment rest =>
    ∀ w, ∃ t next w', Proceeds host e w t (pause tick next) w' ∧ t.flatMap written = segment ∧ Follows next rest

end

variable {host : Host σ W} {written : Exchange σ → List L} {tick : Duration}

/-- In every run the segments are written one after another, with a suspension between any two, and the run ends as
planned. -/
theorem Follows.run {e : Effect σ ε α} {p : Plan L ε α} (h : Follows host written tick e p) (w : W) :
    (e.run host w).1 = .ofExcept p.ending ∧ e.pausesOf host w + 1 = p.length ∧
      (e.transcript host w).flatMap written = p.segments.flatten := by
  induction p generalizing e w with
  | last segment ending =>
    obtain ⟨t, w', hend, rfl⟩ := h w
    rw [hend.run_eq, hend.pausesOf_eq, hend.transcript_eq]
    cases ending <;> exact ⟨rfl, rfl, by simp [ofExcept, transcript, Plan.segments]⟩
  | more segment rest ih =>
    obtain ⟨t, next, w', hpause, rfl, hrest⟩ := h w
    obtain ⟨houtcome, hpauses, hlog⟩ := ih hrest (host.wait tick w')
    rw [hpause.run_eq, hpause.pausesOf_eq, hpause.transcript_eq, List.flatMap_append]
    exact ⟨houtcome, congrArg (· + 1) hpauses, congrArg (t.flatMap written ++ ·) hlog⟩

theorem follows_pure (a : α) : Follows host written tick (pure a : Effect σ ε α) (.last [] (.ok a)) :=
  fun w => ⟨[], w, .nil, rfl⟩

theorem ending_of_follows_pure {a : α} {p : Plan L ε α} (h : Follows host written tick (pure a) p) (w : W) :
    p.ending = .ok a := by
  cases p with
  | last segment ending =>
    obtain ⟨t, w', hend, -⟩ := h w
    cases ending <;> cases hend
    rfl
  | more segment rest =>
    obtain ⟨t, next, w', hpause, -⟩ := h w
    cases hpause

/-! ## A round of members that follow plans -/

open Plan

variable {es : List (Effect σ ε α)} {ps : List (Plan L ε α)}

theorem exists_round (h : List.Forall₂ (Follows host written tick) es ps)
    (hok : ∀ p ∈ ps, p.Fails → 1 < p.length) (w : W) : ∃ t rs nexts w', Round host es w t rs w' ∧
      List.Forall₂ (Resting tick) rs nexts ∧ t.flatMap written = roundOf ps 0 ∧
      List.Forall₂ (Follows host written tick) nexts (ps.map rest) ∧
      ((∃ next, pause tick next ∈ rs) ↔ ∃ p ∈ ps, 1 < p.length) ∧
      ((∀ p ∈ ps, 1 < p.length) → rs = nexts.map (pause tick)) := by
  induction h generalizing w with
  | nil => exact ⟨[], [], [], w, .nil, .nil, rfl, .nil, by simp, fun _ => rfl⟩
  | @cons e p es ps hp _ ih =>
    have hoks : ∀ q ∈ ps, q.Fails → 1 < q.length := fun q hq => hok q (List.mem_cons_of_mem p hq)
    cases p with
    | last segment ending =>
      cases ending with
      | error err => exact absurd (hok _ List.mem_cons_self ⟨err, rfl⟩) (Nat.lt_irrefl 1)
      | ok a =>
        obtain ⟨t, w₁, hend, hwritten⟩ := hp w
        obtain ⟨t', rs, nexts, w', hround, hrest, hs, hfollow, hsome, -⟩ := ih hoks w₁
        refine ⟨t ++ t', pure a :: rs, pure a :: nexts, w', .cons hend hround, .cons (.ended a) hrest, ?_,
          .cons (follows_pure a) hfollow, ?_, ?_⟩
        · rw [List.flatMap_append, hwritten, hs]
          rfl
        · simpa using hsome
        · exact fun hall => absurd (hall _ List.mem_cons_self) (Nat.lt_irrefl 1)
    | more segment rest =>
      obtain ⟨t, next, w₁, hpause, hwritten, hnext⟩ := hp w
      obtain ⟨t', rs, nexts, w', hround, hrest, hs, hfollow, -, hall⟩ := ih hoks w₁
      refine ⟨t ++ t', pause tick next :: rs, next :: nexts, w', .cons hpause hround, .cons (.paused next) hrest, ?_,
        .cons hnext hfollow, ?_, ?_⟩
      · rw [List.flatMap_append, hwritten, hs]
        rfl
      · exact iff_of_true ⟨next, List.mem_cons_self⟩
          ⟨_, List.mem_cons_self, Nat.succ_lt_succ rest.length_pos⟩
      · exact fun hlong => congrArg (pause tick next :: ·) (hall fun q hq => hlong q (List.mem_cons_of_mem _ hq))

/-! ## Plans for the scribe -/

def noted : Exchange chores → List String
  | ⟨.note entry, _⟩ => [entry]
  | ⟨.count, _⟩ => []

def notes (e : Effect chores ε α) : List String → Effect chores ε α
  | [] => e
  | entry :: entries => call (σ := chores) (.note entry) fun _ => notes e entries

end Effect

end Workflow

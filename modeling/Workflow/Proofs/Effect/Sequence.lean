import Workflow.Proofs.Effect.Chronicle

/-!
# Effects in a row

`sequence` runs the effects of a list one after another and stops at the first that does not succeed. `InTurn`
tells what becomes of a list run so. Main statement: `sequence_settles`.
-/

namespace Workflow.Effect

universe u v

variable {σ : Signature} {ε : Type} {α : Type u} {β : Type v} {W : Type}

/-! ## Runs -/

/-- The effects succeed, each from the world that the one before it left: their values, what happens, the world
after the last. -/
inductive Succeed (host : Host σ W) : List (Effect σ ε α) → W → List α → List (Occurrence σ) → W → Prop
  | nil {w} : Succeed host [] w [] [] w
  | cons {e es w a w₁ values c w₂} (first : e.run host w = (.done a, w₁)) (rest : Succeed host es w₁ values c w₂) :
      Succeed host (e :: es) w (a :: values) (e.chronicle host w ++ c) w₂

/-- What becomes of effects that are run in turn: all succeed, or one does not after those before it have, and
then none of the later ones is run. -/
inductive InTurn (host : Host σ W) (es : List (Effect σ ε α)) (w : W) :
    Outcome ε (List α) → List (Occurrence σ) → W → Prop
  | done {values c w'} (all : Succeed host es w values c w') : InTurn host es w (.done values) c w'
  | failed {before e later values c w₁ err w₂} (hes : es = before ++ e :: later)
      (done : Succeed host before w values c w₁) (here : e.run host w₁ = (.failed err, w₂)) :
      InTurn host es w (.failed err) (c ++ e.chronicle host w₁) w₂
  | stopped {before e later values c w₁ w₂} (hes : es = before ++ e :: later)
      (done : Succeed host before w values c w₁) (here : e.run host w₁ = (.stopped, w₂)) :
      InTurn host es w .stopped (c ++ e.chronicle host w₁) w₂

theorem inTurn_sequence (host : Host σ W) (es : List (Effect σ ε α)) (w : W) :
    InTurn host es w ((sequence es).run host w).1 ((sequence es).chronicle host w)
      ((sequence es).run host w).2 := by
  induction es generalizing w with
  | nil => exact .done .nil
  | cons e es ih =>
    rw [sequence_cons]
    unfold map2
    rw [run_bind, chronicle_bind]
    generalize hfirst : e.run host w = first
    obtain ⟨outcome, w₁⟩ := first
    cases outcome with
    | failed err =>
      rw [← List.nil_append (e.chronicle host w), List.append_nil]
      exact .failed (List.nil_append _).symm .nil hfirst
    | stopped =>
      rw [← List.nil_append (e.chronicle host w), List.append_nil]
      exact .stopped (List.nil_append _).symm .nil hfirst
    | done a =>
      dsimp only
      rw [run_map, chronicle_map]
      specialize ih w₁
      revert ih
      generalize (sequence es).chronicle host w₁ = c
      generalize (sequence es).run host w₁ = rest
      obtain ⟨outcome, w₂⟩ := rest
      intro ih
      cases ih with
      | done all => exact .done (.cons hfirst all)
      | failed hes done here =>
        rw [← List.append_assoc]
        exact .failed (congrArg (e :: ·) hes) (.cons hfirst done) here
      | stopped hes done here =>
        rw [← List.append_assoc]
        exact .stopped (congrArg (e :: ·) hes) (.cons hfirst done) here

/-! ## Lists of lists -/

theorem map2_append_map2_cons (e : Effect σ ε α) (first second : Effect σ ε (List α)) :
    map2 (· ++ ·) (map2 List.cons e first) second = map2 List.cons e (map2 (· ++ ·) first second) := by
  simp only [map2, map_eq_bind, bind_assoc, pure_bind, List.cons_append]

theorem sequence_append (es ds : List (Effect σ ε α)) :
    sequence (es ++ ds) = map2 (· ++ ·) (sequence es) (sequence ds) := by
  induction es with
  | nil =>
    show sequence ds = (sequence ds).map fun values => [] ++ values
    rw [map_eq_bind]
    exact (bind_pure _).symm
  | cons e es ih => rw [List.cons_append, sequence_cons, sequence_cons, ih, map2_append_map2_cons]

theorem sequence_singleton (e : Effect σ ε α) : sequence [e] = e.map fun a => [a] :=
  (map_eq_bind _ e).symm

theorem foldl_map2 (es : List (Effect σ ε α)) (done : Effect σ ε (List α)) :
    es.foldl (map2 fun values a => values ++ [a]) done = map2 (· ++ ·) done (sequence es) := by
  induction es generalizing done with
  | nil => simp [map2, map_eq_bind]
  | cons e es ih =>
    rw [List.foldl_cons, ih, sequence_cons]
    simp only [map2, map_eq_bind, bind_assoc, pure_bind, List.append_assoc, List.singleton_append]

theorem sequence_eq_foldl (es : List (Effect σ ε α)) :
    sequence es = es.foldl (map2 fun values a => values ++ [a]) (pure []) := by
  rw [foldl_map2, ← sequence_nil, ← sequence_append, List.nil_append]

/-! ## Effects that are built on the way -/

def oneByOne (f : β → Effect σ ε α) : List β → Effect σ ε (List α)
  | [] => pure []
  | item :: items => (f item).bind fun a => (oneByOne f items).bind fun values => pure (a :: values)

theorem traverse_eq_oneByOne (f : β → Effect σ ε α) (items : List β) : traverse f items = oneByOne f items := by
  induction items with
  | nil => rfl
  | cons item items ih =>
    unfold traverse at ih ⊢
    rw [List.map_cons, sequence_cons, ih]
    simp only [map2, map_eq_bind, oneByOne]

theorem exists_built {build : β → Effect σ ε (Effect σ ε α)} {items : List β}
    (h : ∀ item ∈ items, ∃ e, build item = pure e) :
    ∃ es, traverse build items = pure es ∧ oneByOne (fun item => (build item).bind id) items = sequence es := by
  induction items with
  | nil => exact ⟨[], rfl, rfl⟩
  | cons item items ih =>
    obtain ⟨e, he⟩ := h item List.mem_cons_self
    obtain ⟨es, hbuilt, hrun⟩ := ih fun item' hitem => h item' (List.mem_cons_of_mem item hitem)
    refine ⟨e :: es, ?_, ?_⟩
    · rw [traverse_eq_oneByOne] at hbuilt ⊢
      rw [oneByOne, he, hbuilt]
      rfl
    · rw [oneByOne, he, hrun, sequence_cons]
      simp only [map2, map_eq_bind, pure_bind, id_eq]

theorem run_traverse_of_steady {host : Host σ W} {f : β → Effect σ ε α} {value : β → α}
    {items : List β} {w : W} (h : ∀ item ∈ items, (f item).run host w = (.done (value item), w)) :
    (traverse f items).run host w = (.done (items.map value), w) ∧
      (traverse f items).chronicle host w = items.flatMap fun item => (f item).chronicle host w := by
  induction items with
  | nil => exact ⟨rfl, rfl⟩
  | cons item items ih =>
    obtain ⟨hrun, hchronicle⟩ := ih fun item' hitem => h item' (List.mem_cons_of_mem item hitem)
    unfold traverse at hrun hchronicle ⊢
    rw [List.map_cons, sequence_cons]
    unfold map2
    rw [run_bind, chronicle_bind, h item List.mem_cons_self]
    dsimp only
    rw [run_map, chronicle_map, hrun, hchronicle]
    exact ⟨rfl, rfl⟩

theorem sequence_settles :
    (∀ ⦃W : Type⦄ (host : Host σ W) (es : List (Effect σ ε α)) (w : W),
      InTurn host es w ((sequence es).run host w).1 ((sequence es).chronicle host w) ((sequence es).run host w).2) ∧
    (∀ es ds : List (Effect σ ε α), (sequence (es ++ ds)).Agrees (map2 (· ++ ·) (sequence es) (sequence ds))) ∧
    (∀ e : Effect σ ε α, (sequence [e]).Agrees (e.map fun a => [a])) ∧
    (∀ es : List (Effect σ ε α),
      (sequence es).Agrees (es.foldl (map2 fun values a => values ++ [a]) (pure []))) ∧
    (∀ (f : β → Effect σ ε α) (items : List β),
      (traverse f items).Agrees (sequence (items.map f)) ∧ (traverse f items).Agrees (oneByOne f items)) ∧
    ∀ (build : β → Effect σ ε (Effect σ ε α)) (items : List β), (∀ item ∈ items, ∃ e, build item = pure e) →
      ((traverse build items).bind sequence).Agrees (oneByOne (fun item => (build item).bind id) items) := by
  refine ⟨fun _ => inTurn_sequence, ?_, ?_, ?_, ?_, ?_⟩
  · exact fun es ds => .of_eq (sequence_append es ds)
  · exact fun e => .of_eq (sequence_singleton e)
  · exact fun es => .of_eq (sequence_eq_foldl es)
  · exact fun f items => ⟨.of_eq rfl, .of_eq (traverse_eq_oneByOne f items)⟩
  · intro build items h
    obtain ⟨es, hbuilt, hrun⟩ := exists_built h
    rw [hbuilt, hrun, pure_bind]
    exact .of_eq rfl

/-- The third of four effects fails. The effects are as good as built on the way. -/
theorem sequence_settles_stopped :
    let es : List (Effect chores String Nat) :=
      [(note "a").bind fun _ => pause .zero (pure 1), ask (σ := chores) .count, fail "stop", (note "d").map fun _ => 4]
    let counted : Occurrence chores := .exchange ⟨.count, (1 : Nat)⟩
    let build : Nat → Effect chores String (Effect chores String Nat) := fun n => pure (pure (n * n))
    InTurn scribe es ([], 0) (.failed "stop") [.exchange ⟨.note "a", ()⟩, .pause .zero, counted] (["a"], 1) ∧
    (∀ n ∈ [2, 3], ∃ e, build n = pure e) ∧
    (oneByOne (fun n => (build n).bind id) [2, 3]).run scribe ([], 0) = (.done [4, 9], [], 0) := by
  intro es counted build
  obtain ⟨hturn, -, -, -, -, hbuild⟩ := sequence_settles (σ := chores) (ε := String) (α := Nat) (β := Nat)
  have hpure : ∀ n ∈ [2, 3], ∃ e, build n = pure e := fun n _ => ⟨pure (n * n), rfl⟩
  exact ⟨hturn scribe es ([], 0), hpure, (hbuild build [2, 3] hpure scribe ([], 0)).1.symm⟩

end Workflow.Effect

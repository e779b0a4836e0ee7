import Workflow.Process.Sequence
import Workflow.Proofs.Effect.Chronicle
import Workflow.Proofs.Process.Congruence

/-!
# Ways to write the same workflow

Chains and builders nest their steps to the left, blocks and recursions to the right. They look alike all the same:
`spellings_agree`, which also says what a statement of a block finds in scope.
-/

namespace Workflow

variable {σ : Signature} {ε I S E R R' Q V A : Type}

/-! ## Scopes -/

namespace Scope

variable {scope : Scope A} {x : String} {v : A} {before after bindings : List (Option String × A)}

/-- The scope after bindings that are made one after another, some of them without a name. -/
def bindAll (scope : Scope A) (bindings : List (Option String × A)) : Scope A :=
  bindings.foldl (fun scope b => scope.bind b.1 b.2) scope

theorem bindAll_append (scope : Scope A) (before after : List (Option String × A)) :
    scope.bindAll (before ++ after) = (scope.bindAll before).bindAll after :=
  List.foldl_append ..

theorem find?_bind_self (scope : Scope A) (x : String) (v : A) : (scope.bind (some x) v).find? x = some v :=
  List.lookup_cons_self

theorem find?_bind_of_ne {name : Option String} (h : name ≠ some x) (v : A) :
    (scope.bind name v).find? x = scope.find? x := by
  cases name with
  | none => rfl
  | some y =>
    have hne : (x == y) = false := beq_false_of_ne fun hx => h (congrArg some hx.symm)
    show List.lookup x ((y, v) :: scope) = _
    rw [List.lookup_cons, hne]
    rfl

theorem find?_bindAll_of_forall_ne (h : ∀ b ∈ bindings, b.1 ≠ some x) :
    (scope.bindAll bindings).find? x = scope.find? x := by
  induction bindings generalizing scope with
  | nil => rfl
  | cons b bindings ih =>
    show ((scope.bind b.1 b.2).bindAll bindings).find? x = _
    rw [ih fun b' hb' => h b' (List.mem_cons_of_mem b hb'), find?_bind_of_ne (h b List.mem_cons_self)]

theorem find?_bindAll_of_latest (h : ∀ b ∈ after, b.1 ≠ some x) :
    (scope.bindAll (before ++ (some x, v) :: after)).find? x = some v := by
  rw [bindAll_append]
  exact (find?_bindAll_of_forall_ne h).trans (find?_bind_self _ x v)

theorem bindAll_unnamed (scope : Scope A) (before after : List (Option String × A)) (v : A) :
    scope.bindAll (before ++ (none, v) :: after) = scope.bindAll (before ++ after) := by
  rw [bindAll_append, bindAll_append]
  rfl

end Scope

namespace Process

/-! ## Chains -/

theorem map_bind (p : Process σ ε I S E R) (h : R → Q) (f : Q → Process σ ε I S E R') :
    ((p.map h).bind f).Alike (p.bind fun v => f (h v)) := by
  have hmap : ((p.map h).bind f).Alike ((p.bind fun v => pure (h v)).bind f) :=
    (map_eq_bind_pure p h).bind fun _ => .of_eq rfl
  exact hmap.trans ((bind_assoc p _ f).trans (bind_congr p fun v => pure_bind (h v) f))

theorem Alike.pipe {p p' : Process σ ε I S E R} (h : p.Alike p') (steps : Steps σ ε I S E R R') :
    (pipe p steps).Alike (pipe p' steps) := by
  induction steps with
  | done => exact h
  | next step rest ih => exact ih (h.bind fun _ => .of_eq rfl)

theorem pipe_bind (p : Process σ ε I S E R) (f : R → Process σ ε I S E Q) (steps : Steps σ ε I S E Q R') :
    (pipe (p.bind f) steps).Alike (p.bind fun v => pipe (f v) steps) := by
  induction steps with
  | done => exact .of_eq rfl
  | next step rest ih => exact ((bind_assoc p f step).pipe rest).trans (ih fun v => (f v).bind step)

/-! ## Builders -/

/-- What may be chained with a builder: steps, and functions of the value before. -/
inductive Links (σ : Signature) (ε I S E : Type) : Type → Type → Type 1 where
  | done {R : Type} : Links σ ε I S E R R
  | andThen {R Q R' : Type} (step : R → Process σ ε I S E Q) (rest : Links σ ε I S E Q R') : Links σ ε I S E R R'
  | map {R Q R' : Type} (f : R → Q) (rest : Links σ ε I S E Q R') : Links σ ε I S E R R'

namespace Links

def build {R R' : Type} : Sequence σ ε I S E R → Links σ ε I S E R R' → Sequence σ ε I S E R'
  | built, .done => built
  | built, .andThen step rest => build (built.andThen step) rest
  | built, .map f rest => build (built.map f) rest

def steps {R R' : Type} : Links σ ε I S E R R' → Steps σ ε I S E R R'
  | .done => .done
  | .andThen step rest => .next step rest.steps
  | .map f rest => .next (fun v => pure (f v)) rest.steps

theorem build_alike (built : Sequence σ ε I S E R) (links : Links σ ε I S E R R') :
    (links.build built).finish.Alike (pipe built.process links.steps) := by
  induction links with
  | done => exact .of_eq rfl
  | andThen step rest ih => exact ih (built.andThen step)
  | map f rest ih => exact (ih (built.map f)).trans ((map_eq_bind_pure built.process f).pipe rest.steps)

end Links

def Steps.links {R R' : Type} : Steps σ ε I S E R R' → Links σ ε I S E R R'
  | .done => .done
  | .next step rest => .andThen step rest.links

theorem build_links (built : Sequence σ ε I S E R) (steps : Steps σ ε I S E R R') :
    (steps.links.build built).process = pipe built.process steps := by
  induction steps with
  | done => rfl
  | next step rest ih => exact ih (built.andThen step)

/-! ## Blocks -/

/-- A block for `first` and these steps: each value is put in scope, under whatever name, and the next step finds it
there. -/
inductive Spells {σ : Signature} {ε I S E : Type} : {V R R' : Type} → (V → Process σ ε I S E R) →
    Steps σ ε I S E R R' → Block σ ε I S E V R' → Prop
  | last {V R : Type} {first : V → Process σ ε I S E R} : Spells first .done (.last first)
  | next {V R Q R' V' : Type} {first : V → Process σ ε I S E R} {step : R → Process σ ε I S E Q}
      {rest : Steps σ ε I S E Q R'} {bind : R → V → V'} {look : V' → R} {b : Block σ ε I S E V' R'}
      (hlook : ∀ v scope, look (bind v scope) = v) (h : Spells (fun scope => step (look scope)) rest b) :
      Spells first (.next step rest) (.next first bind b)

theorem exists_spells (first : V → Process σ ε I S E R) (steps : Steps σ ε I S E R R') :
    ∃ b, Spells first steps b := by
  induction steps generalizing V with
  | done => exact ⟨.last first, .last⟩
  | next step rest ih =>
    -- nothing but the last value is kept in scope
    obtain ⟨b, hb⟩ := ih step
    exact ⟨.next first (fun v _ => v) b, .next (fun _ _ => rfl) hb⟩

theorem Spells.alike {first : V → Process σ ε I S E R} {steps : Steps σ ε I S E R R'} {b : Block σ ε I S E V R'}
    (h : Spells first steps b) (scope : V) : (block scope b).Alike (pipe (first scope) steps) := by
  induction h with
  | last => exact .of_eq rfl
  | @next V R Q R' V' first step rest bind look b hlook _ ih =>
    have hrest : ∀ v, (block (bind v scope) b).Alike (Process.pipe (step v) rest) := by
      intro v
      have halike : (block (bind v scope) b).Alike (Process.pipe (step (look (bind v scope))) rest) := ih (bind v scope)
      rw [hlook] at halike
      exact halike
    exact (bind_congr (first scope) hrest).trans (pipe_bind (first scope) step rest).symm

/-- A block as a chain whose steps hand on all that is in scope. -/
def Block.steps {V R : Type} : Block σ ε I S E V R → Steps σ ε I S E V R
  | .last step => .next step .done
  | .next step bind rest => .next (fun scope => (step scope).map fun v => bind v scope) rest.steps

theorem pipe_steps (p : Process σ ε I S E V) (b : Block σ ε I S E V R) :
    (pipe p b.steps).Alike (p.bind fun scope => block scope b) := by
  induction b with
  | last step => exact .of_eq rfl
  | next step bind rest ih =>
    refine (ih _).trans ((bind_assoc p _ _).trans (bind_congr p fun scope => ?_))
    exact map_bind (step scope) (fun v => bind v scope) fun scope' => block scope' rest

/-! ## Names -/

def namedAll (rest : Block σ ε I S E (Scope A) R)
    (statements : List (Option String × (Scope A → Process σ ε I S E A))) : Block σ ε I S E (Scope A) R :=
  statements.foldr (fun s rest => .named s.1 s.2 rest) rest

/-- Runs statements as a chain that keeps a list of what was bound so far. -/
def collect (scope : Scope A) (statements : List (Option String × (Scope A → Process σ ε I S E A)))
    (first : Process σ ε I S E (List (Option String × A))) : Process σ ε I S E (List (Option String × A)) :=
  statements.foldl (fun done s => done.bind fun bindings =>
    (s.2 (scope.bindAll bindings)).map fun v => bindings ++ [(s.1, v)]) first

theorem collect_bind (scope : Scope A) (statements : List (Option String × (Scope A → Process σ ε I S E A)))
    (rest : Block σ ε I S E (Scope A) R) (first : Process σ ε I S E (List (Option String × A))) :
    ((collect scope statements first).bind fun bindings => block (scope.bindAll bindings) rest).Alike
      (first.bind fun bindings => block (scope.bindAll bindings) (namedAll rest statements)) := by
  induction statements generalizing first with
  | nil => exact .of_eq rfl
  | cons s statements ih =>
    refine (ih _).trans ((bind_assoc first _ _).trans (bind_congr first fun bindings => ?_))
    refine (map_bind _ _ _).trans (.of_eq ?_)
    show Process.bind _ _ = Process.bind _ _
    congr 1; funext v
    rw [Scope.bindAll_append]
    rfl

/-! ## Recursions -/

def Steps.replicate (body : R → Process σ ε I S E R) : Nat → Steps σ ε I S E R R
  | 0 => .done
  | n + 1 => .next body (replicate body n)

def descend (step : Nat → R → Process σ ε I S E R) : Nat → R → Process σ ε I S E R
  | 0 => pure
  | n + 1 => fun v => (step 0 v).bind (descend (fun k => step (k + 1)) n)

theorem iterate_succ (first : Process σ ε I S E R) (step : Nat → R → Process σ ε I S E R) (n : Nat) :
    iterate first step (n + 1) = iterate (first.bind (step 0)) (fun k => step (k + 1)) n := by
  induction n with
  | zero => rfl
  | succ n ih => exact congrArg (fun p => p.bind (step (n + 1))) ih

theorem iterate_alike (first : Process σ ε I S E R) (step : Nat → R → Process σ ε I S E R) (n : Nat) :
    (iterate first step n).Alike (first.bind (descend step n)) := by
  induction n generalizing first step with
  | zero => exact (bind_pure first).symm
  | succ n ih =>
    rw [iterate_succ]
    exact (ih _ _).trans (bind_assoc first _ _)

theorem pipe_replicate (first : Process σ ε I S E R) (body : R → Process σ ε I S E R) (n : Nat) :
    pipe first (.replicate body n) = iterate first (fun _ => body) n := by
  induction n generalizing first with
  | zero => rfl
  | succ n ih =>
    rw [iterate_succ]
    exact ih (first.bind body)

/-! ## Agreement -/

/-- A chain, a builder, a block that hands the values on, and a chain that hands on all that is in scope look alike; so
do a chain of one body and a recursion. A statement of a block is in the scope of the ones before it: it finds the
latest value of every name, and those without a name make no difference. -/
theorem spellings_agree :
    (∀ {R R'} (first : Process σ ε I S E R) (steps : Steps σ ε I S E R R'),
      ((steps.links.build (sequence first)).finish = pipe first steps ∧
        (steps.links.build (sequence first)).process = pipe first steps) ∧
      (∃ b : Block σ ε I S E Unit R', Spells (fun _ => first) steps b) ∧
      ∀ {V} (scope : V) (b : Block σ ε I S E V R'), Spells (fun _ => first) steps b →
        (block scope b).Alike (pipe first steps)) ∧
    (∀ {R R'} (first : Process σ ε I S E R) (links : Links σ ε I S E R R'),
      (links.build (sequence first)).finish.Alike (pipe first links.steps)) ∧
    (∀ {V R} (scope : V) (b : Block σ ε I S E V R), (block scope b).Alike (pipe (pure scope) b.steps)) ∧
    (∀ {A R} (scope : Scope A) (statements : List (Option String × (Scope A → Process σ ε I S E A)))
      (rest : Block σ ε I S E (Scope A) R), (block scope (namedAll rest statements)).Alike
        ((collect scope statements (pure [])).bind fun bindings => block (scope.bindAll bindings) rest)) ∧
    (∀ {A} (scope : Scope A),
      (∀ x v (before after : List (Option String × A)), (∀ b ∈ after, b.1 ≠ some x) →
        (scope.bindAll (before ++ (some x, v) :: after)).find? x = some v) ∧
      (∀ x bindings, (∀ b ∈ bindings, b.1 ≠ some x) → (scope.bindAll bindings).find? x = scope.find? x) ∧
      ∀ (before after : List (Option String × A)) v,
        scope.bindAll (before ++ (none, v) :: after) = scope.bindAll (before ++ after)) ∧
    ∀ {R} (first : Process σ ε I S E R),
      (∀ step n, (iterate first step n).Alike (first.bind (descend step n))) ∧
      ∀ body n, (pipe first (.replicate body n)).Alike (first.bind (descend (fun _ => body) n)) := by
  refine ⟨fun first steps => ⟨?_, exists_spells _ steps, fun scope b h => h.alike scope⟩, ?_, ?_, ?_, ?_, ?_⟩
  · exact ⟨build_links _ steps, build_links _ steps⟩
  · exact fun first links => links.build_alike (sequence first)
  · intro V R scope b
    exact ((pipe_steps (pure scope) b).trans (pure_bind scope _)).symm
  · intro A R scope statements rest
    exact ((collect_bind scope statements rest (pure [])).trans (pure_bind [] _)).symm
  · exact fun scope => ⟨fun x v before after => Scope.find?_bindAll_of_latest,
      fun x bindings => Scope.find?_bindAll_of_forall_ne, Scope.bindAll_unnamed scope⟩
  · intro R first
    refine ⟨fun step n => iterate_alike first step n, fun body n => ?_⟩
    rw [pipe_replicate]
    exact iterate_alike first (fun _ => body) n

/-! ## Two numbers -/

def number : Process chores String Unit Nat Nat Nat :=
  await fun n => some (.success n)

def appending (tens : Nat) : Process chores String Unit Nat Nat Nat :=
  await fun n => some (.success (10 * tens + n))

def noting (n : Nat) : Process chores String Unit Nat Nat Nat :=
  (perform (Effect.note "read")).bind fun _ => pure n

def reading : Steps chores String Unit Nat Nat Nat Nat :=
  .next appending (.next noting .done)

def renamed : Block chores String Unit Nat Nat (Scope Nat) Nat :=
  .named (some "n") (fun _ => number) (.named (some "n") (fun scope => appending ((scope.find? "n").getD 0))
    (.last fun scope => noting ((scope.find? "n").getD 0)))

theorem spells_renamed : Spells (fun _ => number) reading renamed := by
  have hlook (v : Nat) (scope : Scope Nat) : ((scope.bind (some "n") v).find? "n").getD 0 = v := by
    rw [Scope.find?_bind_self]
    rfl
  exact .next hlook (.next hlook .last)

theorem spellings_agree_renamed :
    (Spells (fun _ => number) reading renamed ∧ ∀ b ∈ [(none, 3)], b.1 ≠ some "n") ∧
    (block [] renamed).Alike (pipe number reading) ∧
    ((block [] renamed).walk () 0 [4, 2] 1).kind = .inProgress ∧
    ((block [] renamed).walk () 0 [4, 2] 2).value? = some 42 ∧
    (Scope.bindAll [] ([(some "n", 1), (some "m", 5)] ++ (some "n", 2) :: [(none, 3)])).find? "n" = some 2 ∧
    (Scope.bindAll [("n", 1)] [(none, 3)]).find? "n" = some 1 := by
  have hnone : ∀ b ∈ [((none : Option String), 3)], b.1 ≠ some "n" := by decide
  obtain ⟨chain, -, -, -, scopes, -⟩ := spellings_agree (σ := chores) (ε := String) (I := Unit) (S := Nat) (E := Nat)
  refine ⟨⟨spells_renamed, hnone⟩, (chain number reading).2.2 [] renamed spells_renamed, rfl, rfl, ?_, ?_⟩
  · exact (scopes []).1 "n" 2 [(some "n", 1), (some "m", 5)] [(none, 3)] hnone
  · exact (scopes [("n", 1)]).2.1 "n" [(none, 3)] hnone

end Process

end Workflow

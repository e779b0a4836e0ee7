import Workflow.Proofs.Effect.Cold
import Workflow.Proofs.Effect.Planned
import Workflow.Scenario.World

/-!
# Solitary scripts

A script that neither counts, nor sends follow-up events, nor calls the store does not depend on anything it shares
with its neighbours. Main statements: `planned_task`, by which what is built from it follows a plan, however deep
`all` and `race` are nested in it, and `exists_plan_build`, by which the plan tells what it leaves in the journal.
-/

namespace Workflow.Script.EffectScript

open Effect Scenario

mutual

def Solitary : EffectScript → Prop
  | pure _ => True
  | unit => True
  | fail _ => True
  | note _ => True
  | count _ => False
  | conclude _ => True
  | stepwise _ _ => True
  | bind e _ body => e.Solitary ∧ body.Solitary
  | andThen e next => e.Solitary ∧ next.Solitary
  | map e _ _ => e.Solitary
  | discard e => e.Solitary
  | recover e _ handler => e.Solitary ∧ handler.Solitary
  | map2 left right _ => left.Solitary ∧ right.Solitary
  | sequence items => SolitaryAll items
  | all items => SolitaryAll items
  | race items => SolitaryAll items
  | traverse _ _ each => each.Solitary
  | pipe e steps => e.Solitary ∧ SolitarySteps steps
  | send _ _ => False
  | store _ => False

def SolitaryAll : List EffectScript → Prop
  | [] => True
  | e :: es => e.Solitary ∧ SolitaryAll es

def SolitarySteps : List (Option String × EffectScript) → Prop
  | [] => True
  | (_, body) :: rest => body.Solitary ∧ SolitarySteps rest

end

variable (serve : ScriptService)

mutual

theorem build_congr (m m' : Mediator Handler) (env : Env) :
    (s : EffectScript) → s.Solitary → s.build serve m env = s.build serve m' env
  | pure _, _ => rfl
  | unit, _ => rfl
  | fail _, _ => rfl
  | note _, _ => rfl
  | count _, h => h.elim
  | conclude _, _ => rfl
  | stepwise _ _, _ => rfl
  | bind e name body, h => by simp only [build, build_congr m m' env e h.1]
  | andThen e next, h => by simp only [build, build_congr m m' env e h.1, build_congr m m' env next h.2]
  | map e name image, h => by simp only [build, build_congr m m' env e h]
  | discard e, h => by simp only [build, build_congr m m' env e h]
  | recover e name handler, h => by simp only [build, build_congr m m' env e h.1]
  | map2 left right image, h => by
    simp only [build, build_congr m m' env left h.1, build_congr m m' env right h.2]
  | sequence items, h => by simp only [build, buildAll_congr m m' env items h]
  | all items, h => by simp only [build, buildAll_congr m m' env items h]
  | race items, h => by simp only [build, buildAll_congr m m' env items h]
  | traverse values name each, h => by
    have heach v := build_congr m m' (env.bind name v) each h
    simp only [build, heach]
  | pipe e steps, h => by simp only [build, build_congr m m' env e h.1]
  | send _ _, h => h.elim
  | store _, h => h.elim

theorem buildAll_congr (m m' : Mediator Handler) (env : Env) :
    (items : List EffectScript) → SolitaryAll items → buildAll serve m env items = buildAll serve m' env items
  | [], _ => rfl
  | e :: es, h => by simp only [buildAll, build_congr m m' env e h.1, buildAll_congr m m' env es h.2]

end

/-! ## Scripts before they are executed -/

mutual

theorem idle_build (m : Mediator Handler) (env : Env) : (s : EffectScript) → (s.build serve m env).Idle
  | pure _ => trivial
  | unit => trivial
  | fail _ => trivial
  | note _ => trivial
  | count _ => trivial
  | conclude _ => trivial
  | stepwise _ _ => trivial
  | bind e _ _ => (idle_build m env e).start fun _ => trivial
  | andThen e _ => (idle_build m env e).start fun _ => trivial
  | map e _ _ => (idle_build m env e).start fun _ => trivial
  | discard e => (idle_build m env e).start fun _ => trivial
  | recover e _ _ => (idle_build m env e).start fun _ => trivial
  | map2 _ _ _ => trivial
  | sequence _ => trivial
  | all items => (Cold.idle_startAll (idle_buildAll m env items) fun _ => Cold.idle_ready _).start fun _ => trivial
  | race items => Cold.idle_startAll (idle_buildAll m env items) fun _ => Cold.idle_ready _
  | traverse _ _ _ => trivial
  | pipe e steps => (idle_build m env e).pipe (buildSteps serve env steps)
  | send _ _ => trivial
  | store _ => trivial

theorem idle_buildAll (m : Mediator Handler) (env : Env) :
    (items : List EffectScript) → ∀ c ∈ buildAll serve m env items, c.Idle
  | [] => fun _ hc => absurd hc List.not_mem_nil
  | e :: es => List.forall_mem_cons.mpr ⟨idle_build m env e, idle_buildAll m env es⟩

end

/-! ## Plans of solitary scripts -/

def entries : Exchange (requests acts Handler Data) → List Data
  | ⟨.act (.note entry), _⟩ => [entry]
  | _ => []

theorem planned_note (entry : Data) : Planned World.host entries .zero (Script.note entry) :=
  planned_call (fun _ => ⟨(), _, rfl, rfl, rfl⟩) (planned_ofExcept (.ok Data.null))

theorem planned_pauses (n : Nat) : Planned World.host entries .zero (pauses n : Task acts Handler Data Unit) := by
  induction n with
  | zero => exact planned_ofExcept (.ok ())
  | succ n ih => exact ih.pause

theorem planned_ending (env : Env) (ending : Ending) : Planned World.host entries .zero (ending.task env) := by
  unfold Ending.task
  cases ending.error with
  | some error => exact planned_ofExcept (.error _)
  | none => exact planned_ofExcept (.ok _)

theorem planned_stepwise (env : Env) (steps : List AsyncStep) (ending : Ending) :
    Planned World.host entries .zero
      (steps.foldr (fun step rest => (step.task env).andThen rest) (ending.task env)) := by
  induction steps with
  | nil => exact planned_ending env ending
  | cons step steps ih =>
    cases step with
    | note entry => exact ((planned_note _).map _).bind fun _ => ih
    | pause times => exact (planned_pauses times).bind fun _ => ih

theorem planned_later {body : Mediator Handler → ScriptEffect} (hbody : ∀ m m', body m = body m')
    (h : Planned World.host entries .zero (body .empty).execute) :
    Planned World.host entries .zero (later body).execute :=
  planned_call (fun w => ⟨w.mediator, w, rfl, congrArg Cold.execute (hbody w.mediator .empty), rfl⟩) h

mutual

theorem planned_task (m : Mediator Handler) (env : Env) :
    (s : EffectScript) → s.Solitary → Planned World.host entries .zero (s.build serve m env).execute
  | pure _, _ => planned_ofExcept (.ok _)
  | unit, _ => planned_ofExcept (.ok _)
  | fail _, _ => planned_ofExcept (.error _)
  | note _, _ => planned_note _
  | count _, h => h.elim
  | conclude ending, _ => planned_ending env ending
  | stepwise steps ending, _ => planned_stepwise env steps ending
  | bind e name body, h => by
    rw [build, Cold.execute_bind]
    apply (planned_task m env e h.1).bind
    intro v
    exact planned_later (fun m m' => build_congr serve m m' (env.bind name v) body h.2)
      (planned_task .empty (env.bind name v) body h.2)
  | andThen e next, h => by
    rw [build, Cold.execute_andThen]
    exact (planned_task m env e h.1).bind fun _ => planned_task m env next h.2
  | map e _ _, h => by
    rw [build, Cold.execute_map]
    exact (planned_task m env e h).map _
  | discard e, h => by
    rw [build, Cold.execute_map]
    exact (planned_task m env e h).map _
  | recover e name handler, h => by
    rw [build, Cold.execute_recover]
    apply (planned_task m env e h.1).recover
    intro error
    exact planned_later (fun m m' => build_congr serve m m' (env.bind name (.text error.message)) handler h.2)
      (planned_task .empty (env.bind name (.text error.message)) handler h.2)
  | map2 left right _, h => (planned_task m env left h.1).map2 (planned_task m env right h.2) _
  | sequence items, h => by
    rw [build, Cold.execute_map, Cold.execute_sequence]
    exact (Planned.sequence (planned_tasks m env items h)).map _
  | all items, h => by
    rw [build, Cold.execute_map, Cold.execute_all_of_idle (idle_buildAll serve m env items)]
    exact (Planned.joinAll (planned_tasks m env items h)).map _
  | race items, h => by
    rw [build, Cold.execute_race_of_idle _ (idle_buildAll serve m env items)]
    exact Planned.selectFirst Failure.emptyRace (planned_tasks m env items h)
  | traverse _ name each, h => by
    rw [build, Cold.execute_map, Cold.execute_traverse]
    refine Planned.map (Planned.sequence (List.forall_mem_map.mpr ?_)) _
    intro v _
    exact planned_task m (env.bind name v) each h
  | pipe e steps, h => by
    rw [build, Cold.execute_pipe]
    exact (planned_task m env e h.1).pipe (List.forall_mem_map.mpr (planned_buildSteps env steps h.2))
  | send _ _, h => h.elim
  | store _, h => h.elim

theorem planned_tasks (m : Mediator Handler) (env : Env) :
    (items : List EffectScript) → SolitaryAll items →
      ∀ e ∈ (buildAll serve m env items).map Cold.execute, Planned World.host entries .zero e
  | [], _ => fun _ he => absurd he List.not_mem_nil
  | e :: es, h => List.forall_mem_cons.mpr ⟨planned_task m env e h.1, planned_tasks m env es h.2⟩

theorem planned_buildSteps (env : Env) :
    (steps : List (Option String × EffectScript)) → SolitarySteps steps →
      ∀ step ∈ buildSteps serve env steps, ∀ v, Planned World.host entries .zero (step v).execute
  | [], _ => fun _ hstep => absurd hstep List.not_mem_nil
  | (name, body) :: rest, h => by
    refine List.forall_mem_cons.mpr ⟨?_, planned_buildSteps env rest h.2⟩
    intro v
    exact planned_later (fun m m' => build_congr serve m m' (env.bind name v) body h.1)
      (planned_task .empty (env.bind name v) body h.1)

end

/-! ## The journal -/

theorem traced_call (store : FaultyStore) (call : StoreCall (Entry Data)) :
    (store.call call).2.traced = store.traced := by
  unfold FaultyStore.call
  dsimp only
  split <;> rfl

theorem traced_answer {op : Request acts Handler Data} {w w' : World} {x}
    (ha : World.host.answer op w = some (x, w')) : w'.store.traced = w.store.traced := by
  cases op with
  | act op => cases op <;> cases ha <;> rfl
  | store call => cases ha; exact traced_call w.store call
  | mediator => cases ha; rfl
  | nestedTooDeep => cases ha

theorem journal_answer {op : Request acts Handler Data} {w w' : World} {x} (hw : w.store.traced = false)
    (ha : World.host.answer op w = some (x, w')) : w'.journal = (entries ⟨op, x⟩).reverse ++ w.journal := by
  cases op with
  | act op => cases op <;> cases ha <;> rfl
  | store call => cases ha; simp [FaultyStore.traces, hw, entries]
  | mediator => cases ha; rfl
  | nestedTooDeep => cases ha

theorem journal_run {α : Type} (e : Task acts Handler Data α) {w : World} (hw : w.store.traced = false) :
    (e.run World.host w).2.journal = ((e.transcript World.host w).flatMap entries).reverse ++ w.journal := by
  induction e generalizing w with
  | pure a => rfl
  | fail err => rfl
  | pause time next ih => exact ih hw
  | call op next ih =>
    rw [run_call, transcript_call]
    cases ha : World.host.answer op w with
    | none => rfl
    | some answered =>
      obtain ⟨x, w'⟩ := answered
      have hrest := ih x ((traced_answer ha).trans hw)
      simp only [List.flatMap_cons, List.reverse_append, List.append_assoc, ← journal_answer hw ha]
      exact hrest

theorem exists_plan_build {s : EffectScript} (h : s.Solitary) (m : Mediator Handler) (env : Env) :
    ∃ p, Cold.Follows World.host entries .zero (s.build serve m env) ⟨[], p⟩ ∧
      ∀ w : World, w.store.traced = false → ∃ w', (s.task serve m env).run World.host w = (.ofExcept p.ending, w') ∧
        w'.journal = p.segments.flatten.reverse ++ w.journal := by
  obtain ⟨p, hp⟩ := planned_task serve m env s h
  refine ⟨p, Cold.follows_of_idle (idle_build serve m env s) hp, ?_⟩
  intro w hw
  obtain ⟨houtcome, -, hlog⟩ := hp.run w
  refine ⟨_, Prod.ext houtcome rfl, ?_⟩
  show ((s.build serve m env).execute.run World.host w).2.journal = _
  rw [journal_run _ hw, hlog]

end Workflow.Script.EffectScript

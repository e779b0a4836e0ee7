import Workflow.Process.FollowUp
import Workflow.Proofs.Effect.Cooperative

/-!
# Effects woven of follow-up events

What the effect of a process may be made of: acts of the world outside, follow-up events handed to a
service, suspensions and failures, one effect after another or in the place of one that failed, and effects
side by side. Such an effect is as ready as its acts and the service are.
-/

namespace Workflow

variable {Ω : Signature} {H I E W : Type}

/-- An effect made of plain acts and of follow-up events that go to `serve`. -/
inductive Woven (serve : Service Ω H I E) (Plain : Ω.Op → Prop) (Sends : FollowUp I E → Prop) :
    ∀ {α : Type}, Task Ω H E α → Prop
  | pure {α : Type} (a : α) : Woven serve Plain Sends (.pure a)
  | fail {α : Type} (err : Failure) : Woven serve Plain Sends (.fail err : Task Ω H E α)
  | act {op} (h : Plain op) : Woven serve Plain Sends (Task.act op)
  | mediator : Woven serve Plain Sends Task.mediator
  | deliver {f} (h : Sends f) (m : Mediator H) (handler : H) : Woven serve Plain Sends (serve m handler f)
  | pause {α : Type} {e : Task Ω H E α} (time : Duration) (he : Woven serve Plain Sends e) :
      Woven serve Plain Sends (.pause time e)
  | bind {α β : Type} {e : Task Ω H E α} {f : α → Task Ω H E β} (he : Woven serve Plain Sends e)
      (hf : ∀ a, Woven serve Plain Sends (f a)) : Woven serve Plain Sends (e.bind f)
  | recover {α : Type} {e : Task Ω H E α} {handler : Failure → Task Ω H E α} (he : Woven serve Plain Sends e)
      (hh : ∀ err, Woven serve Plain Sends (handler err)) : Woven serve Plain Sends (e.recover handler)
  | joinAll {α : Type} {es : List (Task Ω H E α)} (h : ∀ e ∈ es, Woven serve Plain Sends e) :
      Woven serve Plain Sends (Effect.joinAll es)
  | selectFirst {α : Type} {es : List (Task Ω H E α)} (none : Failure) (h : ∀ e ∈ es, Woven serve Plain Sends e) :
      Woven serve Plain Sends (Effect.selectFirst none es)

namespace Woven

variable {serve : Service Ω H I E} {Plain : Ω.Op → Prop} {Sends : FollowUp I E → Prop} {α β : Type}

theorem map {e : Task Ω H E α} (he : Woven serve Plain Sends e) (f : α → β) :
    Woven serve Plain Sends (e.map f) := by
  rw [Effect.map_eq_bind]
  exact he.bind fun a => .pure (f a)

theorem sequence {es : List (Task Ω H E α)} (h : ∀ e ∈ es, Woven serve Plain Sends e) :
    Woven serve Plain Sends (Effect.sequence es) := by
  induction es with
  | nil => exact .pure []
  | cons e es ih =>
    have hrest := ih fun e' he' => h e' (List.mem_cons_of_mem e he')
    exact (h e List.mem_cons_self).bind fun a => hrest.map (List.cons a)

section
variable [Instance I]

theorem traverse_send {target : I} {events : List E} (h : ∀ e ∈ events, Sends ⟨target, e⟩)
    {f : List (Task Ω H E Unit) → Task Ω H E α}
    (hf : ∀ deliveries, (∀ d ∈ deliveries, Woven serve Plain Sends d) → Woven serve Plain Sends (f deliveries)) :
    Woven serve Plain Sends ((Effect.traverse (fun event => serve.calling.send ⟨target, event⟩) events).bind f) := by
  induction events generalizing f with
  | nil => exact hf [] fun _ hd => absurd hd List.not_mem_nil
  | cons event events ih =>
    have hrest (d : Task Ω H E Unit) (hd : Woven serve Plain Sends d) : Woven serve Plain Sends
        ((Effect.traverse (fun event => serve.calling.send ⟨target, event⟩) events).bind fun ds => f (d :: ds)) :=
      ih (fun e he => h e (List.mem_cons_of_mem event he)) fun ds hds => hf _ (List.forall_mem_cons.mpr ⟨hd, hds⟩)
    show Woven serve Plain Sends ((Effect.map2 _ _ _).bind f)
    simp only [Effect.map2, Effect.map_eq_bind, Effect.bind_assoc, Effect.pure_bind, Calling.send]
    refine .bind .mediator fun m => ?_
    unfold Mediator.route
    cases m.handler? _ with
    | none => exact hrest _ (.pure ())
    | some handler =>
      exact hrest _ (.deliver (h event List.mem_cons_self) m handler)

theorem sendAll {target : I} {events : List E} (h : ∀ e ∈ events, Sends ⟨target, e⟩) :
    Woven serve Plain Sends (Process.sendAll serve target events) :=
  traverse_send h fun _ hdeliveries => (sequence hdeliveries).map _

end

theorem ready {host : Host (requests Ω H E) W} {d : Discipline host} {τ : List (Exchange (requests Ω H E))}
    (hact : ∀ op, Plain op → Effect.Ready d (Task.act op : Task Ω H E _) τ)
    (hmediator : Effect.Ready d (Task.mediator : Task Ω H E _) τ)
    (hserve : ∀ f, Sends f → ∀ m handler, Effect.Ready d (serve m handler f) τ) {e : Task Ω H E α}
    (he : Woven serve Plain Sends e) : Effect.Ready d e τ := by
  induction he with
  | pure a => exact Effect.ready_pure a
  | fail err => exact Effect.ready_fail err
  | act h => exact hact _ h
  | mediator => exact hmediator
  | deliver h m handler => exact hserve _ h m handler
  | pause time _ ih => exact ih.pause time
  | bind _ _ ihe ihf => exact ihe.bind ihf
  | recover _ _ ihe ihh => exact ihe.recover ihh
  | joinAll _ ih => exact Effect.ready_joinAll ih
  | selectFirst none _ ih => exact Effect.ready_selectFirst none ih

end Woven

end Workflow

import Workflow.Proofs.Effect.Trace
import Workflow.Proofs.Host
import Workflow.Proofs.Store.Memory

/-!
# The contract of a stream

What a shared world owes a stream: an append that succeeds found the stream at the expected version and
adds its entries at the end, a load that succeeds reads all the entries there are, and nothing else
changes the stream. Nothing is said of whether a call succeeds. Main statements: the stream is made of the
entries that exchanges added to it, and a store in memory meets the contract.
-/

namespace Workflow

universe u

variable {Ω : Signature} {H E V W : Type}

def Request.IsOn (stream : String) : Request Ω H E → Prop
  | .store call => call.stream = stream
  | _ => False

instance (stream : String) : DecidablePred (Request.IsOn stream : Request Ω H E → Prop)
  | .store call => inferInstanceAs (Decidable (call.stream = stream))
  | .act _ => .isFalse id
  | .mediator => .isFalse id
  | .nestedTooDeep => .isFalse id

abbrev Request.Spares (stream : String) (op : Request Ω H E) : Prop :=
  ¬ op.IsOn stream

theorem Request.IsAct.spares {op : Request Ω H E} (h : op.IsAct) (stream : String) : op.Spares stream := by
  cases op with
  | act op => exact id
  | _ => exact h.elim

/-- The entries that an exchange added to a stream. -/
def Exchange.added (stream : String) : Exchange (requests Ω H E) → List (Entry E)
  | ⟨.store (.append s new _), reply⟩ =>
    match (reply : Except StoreError Nat) with
    | .ok _ => if s = stream then new else []
    | .error _ => []
  | _ => []

theorem Exchange.added_append (stream s : String) (new : List (Entry E)) (expected version : Nat) :
    Exchange.added stream (⟨.store (.append s new expected), .ok version⟩ : Exchange (requests Ω H E)) =
      if s = stream then new else [] := rfl

def recorded (stream : String) (t : List (Exchange (requests Ω H E))) : List (Entry E) :=
  t.flatMap (Exchange.added stream)

@[simp] theorem recorded_nil (stream : String) :
    recorded stream ([] : List (Exchange (requests Ω H E))) = [] := rfl

@[simp] theorem recorded_cons (stream : String) (x : Exchange (requests Ω H E)) (t) :
    recorded stream (x :: t) = x.added stream ++ recorded stream t :=
  List.flatMap_cons

@[simp] theorem recorded_append (stream : String) (t t' : List (Exchange (requests Ω H E))) :
    recorded stream (t ++ t') = recorded stream t ++ recorded stream t' :=
  List.flatMap_append

theorem Exchange.added_of_spares {stream : String} {x : Exchange (requests Ω H E)}
    (h : Request.Spares stream x.op) : x.added stream = [] := by
  obtain ⟨op, reply⟩ := x
  match op, reply, h with
  | .store (.append s new expected), .ok version, h => exact if_neg h
  | .store (.append s new expected), .error e, h => rfl
  | .store (.load s after), _, _ => rfl
  | .store (.contains s), _, _ => rfl
  | .store (.delete s), _, _ => rfl
  | .act _, _, _ => rfl
  | .mediator, _, _ => rfl

theorem recorded_of_spares {stream : String} {t : List (Exchange (requests Ω H E))}
    (h : ∀ x ∈ t, Request.Spares stream x.op) : recorded stream t = [] :=
  List.flatMap_eq_nil_iff.mpr fun x hx => x.added_of_spares (h x hx)

/-- The entries with which an exchange met a conflict at a stream. -/
def Exchange.refused (stream : String) : Exchange (requests Ω H E) → List (Entry E)
  | ⟨.store (.append s new _), reply⟩ =>
    match (reply : Except StoreError Nat) with
    | .ok _ => []
    | .error e => if s = stream ∧ e.isConcurrency then new else []
  | _ => []

def refused (stream : String) (t : List (Exchange (requests Ω H E))) : List (Entry E) :=
  t.flatMap (Exchange.refused stream)

@[simp] theorem refused_append (stream : String) (t t' : List (Exchange (requests Ω H E))) :
    refused stream (t ++ t') = refused stream t ++ refused stream t' :=
  List.flatMap_append

theorem refused_concat (stream : String) (t : List (Exchange (requests Ω H E))) (x : Exchange (requests Ω H E)) :
    refused stream (t ++ [x]) = refused stream t ++ x.refused stream := by
  rw [refused_append]
  exact congrArg _ (List.append_nil _)

theorem Exchange.refused_of_spares {stream : String} {x : Exchange (requests Ω H E)}
    (h : Request.Spares stream x.op) : x.refused stream = [] := by
  obtain ⟨op, reply⟩ := x
  match op, reply, h with
  | .store (.append s new expected), .ok version, _ => rfl
  | .store (.append s new expected), .error e, h => exact if_neg fun hc => h hc.1
  | .store (.load s after), _, _ => rfl
  | .store (.contains s), _, _ => rfl
  | .store (.delete s), _, _ => rfl
  | .act _, _, _ => rfl
  | .mediator, _, _ => rfl

/-- The world keeps the entries of a stream as a store has to. -/
structure Shared.Keeps (world : Shared (requests Ω H E) W) (stream : String)
    (entries : W → List (Entry E)) : Prop where
  append_ok {new expected w version w'} :
    world.answers (.store (.append stream new expected)) w (.ok version) w' →
      (entries w).length = expected ∧ entries w' = entries w ++ new
  append_error {new expected w e w'} :
    world.answers (.store (.append stream new expected)) w (.error e) w' → entries w' = entries w
  load_ok {after w l w'} :
    world.answers (.store (.load stream after)) w (.ok l) w' → l = (entries w).drop (after.getD 0)
  load {after w reply w'} : world.answers (.store (.load stream after)) w reply w' → entries w' = entries w
  contains {w reply w'} : world.answers (.store (.contains stream)) w reply w' → entries w' = entries w
  others {op w x w'} : Request.Spares stream op → world.answers op w x w' → entries w' = entries w
  rests {w w'} : world.rests w w' → entries w' = entries w

theorem Shared.Keeps.added {world : Shared (requests Ω H E) W} {stream : String}
    {entries : W → List (Entry E)} (h : world.Keeps stream entries) {x : Exchange (requests Ω H E)} {w w' : W}
    (hd : x.op ≠ .store (.delete stream)) (ha : world.answers x.op w x.answer w') :
    entries w' = entries w ++ x.added stream := by
  by_cases hon : x.op.IsOn stream
  · obtain ⟨op, reply⟩ := x
    match op, reply, hon, hd, ha with
    | .store (.append s new expected), .ok version, hon, _, ha =>
      obtain rfl : s = stream := hon
      exact (h.append_ok ha).2.trans (congrArg _ (if_pos rfl).symm)
    | .store (.append s new expected), .error e, hon, _, ha =>
      obtain rfl : s = stream := hon
      exact (h.append_error ha).trans (List.append_nil _).symm
    | .store (.load s after), _, hon, _, ha =>
      obtain rfl : s = stream := hon
      exact (h.load ha).trans (List.append_nil _).symm
    | .store (.contains s), _, hon, _, ha =>
      obtain rfl : s = stream := hon
      exact (h.contains ha).trans (List.append_nil _).symm
    | .store (.delete s), _, hon, hd, _ =>
      obtain rfl : s = stream := hon
      exact absurd rfl hd
  · rw [x.added_of_spares hon, List.append_nil]
    exact h.others hon ha

theorem Shared.Keeps.run {host : Host (requests Ω H E) W} {stream : String} {entries : W → List (Entry E)}
    (h : host.shared.Keeps stream entries) {ε : Type} {α : Type u} {e : Effect (requests Ω H E) ε α}
    (he : e.Asks (Request.Spares stream)) (w : W) : entries (e.run host w).2 = entries w := by
  induction e generalizing w with
  | pure a => rfl
  | fail err => rfl
  | pause time next ih => exact (ih he (host.wait time w)).trans (h.rests ⟨time, rfl⟩)
  | call op next ih =>
    rw [Effect.run_call]
    cases ha : host.answer op w with
    | none => rfl
    | some answered => exact (ih answered.1 (he.2 answered.1) answered.2).trans (h.others he.1 ha)

theorem Outside.keeps (o : Outside Ω H V) (stream : String) :
    (o.host (E := E)).shared.Keeps stream fun w => w.2.entries stream where
  append_ok {new expected w version w'} ha := by
    obtain ⟨hreply, rfl⟩ := Prod.mk.inj (Option.some.inj ha)
    by_cases hlen : (w.2.entries stream).length = expected
    · exact ⟨hlen, (MemoryStore.append_of_length hlen new).2⟩
    · have := (MemoryStore.append_fst w.2 stream new expected).symm.trans hreply
      rw [if_neg hlen] at this
      cases this
  append_error {new expected w e w'} ha := by
    obtain ⟨hreply, rfl⟩ := Prod.mk.inj (Option.some.inj ha)
    by_cases hlen : (w.2.entries stream).length = expected
    · have := (MemoryStore.append_of_length hlen new).1.symm.trans hreply
      cases this
    · exact (MemoryStore.entries_append w.2 stream new expected stream).trans (if_neg fun hc => hlen hc.2)
  load_ok {after w l w'} ha := by
    obtain ⟨hreply, -⟩ := Prod.mk.inj (Option.some.inj ha)
    cases hreply
    rfl
  load {after w reply w'} ha := by
    obtain ⟨-, rfl⟩ := Prod.mk.inj (Option.some.inj ha)
    rfl
  contains {w reply w'} ha := by
    obtain ⟨-, rfl⟩ := Prod.mk.inj (Option.some.inj ha)
    rfl
  others {op w x w'} hon ha := by
    match op, x, hon, ha with
    | .act op, x, _, ha => exact congrArg (fun store => store.entries stream) (Outside.store_of_act ha)
    | .mediator, x, _, ha =>
      obtain ⟨-, rfl⟩ := Prod.mk.inj (Option.some.inj ha)
      rfl
    | .store call, x, hon, ha =>
      obtain ⟨-, rfl⟩ := Prod.mk.inj (Option.some.inj ha)
      exact MemoryStore.entries_call_of_ne (Ne.symm hon) w.2
  rests {w w'} hw := by
    obtain ⟨time, rfl⟩ := hw
    rfl

end Workflow

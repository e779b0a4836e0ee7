import Workflow.Proofs.Store.Contract

/-!
# Streams that may be cleared

What a shared world owes a stream that may be deleted: besides the contract of a stream that grows, it says
truly whether the stream holds any entries, and a deletion that succeeds leaves none. Main statement:
`contents_of_run`, by which the stream is what was added to it after the last time it was cleared.
-/

namespace Workflow

universe u v

variable {Ω : Signature} {H E V W : Type}

def Exchange.clears (stream : String) : Exchange (requests Ω H E) → Bool
  | ⟨.store (.delete s), reply⟩ =>
    match (reply : Except StoreError Unit) with
    | .ok _ => s = stream
    | .error _ => false
  | _ => false

theorem Exchange.not_clears_of_spares {stream : String} {x : Exchange (requests Ω H E)}
    (h : Request.Spares stream x.op) : ¬ x.clears stream := by
  obtain ⟨op, reply⟩ := x
  match op, reply, h with
  | .store (.delete s), .ok u, h => exact fun hc => h (of_decide_eq_true hc)
  | .store (.delete s), .error e, _ => exact Bool.false_ne_true
  | .store (.append _ _ _), _, _ => exact Bool.false_ne_true
  | .store (.load _ _), _, _ => exact Bool.false_ne_true
  | .store (.contains _), _, _ => exact Bool.false_ne_true
  | .act _, _, _ => exact Bool.false_ne_true
  | .mediator, _, _ => exact Bool.false_ne_true

def contents (stream : String) (before : List (Entry E)) (t : List (Exchange (requests Ω H E))) : List (Entry E) :=
  t.foldl (fun now x => if x.clears stream then [] else now ++ x.added stream) before

theorem contents_append (stream : String) (before : List (Entry E)) (t t' : List (Exchange (requests Ω H E))) :
    contents stream before (t ++ t') = contents stream (contents stream before t) t' :=
  List.foldl_append ..

theorem contents_of_kept {stream : String} {t : List (Exchange (requests Ω H E))}
    (h : ∀ x ∈ t, ¬ x.clears stream) (before : List (Entry E)) :
    contents stream before t = before ++ recorded stream t := by
  induction t generalizing before with
  | nil => exact (List.append_nil before).symm
  | cons x t ih =>
    have hx : ¬ x.clears stream := h x List.mem_cons_self
    show contents stream (if x.clears stream then [] else before ++ x.added stream) t = _
    rw [if_neg hx, ih (fun y hy => h y (List.mem_cons_of_mem x hy)), recorded_cons, List.append_assoc]

/-- The world keeps the entries of a stream that may be deleted. -/
structure Shared.Serves (world : Shared (requests Ω H E) W) (stream : String)
    (entries : W → List (Entry E)) : Prop extends world.Keeps stream entries where
  contains_ok {present w w'} :
    world.answers (.store (.contains stream)) w (.ok present) w' → present = !(entries w).isEmpty
  delete_ok {u w w'} : world.answers (.store (.delete stream)) w (.ok u) w' → entries w' = []
  delete_error {e w w'} : world.answers (.store (.delete stream)) w (.error e) w' → entries w' = entries w

variable {world : Shared (requests Ω H E) W} {stream : String} {entries : W → List (Entry E)}

theorem Shared.Serves.answered (h : world.Serves stream entries) {x : Exchange (requests Ω H E)} {w w' : W}
    (ha : world.answers x.op w x.answer w') :
    entries w' = if x.clears stream then [] else entries w ++ x.added stream := by
  by_cases hd : x.op = .store (.delete stream)
  · obtain ⟨op, reply⟩ := x
    obtain rfl : op = .store (.delete stream) := hd
    match reply, ha with
    | .ok u, ha => exact (h.delete_ok ha).trans (if_pos (decide_eq_true rfl)).symm
    | .error e, ha => exact (h.delete_error ha).trans (List.append_nil _).symm
  · have hx : ¬ x.clears stream := by
      obtain ⟨op, reply⟩ := x
      match op, reply, hd with
      | .store (.delete s), .ok u, hd =>
        intro hc
        obtain rfl : s = stream := of_decide_eq_true hc
        exact hd rfl
      | .store (.delete s), .error e, _ => exact Bool.false_ne_true
      | .store (.append _ _ _), _, _ => exact Bool.false_ne_true
      | .store (.load _ _), _, _ => exact Bool.false_ne_true
      | .store (.contains _), _, _ => exact Bool.false_ne_true
      | .act _, _, _ => exact Bool.false_ne_true
      | .mediator, _, _ => exact Bool.false_ne_true
    rw [if_neg hx]
    exact h.added hd ha

theorem contents_of_run {ι : Type v} [DecidableEq ι] {ε : Type} {α : Type u} (h : world.Serves stream entries)
    {pool₀ pool : ι → Effect (requests Ω H E) ε α} {w₀ w : W} {τ : List (ι × Exchange (requests Ω H E))}
    (run : Pool.Run world pool₀ w₀ τ pool w) : entries w = contents stream (entries w₀) (τ.map Prod.snd) := by
  induction run with
  | nil => rfl
  | @call τ pool w j op next x w' _ _ ha ih =>
    have hone := h.answered (x := ⟨op, x⟩) ha
    rw [List.map_append, contents_append, ← ih]
    exact hone
  | pause _ _ ih => exact ih
  | rest _ hw ih => exact (h.rests hw).trans ih

theorem grown_of_run {ι : Type v} [DecidableEq ι] {ε : Type} {α : Type u} (h : world.Serves stream entries)
    {pool₀ pool : ι → Effect (requests Ω H E) ε α} {w₀ w : W} {τ : List (ι × Exchange (requests Ω H E))}
    (run : Pool.Run world pool₀ w₀ τ pool w) (hkept : ∀ turn ∈ τ, ¬ turn.2.clears stream) :
    entries w = entries w₀ ++ recorded stream (τ.map Prod.snd) := by
  rw [contents_of_run h run]
  refine contents_of_kept (fun x hx => ?_) _
  obtain ⟨turn, hturn, rfl⟩ := List.mem_map.mp hx
  exact hkept turn hturn

theorem present_since {ι : Type v} [DecidableEq ι] {ε : Type} {α : Type u} (h : world.Serves stream entries)
    {pool₀ pool : ι → Effect (requests Ω H E) ε α} {w₀ w : W} {τ : List (ι × Exchange (requests Ω H E))}
    (run : Pool.Run world pool₀ w₀ τ pool w) (hkept : ∀ turn ∈ τ, ¬ turn.2.clears stream) (hsome : entries w₀ ≠ [])
    (j : ι) : (j, ⟨.store (.contains stream), .ok false⟩) ∉ τ := by
  intro hmem
  obtain ⟨before, after, rfl⟩ := List.append_of_mem hmem
  obtain ⟨pool₁, w₁, next, w₂, first, -, ha, -⟩ := run.cut
  have hmissing : (entries w₁).isEmpty := by
    have hanswer := h.contains_ok ha
    simpa using hanswer.symm
  have hgrown := grown_of_run h first fun turn hturn => hkept turn (List.mem_append_left _ hturn)
  rw [List.isEmpty_iff.mp hmissing] at hgrown
  exact hsome (List.append_eq_nil_iff.mp hgrown.symm).1

/-- Besides, an append meets a conflict only where the stream is at another version. -/
structure Shared.Arbitrates (world : Shared (requests Ω H E) W) (stream : String) (entries : W → List (Entry E)) :
    Prop extends world.Serves stream entries where
  conflict {new expected w e w'} : world.answers (.store (.append stream new expected)) w (.error e) w' →
    e.isConcurrency → (entries w).length ≠ expected

theorem Outside.serves (o : Outside Ω H V) (stream : String) :
    (o.host (E := E)).shared.Serves stream fun w => w.2.entries stream where
  toKeeps := o.keeps stream
  contains_ok {present w w'} ha := by
    obtain ⟨hreply, -⟩ := Prod.mk.inj (Option.some.inj ha)
    cases hreply
    rfl
  delete_ok {u w w'} ha := by
    obtain ⟨-, rfl⟩ := Prod.mk.inj (Option.some.inj ha)
    exact w.2.entries_erase_self stream
  delete_error {e w w'} ha := by
    obtain ⟨hreply, -⟩ := Prod.mk.inj (Option.some.inj ha)
    cases hreply

theorem Outside.arbitrates (o : Outside Ω H V) (stream : String) :
    (o.host (E := E)).shared.Arbitrates stream fun w => w.2.entries stream where
  toServes := o.serves stream
  conflict {new expected w e w'} ha _ hlen := by
    obtain ⟨hreply, -⟩ := Prod.mk.inj (Option.some.inj ha)
    cases (MemoryStore.append_of_length hlen new).1.symm.trans hreply

end Workflow

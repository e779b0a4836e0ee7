import Mathlib.Data.List.Induction
import Workflow.Proofs.History

/-!
# What can be replayed

Whether a list of entries can be replayed is a matter of its shape alone (`replay_ok_iff`), and the flaw of one that
cannot is the first there is (`replay_error_iff`). More entries go on from the node that was reached
(`replay_append`), and entries that were ignored where they stand may as well be missing (`replay_leavingOut`).
-/

namespace Workflow

variable {σ : Signature} {ε I S E R : Type}

/-! ## The shape of a history -/

namespace Entry

def WellFormed (entries : List (Entry E)) : Prop :=
  entries.head? = some .started ∧ .started ∉ entries.tail

instance [DecidableEq E] (entries : List (Entry E)) : Decidable (WellFormed entries) :=
  inferInstanceAs (Decidable (_ ∧ _))

theorem exists_received {entries : List (Entry E)} (h : .started ∉ entries) :
    ∃ events : List E, entries = events.map .received := by
  induction entries with
  | nil => exact ⟨[], rfl⟩
  | cons entry entries ih =>
    obtain ⟨hentry, hentries⟩ := not_or.mp (mt List.mem_cons.mpr h)
    obtain ⟨events, rfl⟩ := ih hentries
    cases entry with
    | started => exact absurd rfl hentry
    | received e => exact ⟨e :: events, rfl⟩

theorem wellFormed_iff {entries : List (Entry E)} :
    WellFormed entries ↔ ∃ events, entries = history (some events) := by
  constructor
  · rintro ⟨hhead, htail⟩
    cases entries with
    | nil => cases hhead
    | cons first rest =>
      obtain rfl : first = .started := Option.some.inj hhead
      obtain ⟨events, hevents⟩ := exists_received htail
      have hrest : rest = events.map .received := hevents
      exact ⟨events, by rw [hrest, history_some]⟩
  · rintro ⟨events, rfl⟩
    refine ⟨rfl, ?_⟩
    simp

/-- What is wrong with a list of entries that is not well-formed. The version of an entry is its place, counted
from 1. -/
inductive Flawed : List (Entry E) → HistoryFlaw → Prop
  | empty : Flawed [] .empty
  | unstarted (e : E) (rest : List (Entry E)) : Flawed (.received e :: rest) (.unstarted "EventReceived")
  | restarted {entries before after : List (Entry E)} (hentries : entries = before ++ .started :: after)
      (hbefore : WellFormed before) : Flawed entries (.restarted (before.length + 1))

end Entry

open Entry

/-! ## Replaying -/

theorem Node.replay_error_iff {version : Nat} {n : Node σ ε S E R} {entries : List (Entry E)} {flaw : HistoryFlaw} :
    n.replay version entries = .error flaw ↔
      ∃ (events : List E) (after : List (Entry E)), entries = events.map .received ++ .started :: after ∧
        flaw = .restarted (version + events.length) := by
  constructor
  · intro h
    induction entries generalizing version n with
    | nil => cases h
    | cons entry entries ih =>
      cases entry with
      | started => cases h; exact ⟨[], entries, rfl, rfl⟩
      | received e =>
        obtain ⟨events, after, rfl, rfl⟩ := ih h
        refine ⟨e :: events, after, rfl, ?_⟩
        rw [List.length_cons, Nat.add_right_comm, Nat.add_assoc]
  · rintro ⟨events, after, rfl, rfl⟩
    induction events generalizing version n with
    | nil => rfl
    | cons e events ih =>
      have hlength : version + (e :: events).length = version + 1 + events.length := by
        rw [List.length_cons, Nat.add_right_comm, Nat.add_assoc]
      rw [hlength]
      exact ih

namespace Process

section
variable [Inhabited S] {p : Process σ ε I S E R} {i : I} {entries : List (Entry E)}

theorem replay_ok_iff : (∃ node, p.replay i entries = .ok node) ↔ WellFormed entries := by
  rw [wellFormed_iff]
  constructor
  · rintro ⟨node, h⟩
    obtain ⟨events, hentries, -⟩ := history_of_replay h
    exact ⟨events, hentries⟩
  · rintro ⟨events, rfl⟩
    exact ⟨_, p.replay_history i events⟩

theorem replay_error_iff {flaw : HistoryFlaw} : p.replay i entries = .error flaw ↔ Flawed entries flaw := by
  constructor
  · intro h
    match entries, h with
    | [], h => cases h; exact .empty
    | .received e :: rest, h => cases h; exact .unstarted e rest
    | .started :: rest, h =>
      obtain ⟨events, after, rfl, rfl⟩ := Node.replay_error_iff.mp h
      have hbefore : WellFormed (history (some events)) := wellFormed_iff.mpr ⟨events, rfl⟩
      have hversion : 2 + events.length = (history (some events)).length + 1 := by simp; omega
      rw [hversion]
      exact .restarted rfl hbefore
  · rintro (_ | ⟨e, rest⟩ | ⟨rfl, hbefore⟩)
    · rfl
    · rfl
    · obtain ⟨events, rfl⟩ := wellFormed_iff.mp hbefore
      have hversion : (history (some events)).length + 1 = 2 + events.length := by simp; omega
      rw [hversion]
      exact Node.replay_error_iff.mpr ⟨events, _, rfl, rfl⟩

theorem replay_append {node : Node σ ε S E R} (h : p.replay i entries = .ok node) (events : List E) :
    p.replay i (entries ++ events.map .received) = .ok (node.advanceAll events) := by
  obtain ⟨old, rfl, rfl⟩ := history_of_replay h
  rw [history_append, replay_history, Node.advanceAll_append]

/-! ## Ignored entries -/

/-- The process ignores the event at this place when the entries before it have been replayed. -/
def IgnoredAt (p : Process σ ε I S E R) (i : I) (entries : List (Entry E)) (k : Nat) : Prop :=
  ∃ e node, entries[k]? = some (.received e) ∧ p.replay i (entries.take k) = .ok node ∧ node.offer e = none

theorem IgnoredAt.of_append {more : List (Entry E)} {k : Nat} (hk : k < entries.length)
    (h : p.IgnoredAt i (entries ++ more) k) : p.IgnoredAt i entries k := by
  obtain ⟨e, node, hentry, hnode, hoffer⟩ := h
  rw [List.getElem?_append_left hk] at hentry
  rw [List.take_append_of_le_length (Nat.le_of_lt hk)] at hnode
  exact ⟨e, node, hentry, hnode, hoffer⟩

end

def leavingOut (dropped : Nat → Bool) (entries : List (Entry E)) : List (Entry E) :=
  (entries.zipIdx.filter fun x => !dropped x.2).map Prod.fst

theorem leavingOut_concat (dropped : Nat → Bool) (entries : List (Entry E)) (entry : Entry E) :
    leavingOut dropped (entries ++ [entry]) =
      leavingOut dropped entries ++ if dropped entries.length then [] else [entry] := by
  cases h : dropped entries.length <;> simp [leavingOut, List.zipIdx_append, h]

section
variable [Inhabited S] {p : Process σ ε I S E R} {i : I} {dropped : Nat → Bool}

theorem replay_leavingOut {events : List E}
    (h : ∀ k < (history (some events)).length, dropped k → p.IgnoredAt i (history (some events)) k) :
    p.replay i (leavingOut dropped (history (some events))) = .ok ((p.initial i).advanceAll events) := by
  induction events using List.reverseRecOn with
  | nil =>
    have hkept : dropped 0 = false := by
      by_contra hdropped
      obtain ⟨e, node, hentry, -⟩ := h 0 Nat.one_pos (eq_true_of_ne_false hdropped)
      cases hentry
    have hleft : leavingOut dropped (history (some [])) = ([.started] : List (Entry E)) := by
      simp [leavingOut, hkept]
    rw [hleft]
    rfl
  | append_singleton events e ih =>
    have happend : history (some (events ++ [e])) = history (some events) ++ [.received e] :=
      (history_append events [e]).symm
    rw [happend] at h ⊢
    have hold := ih fun k hk hdropped =>
      (h k (by rw [List.length_append]; omega) hdropped).of_append hk
    rw [leavingOut_concat]
    by_cases hlast : dropped (history (some events)).length = true
    · obtain ⟨e', node, hentry, hnode, hoffer⟩ := h _ (by simp) hlast
      rw [List.getElem?_concat_length] at hentry
      rw [List.take_left, p.replay_history] at hnode
      cases hentry
      cases hnode
      rw [if_pos hlast, List.append_nil, hold, Node.advanceAll_append, Node.advanceAll_cons,
        Node.advance_of_ignored hoffer, Node.advanceAll_nil]
    · rw [if_neg hlast, Node.advanceAll_append]
      exact replay_append hold [e]

end

/-- Exactly the well-formed histories can be replayed, whatever the process makes of their events, and replaying is a
left fold over these that begins at the node in which the process starts. -/
theorem replay_settles [Inhabited S] (p : Process σ ε I S E R) (i : I) :
    (∀ entries, (∃ node, p.replay i entries = .ok node) ↔ WellFormed entries) ∧
    (∀ entries flaw, p.replay i entries = .error flaw ↔ Flawed entries flaw) ∧
    p.replay i [.started] = .ok (p.run i default).2 ∧
    ∀ entries, WellFormed entries → ∃ node, p.replay i entries = .ok node ∧
      (∀ events : List E, p.replay i (entries ++ events.map .received) = .ok (events.foldl Node.advance node)) ∧
      ∀ dropped, (∀ k < entries.length, dropped k → p.IgnoredAt i entries k) →
        p.replay i (leavingOut dropped entries) = .ok node := by
  refine ⟨fun _ => replay_ok_iff, fun _ _ => replay_error_iff, rfl, ?_⟩
  intro entries hentries
  obtain ⟨events, rfl⟩ := wellFormed_iff.mp hentries
  have hnode := p.replay_history i events
  refine ⟨_, hnode, replay_append hnode, ?_⟩
  intro dropped h
  exact replay_leavingOut h

theorem replay_settles_early :
    let first : Process ⟨Unit, fun _ => Unit⟩ Empty Unit Nat Nat Nat :=
      await fun n => if n % 2 = 0 then some (.success n) else none
    let entries := [.started, .received 1, .received 2, .received 4]
    let dropped := fun k => k == 1 || k == 3
    (WellFormed entries ∧ ∀ k < entries.length, dropped k → first.IgnoredAt () entries k) ∧
      (∃ node, first.replay () entries = .ok node ∧ first.replay () [.started, .received 2] = .ok node) ∧
      first.replay () (entries ++ [.started, .started]) = .error (.restarted 5) := by
  intro first entries dropped
  have hentries : WellFormed entries := by decide
  have hdropped : ∀ k < entries.length, dropped k → first.IgnoredAt () entries k := by
    intro k hk h
    obtain rfl | rfl : k = 1 ∨ k = 3 := by simpa [dropped] using h
    · exact ⟨1, _, rfl, rfl, rfl⟩
    · exact ⟨4, _, rfl, rfl, rfl⟩
  obtain ⟨-, herror, -, hok⟩ := replay_settles first ()
  obtain ⟨node, hnode, -, hleft⟩ := hok entries hentries
  exact ⟨⟨hentries, hdropped⟩, ⟨node, hnode, hleft dropped hdropped⟩, (herror _ _).mpr (.restarted rfl hentries)⟩

end Process

end Workflow

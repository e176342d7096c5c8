import Mathlib.Data.List.Nodup
import TrellisTagger.Decoder.Greedy
import TrellisTagger.Proofs.Trellis.Hops

/-!
# The walk of greedy decoding

Greedy decoding takes one step after another until it meets the goal, a state without successors, or
a state that it has met before. This file says which walks it takes and that it ends in one of these
three ways. Nothing here depends on the weights: comparison may be arbitrary.

## Main definitions

* `TrellisTagger.Greedy.Follows` — the lists of states that the walk takes from the start.

## Main results

* `TrellisTagger.Greedy.Follows.walk` — what is followed is a walk through the trellis.
* `TrellisTagger.Greedy.Follows.length_le` — it meets no more states than there are.
* `TrellisTagger.Greedy.decode_cases` — the three ways in which decoding ends.

## Design

The decoder keeps the states it has met in reverse and counts the steps that remain. Here the states
stand in the order in which they are met, and the count is the number of states of the trellis that
can still be new.
-/

namespace TrellisTagger.Greedy

universe u v

variable {S : Type u} {W : Type v} [DecidableEq S] [LogWeight W] {t : Trellis S W}

/-! ### One step -/

/-- A step is taken along a transition. -/
lemma exists_weight?_of_next? {s s' : S} (h : next? t s = some s') :
    ∃ w, t.weight? s s' = some w := by
  obtain ⟨⟨b, w⟩, hbest, rfl⟩ := Option.map_eq_some_iff.1 h
  exact ⟨w, Table.get?_eq_some_iff.2 (mem_of_firstMax?_eq_some hbest)⟩

/-- Only a state without successors is not left. -/
lemma next?_eq_none_iff {s : S} : next? t s = none ↔ (t.successors s).entries = [] := by
  rw [next?, Option.map_eq_none_iff, firstMax?_eq_none_iff]

/-! ### The states met -/

/-- `Follows t goal start s path` says that greedy steps from `start` come to `s` through the states
of `path`, none of them met twice, and that the goal is not left. -/
inductive Follows (t : Trellis S W) (goal start : S) : S → List S → Prop
  /-- Before the first step. -/
  | start : Follows t goal start start [start]
  /-- One more step, to a new state. -/
  | step {q s : S} {path : List S} (front : Follows t goal start q path) (hq : q ≠ goal)
    (h : next? t q = some s) (hnew : s ∉ path) : Follows t goal start s (path ++ [s])

namespace Follows

variable {goal start s : S} {path : List S}

/-- What is followed is a walk. -/
lemma walk (h : Follows t goal start s path) : t.Walk start s path := by
  induction h with
  | start => exact .stay start
  | step _ _ hnext _ ih =>
    obtain ⟨w, hw⟩ := exists_weight?_of_next? hnext
    exact ih.snoc hw

/-- No state is met twice. -/
lemma nodup (h : Follows t goal start s path) : path.Nodup := by
  induction h with
  | start => exact List.nodup_singleton start
  | step _ _ _ hnew ih => exact List.nodup_append.2 ⟨ih, List.nodup_singleton _, by grind⟩

/-- Every state met is a state of the trellis. -/
lemma mem_states (ht : t.Mirrored) (hstart : t.start = some start)
    (h : Follows t goal start s path) : ∀ x ∈ path, x ∈ t.states := by
  induction h with
  | start =>
    intro x hx
    obtain rfl := List.mem_singleton.1 hx
    exact Trellis.mem_states.2 (.inr (.inr (.inl hstart)))
  | step _ _ hnext _ ih =>
    intro x hx
    rcases List.mem_append.1 hx with hx | hx
    · exact ih x hx
    · obtain rfl := List.mem_singleton.1 hx
      obtain ⟨w, hw⟩ := exists_weight?_of_next? hnext
      exact ht.mem_states_of_weight? hw

/-- **The walk meets no more states than there are.** -/
lemma length_le (ht : t.Mirrored) (hstart : t.start = some start)
    (h : Follows t goal start s path) : path.length ≤ t.stateCount :=
  (h.nodup.subperm fun x hx => h.mem_states ht hstart x hx).length_le

/-- Each state met is left by the greedy step out of it. -/
lemma next?_eq (h : Follows t goal start s path) {k : Nat} {x y : S} (hx : path[k]? = some x)
    (hy : path[k + 1]? = some y) : next? t x = some y := by
  induction h with
  | start => simp at hy
  | @step q s path front _ hnext _ ih =>
    rcases Nat.lt_or_ge (k + 1) path.length with hlt | hge
    · rw [List.getElem?_append_left hlt] at hy
      rw [List.getElem?_append_left (by omega)] at hx
      exact ih hx hy
    · -- the last step is the one that was taken
      have hk : k + 1 = path.length := by
        have := (List.getElem?_eq_some_iff.1 hy).1
        rw [List.length_append, List.length_singleton] at this
        omega
      have hlast := front.walk.getLast?_eq
      rw [List.getLast?_eq_getElem?, ← hk, Nat.add_sub_cancel] at hlast
      rw [List.getElem?_append_left (by omega), hlast] at hx
      rw [hk, List.getElem?_concat_length] at hy
      obtain rfl := Option.some.inj hx
      obtain rfl := Option.some.inj hy
      exact hnext

end Follows

/-! ### How decoding ends -/

/-- From a state that was met on, decoding ends in one of three ways, if it may take as many steps
as there are states left to meet.

**Proof sketch.** Induction on the steps that may be taken. Where a step leads to a new state, the
walk goes on from there; and a step is left for it, because otherwise all states were met before. -/
lemma walk_cases (ht : t.Mirrored) {goal start : S} (hstart : t.start = some start) {bound : Nat}
    {s : S} {path : List S} (h : Follows t goal start s path)
    (hbound : t.stateCount < path.length + bound) :
    (∃ path', Follows t goal start goal path' ∧ walk t goal bound s path.reverse = .ok path') ∨
      ∃ s' path', Follows t goal start s' path' ∧ s' ≠ goal ∧
        ((next? t s' = none ∧ walk t goal bound s path.reverse = .error (.deadEnd s' goal)) ∨
          ∃ again ∈ path', next? t s' = some again ∧
            walk t goal bound s path.reverse = .error (.revisited again)) := by
  induction bound generalizing s path with
  | zero =>
    -- no step is left only where more states were met than there are
    exact absurd (h.length_le ht hstart) (by omega)
  | succ bound ih =>
    rw [walk]
    by_cases hs : s = goal
    · rw [if_pos hs, List.reverse_reverse]
      exact .inl ⟨path, hs ▸ h, rfl⟩
    rw [if_neg hs]
    cases hnext : next? t s with
    | none => exact .inr ⟨s, path, h, hs, .inl ⟨hnext, rfl⟩⟩
    | some s' =>
      by_cases hseen : s' ∈ path
      · refine .inr ⟨s, path, h, hs, .inr ⟨s', hseen, hnext, ?_⟩⟩
        simp only [List.mem_reverse, hseen, if_true]
      · have hlonger : Follows t goal start s' (path ++ [s']) := .step h hs hnext hseen
        have hreverse : s' :: path.reverse = (path ++ [s']).reverse := by simp
        simp only [List.mem_reverse, hseen, if_false, hreverse]
        exact ih hlonger (by rw [List.length_append, List.length_singleton]; omega)

/-- **Greedy decoding ends in one of three ways**: it returns the walk to the goal, it comes to a
state without successors, or it comes back to a state. -/
theorem decode_cases (ht : t.Mirrored) {goal start : S} (hstart : t.start = some start)
    (hgoal : t.goal = some goal) :
    (∃ path, Follows t goal start goal path ∧ decode t = .ok path) ∨
      ∃ s path, Follows t goal start s path ∧ s ≠ goal ∧
        ((next? t s = none ∧ decode t = .error (.deadEnd s goal)) ∨
          ∃ again ∈ path, next? t s = some again ∧ decode t = .error (.revisited again)) := by
  simp only [decode, hstart, hgoal]
  exact walk_cases ht hstart .start (by simp)

/-- A path that is returned is the one that greedy steps follow. -/
lemma follows_of_decode (ht : t.Mirrored) {goal start : S} (hstart : t.start = some start)
    (hgoal : t.goal = some goal) {path : List S} (h : decode t = .ok path) :
    Follows t goal start goal path := by
  rcases decode_cases ht hstart hgoal with
    ⟨found, hfollows, hfound⟩ | ⟨s, front, -, -, ⟨-, herr⟩ | ⟨again, -, -, herr⟩⟩
  · obtain rfl := Except.ok.inj (h.symm.trans hfound)
    exact hfollows
  · rw [herr] at h
    cases h
  · rw [herr] at h
    cases h

end TrellisTagger.Greedy

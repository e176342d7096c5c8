import Mathlib.Tactic.Lemma
import Mathlib.Tactic.ByContra
import TrellisTagger.Trellis.Walk

/-!
# Trellises made by edits

A trellis begins without transitions and is changed by setting transitions and endpoints. This file
says which trellises come about in this way, and that the two tables of such a trellis hold the same
transitions.

## Main definitions

* `TrellisTagger.Trellis.Edit`, `TrellisTagger.Trellis.edit` — one change of a trellis.
* `TrellisTagger.Trellis.Reachable` — the trellises that changes lead to.
* `TrellisTagger.Trellis.Mirrored` — the backward table has the transitions of the forward table.

## Main results

* `TrellisTagger.Trellis.successors_set`, `TrellisTagger.Trellis.predecessors_set` — what setting a
  transition does to the neighbours of a state.
* `TrellisTagger.Trellis.Reachable.mirrored` — every trellis made by edits is mirrored.
-/

namespace TrellisTagger.Trellis

universe u v

variable {S : Type u} {W : Type v}

/-- The ways to change a trellis. -/
inductive Edit (S : Type u) (W : Type v) where
  /-- Set the weight of a transition. -/
  | transition (a b : S) (w : W)
  /-- Choose the start, or leave it open. -/
  | start (s : Option S)
  /-- Choose the goal, or leave it open. -/
  | goal (s : Option S)

variable [DecidableEq S]

/-- Make a change. -/
def edit (t : Trellis S W) : Edit S W → Trellis S W
  | .transition a b w => t.set a b w
  | .start s => t.withStart s
  | .goal s => t.withGoal s

/-- The trellises that come about by changes from one without transitions. -/
inductive Reachable : Trellis S W → Prop
  /-- A trellis without transitions. -/
  | new (start goal : Option S) : Reachable (ofEndpoints start goal)
  /-- A trellis after one more change. -/
  | edit {t : Trellis S W} (h : Reachable t) (e : Edit S W) : Reachable (t.edit e)

/-- The backward table has the transitions of the forward table, with the same weights. -/
def Mirrored (t : Trellis S W) : Prop := ∀ a b, (t.predecessors b).get? a = t.weight? a b

/-! ### Neighbours after an edit -/

/-- Setting a transition writes to the successors of its source and to nothing else. -/
theorem successors_set (t : Trellis S W) (a b s : S) (w : W) :
    (t.set a b w).successors s = if a = s then (t.successors a).insert b w else t.successors s :=
  Table.getD_modifyD t.forward a s ∅ _

/-- Setting a transition writes to the predecessors of its target and to nothing else. -/
theorem predecessors_set (t : Trellis S W) (a b s : S) (w : W) :
    (t.set a b w).predecessors s =
      if b = s then (t.predecessors b).insert a w else t.predecessors s :=
  Table.getD_modifyD t.backward b s ∅ _

/-- Setting a transition changes the weight of this transition only. -/
theorem weight?_set (t : Trellis S W) (a b x y : S) (w : W) :
    (t.set a b w).weight? x y = if a = x ∧ b = y then some w else t.weight? x y := by
  rw [weight?, successors_set]
  by_cases ha : a = x
  · subst ha
    simp only [if_true, true_and, Table.get?_insert]
    rfl
  · simp only [ha, if_false, false_and]
    rfl

/-! ### The two tables -/

/-- A trellis without transitions has them in both tables. -/
lemma mirrored_ofEndpoints (start goal : Option S) :
    (ofEndpoints start goal : Trellis S W).Mirrored := fun _ _ => rfl

/-- Setting a transition writes it to both tables. -/
lemma Mirrored.set {t : Trellis S W} (h : t.Mirrored) (a b : S) (w : W) :
    (t.set a b w).Mirrored := by
  intro x y
  rw [weight?_set, predecessors_set]
  by_cases hb : b = y
  · subst hb
    simp only [if_true, and_true, Table.get?_insert, h x b]
  · simp only [hb, if_false, and_false, h x y]

/-- Every change keeps the tables in step. -/
lemma Mirrored.edit {t : Trellis S W} (h : t.Mirrored) (e : Edit S W) : (t.edit e).Mirrored := by
  cases e with
  | transition a b w => exact h.set a b w
  | start s => exact h
  | goal s => exact h

/-- **The backward table of a trellis made by edits has the transitions of its forward table.** -/
theorem Reachable.mirrored {t : Trellis S W} (h : t.Reachable) : t.Mirrored := by
  induction h with
  | new start goal => exact mirrored_ofEndpoints start goal
  | edit _ e ih => exact ih.edit e

/-- Setting transitions one after another is a sequence of edits. -/
lemma Reachable.setAll {t : Trellis S W} (h : t.Reachable) (edges : List (S × S × W)) :
    (t.setAll edges).Reachable := by
  induction edges generalizing t with
  | nil => exact h
  | cons e edges ih => exact ih (h.edit (.transition e.1 e.2.1 e.2.2))

/-- The successors of a state after several transitions were set: those that leave the state were
written one after another. -/
lemma successors_setAll (t : Trellis S W) (edges : List (S × S × W)) (s : S) :
    (t.setAll edges).successors s =
      (edges.filter fun e => e.1 = s).foldl (fun table e => table.insert e.2.1 e.2.2)
        (t.successors s) := by
  induction edges generalizing t with
  | nil => rfl
  | cons e edges ih =>
    refine (ih (t.set e.1 e.2.1 e.2.2)).trans ?_
    rw [successors_set]
    by_cases he : e.1 = s
    · rw [if_pos he, List.filter_cons_of_pos (by simpa using he), List.foldl_cons, he]
    · rw [if_neg he, List.filter_cons_of_neg (by simpa using he)]

/-- The predecessors of a state after several transitions were set: those that enter the state were
written one after another. -/
lemma predecessors_setAll (t : Trellis S W) (edges : List (S × S × W)) (s : S) :
    (t.setAll edges).predecessors s =
      (edges.filter fun e => e.2.1 = s).foldl (fun table e => table.insert e.1 e.2.2)
        (t.predecessors s) := by
  induction edges generalizing t with
  | nil => rfl
  | cons e edges ih =>
    refine (ih (t.set e.1 e.2.1 e.2.2)).trans ?_
    rw [predecessors_set]
    by_cases he : e.2.1 = s
    · rw [if_pos he, List.filter_cons_of_pos (by simpa using he), List.foldl_cons, he]
    · rw [if_neg he, List.filter_cons_of_neg (by simpa using he)]

/-- A state precedes another in a mirrored trellis just if there is a transition between them. -/
lemma Mirrored.mem_predecessors {t : Trellis S W} (h : t.Mirrored) {a b : S} {w : W} :
    (a, w) ∈ (t.predecessors b).entries ↔ t.weight? a b = some w := by
  rw [← Table.get?_eq_some_iff, h a b]

/-! ### The states of a trellis -/

/-- The states are the sources and targets that have been written, and the endpoints. -/
lemma mem_states {t : Trellis S W} {s : S} :
    s ∈ t.states ↔ s ∈ t.forward.keys ∨ s ∈ t.backward.keys ∨ t.start = some s ∨
      t.goal = some s := by
  simp [states]

/-- The states that transitions leave after several were set. -/
lemma mem_forward_setAll {t : Trellis S W} {edges : List (S × S × W)} {s : S} :
    s ∈ (t.setAll edges).forward.keys ↔ s ∈ t.forward.keys ∨ s ∈ edges.map fun e => e.1 := by
  induction edges generalizing t with
  | nil => simp [setAll]
  | cons e edges ih =>
    refine (ih (t := t.set e.1 e.2.1 e.2.2)).trans ?_
    rw [set, Table.mem_keys_modifyD, List.map_cons, List.mem_cons, or_assoc, or_left_comm]

/-- The states that transitions enter after several were set. -/
lemma mem_backward_setAll {t : Trellis S W} {edges : List (S × S × W)} {s : S} :
    s ∈ (t.setAll edges).backward.keys ↔ s ∈ t.backward.keys ∨ s ∈ edges.map fun e => e.2.1 := by
  induction edges generalizing t with
  | nil => simp [setAll]
  | cons e edges ih =>
    refine (ih (t := t.set e.1 e.2.1 e.2.2)).trans ?_
    rw [set, Table.mem_keys_modifyD, List.map_cons, List.mem_cons, or_assoc, or_left_comm]

/-- Setting transitions leaves the start as it is. -/
@[simp] lemma start_setAll (t : Trellis S W) (edges : List (S × S × W)) :
    (t.setAll edges).start = t.start := by
  induction edges generalizing t with
  | nil => rfl
  | cons e edges ih => exact ih _

/-- Setting transitions leaves the goal as it is. -/
@[simp] lemma goal_setAll (t : Trellis S W) (edges : List (S × S × W)) :
    (t.setAll edges).goal = t.goal := by
  induction edges generalizing t with
  | nil => rfl
  | cons e edges ih => exact ih _

/-- A state with a transition out of it has a row of successors. -/
lemma mem_forward_of_weight? {t : Trellis S W} {a b : S} {w : W} (h : t.weight? a b = some w) :
    a ∈ t.forward.keys := by
  by_contra ha
  rw [weight?, successors, Table.getD_of_not_mem ha] at h
  cases h

/-- The backward table lists every state that a transition enters. -/
lemma Mirrored.mem_states_of_weight? {t : Trellis S W} (ht : t.Mirrored) {a b : S} {w : W}
    (h : t.weight? a b = some w) : b ∈ t.states := by
  have hb : b ∈ t.backward.keys := by
    by_contra hb
    rw [← ht, predecessors, Table.getD_of_not_mem hb] at h
    cases h
  exact mem_states.2 (.inr (.inl hb))

end TrellisTagger.Trellis

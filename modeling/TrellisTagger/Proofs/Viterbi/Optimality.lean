import Mathlib.Algebra.Order.Ring.Int
import TrellisTagger.Proofs.Viterbi.Lattice
import TrellisTagger.Proofs.Weight

/-!
# Viterbi decoding is optimal

Under the laws of ordered weights the cells of a column hold the greatest weights of the walks of as
many hops. So the path that is returned is the heaviest of the shortest walks, and between several
predecessors the first one wins.

## Main definitions

* `TrellisTagger.Viterbi.IsFirstBest` — a state is the first best predecessor of another, among
  those that a number of hops lead to.

## Main results

* `TrellisTagger.Viterbi.isHeaviest_of_get?_column` — the invariant of the columns.
* `TrellisTagger.Viterbi.Traced.isFirstBest` — each step back goes to the first best predecessor.
* `TrellisTagger.Viterbi.decode_heaviest_of_shortest` — the path returned is a shortest walk, none
  of its length weighs more, and each of its states is chosen first among equals.

## Design

The forward table fills the columns and the backward table chooses within them. The choice is stated
over the order of the backward table, and the weights over all walks, so neither depends on the
order in which a column lists its states.
-/

namespace TrellisTagger.Viterbi

open OrderedWeight

universe u v

variable {S : Type u} {W : Type v} [DecidableEq S] [LogWeight W] {t : Trellis S W}

/-- The state `q` is the first in the order of the predecessors of `s`, among those that `k` hops
lead to from `start`, of which the greatest weight over `k` hops with the weight of the transition
to `s` is greatest. -/
def IsFirstBest (t : Trellis S W) (start : S) (k : Nat) (q s : S) : Prop :=
  ∃ greatest : S → W, (∀ p, t.Reaches start k p → t.IsHeaviest start k p (greatest p)) ∧
    t.Reaches start k q ∧
    ∃ before w after, (t.predecessors s).entries = before ++ (q, w) :: after ∧
      (∀ e ∈ before, t.Reaches start k e.1 → greatest e.1 + e.2 < greatest q + w) ∧
      ∀ e ∈ after, t.Reaches start k e.1 → ¬ greatest q + w < greatest e.1 + e.2

namespace IsFirstBest

variable {start q s : S} {k : Nat}

/-- As many hops lead to the first of the best predecessors. -/
lemma reaches (h : IsFirstBest t start k q s) : t.Reaches start k q := by
  obtain ⟨-, -, hreach, -⟩ := h
  exact hreach

/-- There is a transition from the first of the best predecessors. -/
lemma exists_weight? (ht : t.Mirrored) (h : IsFirstBest t start k q s) :
    ∃ w, t.weight? q s = some w := by
  obtain ⟨-, -, -, before, w, after, hentries, -⟩ := h
  exact ⟨w, ht.mem_predecessors.1 (hentries ▸ List.mem_append_right before List.mem_cons_self)⟩

/-- Where as many hops lead to every predecessor, the choice is between all of them. -/
lemma isFirstMax (h : IsFirstBest t start k q s)
    (hall : ∀ e ∈ (t.predecessors s).entries, t.Reaches start k e.1) :
    ∃ greatest : S → W,
      (∀ e ∈ (t.predecessors s).entries, t.IsHeaviest start k e.1 (greatest e.1)) ∧
      ∃ w, IsFirstMax (fun e => greatest e.1 + e.2) (t.predecessors s).entries (q, w) := by
  obtain ⟨greatest, hgreatest, -, before, w, after, hentries, hbefore, hafter⟩ := h
  refine ⟨greatest, fun e he => hgreatest e.1 (hall e he), w, before, after, hentries, ?_, ?_⟩
  · exact fun e he => hbefore e he (hall e (hentries ▸ List.mem_append_left _ he))
  · intro e he
    exact hafter e he (hall e (hentries ▸ List.mem_append_right _ (List.mem_cons_of_mem _ he)))

end IsFirstBest

variable [OrderedWeight W] {goal start : S}

/-- The predecessor through which a state is best entered splits the list of predecessors: entering
through one before it weighs less, and entering through one after it weighs no more. -/
lemma exists_split_of_bestArrival? {col : Column S W} {s : S} {cell : Cell S W}
    (h : bestArrival? t col s = some cell) :
    ∃ before q w after c, (t.predecessors s).entries = before ++ (q, w) :: after ∧
      col.get? q = some c ∧ cell = ⟨c.score + w, some q⟩ ∧
      (∀ e ∈ before, ∀ c', col.get? e.1 = some c' → c'.score + e.2 < cell.score) ∧
      ∀ e ∈ after, ∀ c', col.get? e.1 = some c' → ¬ cell.score < c'.score + e.2 := by
  obtain ⟨less, atMost, hsplit, hless, hmost⟩ := isFirstMax_of_firstMax? h
  obtain ⟨front, back, hentries, hfront, hback⟩ := List.filterMap_eq_append_iff.1 hsplit
  obtain ⟨skipped, ⟨q, w⟩, after, rfl, hskipped, hcell, hafter⟩ :=
    List.filterMap_eq_cons_iff.1 hback
  obtain ⟨c, hc, rfl⟩ := Option.map_eq_some_iff.1 hcell
  refine ⟨front ++ skipped, q, w, after, c, by simp [hentries], hc, rfl, ?_, ?_⟩
  · rintro ⟨p, w'⟩ hmem c' hc'
    rcases List.mem_append.1 hmem with hp | hp
    · refine hless ⟨c'.score + w', some p⟩ ?_
      rw [← hfront]
      exact List.mem_filterMap.2 ⟨(p, w'), hp, by simp [hc']⟩
    · have hnone := hskipped (p, w') hp
      simp [hc'] at hnone
  · rintro ⟨p, w'⟩ hp c' hc'
    refine hmost ⟨c'.score + w', some p⟩ ?_
    rw [← hafter]
    exact List.mem_filterMap.2 ⟨(p, w'), hp, by simp [hc']⟩

/-- No way to enter a state from a column weighs more than its best cell. -/
lemma not_bestArrival?_lt (ht : t.Mirrored) {col : Column S W} {s : S} {cell : Cell S W}
    (h : bestArrival? t col s = some cell) {p : S} {w : W} {c : Cell S W}
    (hw : t.weight? p s = some w) (hc : col.get? p = some c) : ¬ cell.score < c.score + w := by
  obtain ⟨before, q, w', after, c', hentries, hc', rfl, hbefore, hafter⟩ :=
    exists_split_of_bestArrival? h
  have hmem := ht.mem_predecessors.2 hw
  rw [hentries, List.mem_append, List.mem_cons] at hmem
  rcases hmem with hp | hp | hp
  · exact lt_asymm (hbefore _ hp c hc)
  · obtain ⟨rfl, rfl⟩ := Prod.mk.inj hp
    obtain rfl := Option.some.inj (hc.symm.trans hc')
    exact fun hlt => lt_asymm hlt hlt
  · exact hafter _ hp c hc

/-- **The invariant of the columns.** Up to the first column that holds the goal, the score of a
cell is the greatest weight of all walks of as many hops that end in its state.

**Proof sketch.** Induction on the number of hops. The score is attained by a walk to the
predecessor and the transition from there. Any other walk ends with a transition from some state of
the column before; by the induction hypothesis it weighs no more than entering through the cell of
that state, and so no more than entering through the best one. -/
theorem isHeaviest_of_get?_column (ht : t.Mirrored) {k : Nat}
    (hgoal : ∀ j < k, ¬ t.Reaches start j goal) {s : S} {cell : Cell S W}
    (h : (column t goal start k).get? s = some cell) : t.IsHeaviest start k s cell.score := by
  induction k generalizing s cell with
  | zero =>
    rw [get?_column_zero] at h
    split at h
    · rename_i hs
      subst hs
      obtain rfl := Option.some.inj h
      refine ⟨⟨[start], .stay start, rfl, rfl⟩, fun path hpath hlen => ?_⟩
      obtain ⟨a, rfl⟩ := List.length_eq_one_iff.1 hlen
      exact fun hlt => lt_asymm hlt hlt
    · cases h
  | succ k ih =>
    have hgoal' : ∀ j < k, ¬ t.Reaches start j goal := fun j hj => hgoal j (by omega)
    have hbest := bestArrival?_of_get?_advance h
    constructor
    · obtain ⟨q, w, c, hw, hc, rfl⟩ := exists_of_get?_column_succ ht h
      obtain ⟨path, hpath, hlen, hweight⟩ := (ih hgoal' hc).attained
      refine ⟨path ++ [s], hpath.snoc hw, by simp [hlen], ?_⟩
      rw [hpath.pathWeight_snoc hw, hweight]
    · intro path hpath hlen
      rcases hpath.exists_snoc with ⟨-, rfl⟩ | ⟨p, w, front, rfl, hfront, hw⟩
      · simp at hlen
      have hlen' : front.length = k + 1 := by simpa using hlen
      have hp : p ∈ (column t goal start k).keys :=
        (mem_keys_column_of_lt ht (Nat.lt_succ_self k) hgoal).2 ⟨front, hfront, hlen'⟩
      obtain ⟨c, hc⟩ := Table.mem_keys_iff.1 hp
      rw [hfront.pathWeight_snoc hw]
      exact not_lt_trans (not_bestArrival?_lt ht hbest hw hc)
        (add_mono w ((ih hgoal' hc).not_exceeded front hfront hlen'))

/-- The state that a cell points back to is the first best predecessor.

**Proof sketch.** The column before is complete, and its scores are the greatest weights; so the
split of the predecessors at the best arrival is the one that is asked for. -/
lemma isFirstBest_of_get?_column (ht : t.Mirrored) {k : Nat}
    (hgoal : ∀ j < k + 1, ¬ t.Reaches start j goal) {q s : S} {cell : Cell S W}
    (h : (column t goal start (k + 1)).get? s = some cell) (hprev : cell.previous = some q) :
    IsFirstBest t start k q s := by
  have hcolumn : ∀ p, t.Reaches start k p →
      ∃ c, (column t goal start k).get? p = some c := fun p hp =>
    Table.mem_keys_iff.1 ((mem_keys_column_of_lt ht (Nat.lt_succ_self k) hgoal).2 hp)
  have hgoal' : ∀ j < k, ¬ t.Reaches start j goal := fun j hj => hgoal j (by omega)
  obtain ⟨before, q', w, after, c, hentries, hc, rfl, hbefore, hafter⟩ :=
    exists_split_of_bestArrival? (bestArrival?_of_get?_advance h)
  obtain rfl := Option.some.inj hprev
  let greatest : S → W := fun p => (((column t goal start k).get? p).map Cell.score).getD 0
  have hgreatest : ∀ {p c}, (column t goal start k).get? p = some c → greatest p = c.score := by
    intro p c hc
    simp only [greatest, hc, Option.map_some, Option.getD_some]
  have hq : q' ∈ (column t goal start k).keys := Table.mem_keys_of_get? hc
  refine ⟨greatest, ?_, (mem_keys_column_of_lt ht (Nat.lt_succ_self k) hgoal).1 hq, before, w,
    after, hentries, ?_, ?_⟩
  · intro p hp
    obtain ⟨c', hc'⟩ := hcolumn p hp
    rw [hgreatest hc']
    exact isHeaviest_of_get?_column ht hgoal' hc'
  · intro e he hp
    obtain ⟨c', hc'⟩ := hcolumn e.1 hp
    rw [hgreatest hc', hgreatest hc]
    exact hbefore e he c' hc'
  · intro e he hp
    obtain ⟨c', hc'⟩ := hcolumn e.1 hp
    rw [hgreatest hc', hgreatest hc]
    exact hafter e he c' hc'

namespace Traced

omit [OrderedWeight W] in
/-- A path that is traced ends with the state from which it was traced. -/
lemma getElem?_eq {k : Nat} {s : S} {path : List S} (h : Traced t goal start k s path) :
    path[k]? = some s := by
  cases h with
  | start => rfl
  | step front _ _ => rw [← front.length_eq, List.getElem?_concat_length]

/-- **Each step back goes to the first best predecessor.**

**Proof sketch.** Induction on the path. The last step is that of the last cell, and all others
belong to the path before it. -/
theorem isFirstBest (ht : t.Mirrored) {n : Nat} {s : S} {path : List S}
    (h : Traced t goal start n s path) (hgoal : ∀ j < n, ¬ t.Reaches start j goal) {k : Nat}
    {x y : S} (hx : path[k]? = some x) (hy : path[k + 1]? = some y) :
    IsFirstBest t start k x y := by
  induction h with
  | start => simp at hy
  | @step n q s path cell front h hprev ih =>
    have hlen := front.length_eq
    rcases Nat.lt_or_ge (k + 1) path.length with hlt | hge
    · rw [List.getElem?_append_left hlt] at hy
      rw [List.getElem?_append_left (by omega)] at hx
      exact ih (fun j hj => hgoal j (by omega)) hx hy
    · have hk : k = n := by
        have := (List.getElem?_eq_some_iff.1 hy).1
        rw [List.length_append, List.length_singleton] at this
        omega
      subst hk
      rw [List.getElem?_append_left (by omega), front.getElem?_eq] at hx
      rw [← hlen, List.getElem?_concat_length] at hy
      obtain rfl := Option.some.inj hx
      obtain rfl := Option.some.inj hy
      exact isFirstBest_of_get?_column ht hgoal h hprev

/-- A path traced back from the first column with the goal has the greatest weight of its length. -/
lemma isHeaviest (ht : t.Mirrored) {n : Nat} {path : List S} (h : Traced t goal start n goal path)
    (hgoal : ∀ j < n, ¬ t.Reaches start j goal) :
    t.IsHeaviest start n goal (t.pathWeight path) := by
  have hreach : t.Reaches start n goal := ⟨path, h.walk ht, h.length_eq⟩
  obtain ⟨cell, hcell⟩ := Table.mem_keys_iff.1 (goal_mem_column ht hreach hgoal)
  rw [(h.walk_and_weight ht).2 cell hcell]
  exact isHeaviest_of_get?_column ht hgoal hcell

end Traced

/-- Each state of a path that is returned is the first best predecessor of the next one. -/
lemma isFirstBest_of_decode (ht : t.Mirrored) (hstart : t.start = some start)
    (hgoal : t.goal = some goal) {path : List S} (h : decode t = .ok path) {k : Nat} {x y : S}
    (hx : path[k]? = some x) (hy : path[k + 1]? = some y) : IsFirstBest t start k x y := by
  rcases decode_cases ht hstart hgoal with ⟨n, found, hfound, htraced, hfirst⟩ | ⟨herr, -⟩
  · obtain rfl : path = found := Except.ok.inj (h.symm.trans hfound)
    exact htraced.isFirstBest ht hfirst hx hy
  · rw [herr] at h
    cases h

/-- **Viterbi decoding returns the heaviest of the shortest walks.** In every trellis made by edits,
with both endpoints chosen, a path that is returned

* is a walk from the start to the goal, and no walk between them takes fewer hops;
* weighs at least as much as every walk of as many hops, and so as every walk at all where each
  transition leads from one layer to the next;
* comes to each of its states from the first best predecessor.

**Proof sketch.** The path is traced back from the first column that holds the goal
(`decode_cases`). Its weight is the score of the goal there, which is greatest by the invariant of
the columns, and its steps are those of the cells. In a layered trellis all walks between two states
have one length. -/
theorem decode_heaviest_of_shortest (ht : t.Reachable) (hstart : t.start = some start)
    (hgoal : t.goal = some goal) {path : List S} (h : decode t = .ok path) :
    t.Walk start goal path ∧
      (∀ other, t.Walk start goal other → path.length ≤ other.length) ∧
      (∀ other, t.Walk start goal other → other.length = path.length →
        ¬ t.pathWeight path < t.pathWeight other) ∧
      (∀ layer : S → Int, (∀ a b w, t.weight? a b = some w → layer b = layer a + 1) →
        ∀ other, t.Walk start goal other → ¬ t.pathWeight path < t.pathWeight other) ∧
      ∀ k (hk : k + 1 < path.length), IsFirstBest t start k path[k] path[k + 1] := by
  have hm := ht.mirrored
  rcases decode_cases hm hstart hgoal with ⟨n, found, hfound, htraced, hfirst⟩ | ⟨herr, -⟩
  · obtain rfl : path = found := Except.ok.inj (h.symm.trans hfound)
    have hwalk := htraced.walk hm
    have hheaviest := htraced.isHeaviest hm hfirst
    have hlen := htraced.length_eq
    refine ⟨hwalk, ?_, ?_, ?_, ?_⟩
    · intro other hother
      by_contra hlt
      have hpos := hother.length_pos
      exact hfirst (other.length - 1) (by omega) ⟨other, hother, by omega⟩
    · intro other hother hsame
      exact hheaviest.not_exceeded other hother (hsame.trans hlen)
    · intro layer hlayer other hother
      have hsame := hother.length_of_layered hlayer
      have hpath := hwalk.length_of_layered hlayer
      exact hheaviest.not_exceeded other hother (by omega)
    · intro k hk
      exact htraced.isFirstBest hm hfirst (List.getElem?_eq_getElem _) (List.getElem?_eq_getElem hk)
  · rw [herr] at h
    cases h

/-- A trellis with a cycle, in which two shortest walks tie and a longer walk weighs more. -/
def tied : Trellis Nat (WithBot ℤ) :=
  (Trellis.ofEndpoints (some 0) (some 3)).setAll
    [(2, 3, ((-1 : ℤ) : WithBot ℤ)), (1, 3, ((-2 : ℤ) : WithBot ℤ)), (0, 1, ((-1 : ℤ) : WithBot ℤ)),
      (0, 2, ((-2 : ℤ) : WithBot ℤ)), (1, 2, 0), (2, 1, 0)]

/-- Of the two shortest walks of `tied`, the one returned enters the goal from the state from which
it was first entered. -/
theorem decode_tied :
    tied.Reachable ∧ tied.start = some 0 ∧ tied.goal = some 3 ∧ decode tied = .ok [0, 2, 3] ∧
      tied.Walk 0 3 [0, 1, 3] ∧ ¬ tied.pathWeight [0, 2, 3] < tied.pathWeight [0, 1, 3] ∧
      IsFirstBest tied 0 1 2 3 := by
  have hreach : tied.Reachable := (Trellis.Reachable.new _ _).setAll _
  have hdecode : decode tied = .ok [0, 2, 3] := rfl
  have hother : tied.Walk 0 3 [0, 1, 3] := .step rfl (.step rfl (.stay 3))
  obtain ⟨-, -, hheaviest, -, hfirst⟩ := decode_heaviest_of_shortest hreach rfl rfl hdecode
  exact ⟨hreach, rfl, rfl, hdecode, hother, hheaviest _ hother rfl, hfirst 1 (by decide)⟩

end TrellisTagger.Viterbi

import TrellisTagger.Decoder.Viterbi
import TrellisTagger.Proofs.Trellis.Hops

/-!
# The columns of the lattice

Which states the columns of a Viterbi lattice hold, when the construction ends, and which path the
cells spell out. Nothing here depends on the weights: comparison and addition may be arbitrary.

## Main definitions

* `TrellisTagger.Viterbi.column` — the column after a number of hops.
* `TrellisTagger.Viterbi.lattice` — the columns up to a number of hops, as the decoder keeps them.
* `TrellisTagger.Viterbi.EndsAfter` — a run of the construction that adds a number of columns.
* `TrellisTagger.Viterbi.Traced` — the paths that the cells of the columns spell out.

## Main results

* `TrellisTagger.Viterbi.isSome_bestArrival?` — a state in the frontier can be entered.
* `TrellisTagger.Viterbi.exists_endsAfter` — how many columns the construction adds, and why it
  ends.
* `TrellisTagger.Viterbi.mem_keys_column` — up to the first column that holds the goal, a column
  holds the states that its number of hops lead to.
* `TrellisTagger.Viterbi.exists_trace?` — from every state of a column a path is traced back.
* `TrellisTagger.Viterbi.decode_cases` — the decoder returns a traced path, or there is no walk.

## Design

The decoder builds the columns under a bound and stops at the goal. Here the columns are a sequence
of their own, without bound and without end, and the construction is a run along this sequence.
-/

namespace TrellisTagger.Viterbi

universe u v

variable {S : Type u} {W : Type v} [DecidableEq S] [LogWeight W] {t : Trellis S W}

/-! ### One column from the one before -/

omit [LogWeight W] in
/-- The frontier holds the states that a transition out of the column leads to. -/
lemma mem_frontier {col : Column S W} {s : S} :
    s ∈ frontier t col ↔ ∃ q ∈ col.keys, ∃ w, t.weight? q s = some w := by
  simp only [frontier, mem_distinct, List.mem_flatMap, ← Table.isSome_get?_iff,
    Option.isSome_iff_exists]
  rfl

/-- A cell that can be entered adds a transition to a cell of the column. -/
lemma exists_of_bestArrival? {col : Column S W} {s : S} {cell : Cell S W}
    (h : bestArrival? t col s = some cell) :
    ∃ q w c, (q, w) ∈ (t.predecessors s).entries ∧ col.get? q = some c ∧
      cell = ⟨c.score + w, some q⟩ := by
  obtain ⟨⟨q, w⟩, hmem, hcell⟩ := List.mem_filterMap.1 (mem_of_firstMax?_eq_some h)
  obtain ⟨c, hc, rfl⟩ := Option.map_eq_some_iff.1 hcell
  exact ⟨q, w, c, hmem, hc, rfl⟩

/-- **A state in the frontier has a predecessor in the column**, because what leads there forward is
found looking back. -/
lemma isSome_bestArrival? (ht : t.Mirrored) {col : Column S W} {s : S} (h : s ∈ frontier t col) :
    (bestArrival? t col s).isSome := by
  obtain ⟨q, hq, w, hw⟩ := mem_frontier.1 h
  obtain ⟨c, hc⟩ := Table.mem_keys_iff.1 hq
  have harrival : (⟨c.score + w, some q⟩ : Cell S W) ∈ arrivals t col s :=
    List.mem_filterMap.2 ⟨(q, w), ht.mem_predecessors.2 hw, by simp only [hc, Option.map_some]⟩
  rw [Option.isSome_iff_ne_none, bestArrival?, Ne, firstMax?_eq_none_iff]
  exact List.ne_nil_of_mem harrival

/-- The states that the next column scores. -/
def scored (t : Trellis S W) (goal : S) (col : Column S W) : List S :=
  if goal ∈ frontier t col then [goal] else frontier t col

omit [LogWeight W] in
/-- The next column scores the states of the frontier, but only the goal if that is among them. -/
lemma mem_scored {goal : S} {col : Column S W} {s : S} :
    s ∈ scored t goal col ↔ s ∈ frontier t col ∧ (goal ∈ frontier t col → s = goal) := by
  unfold scored
  split
  · rename_i h
    rw [List.mem_singleton]
    exact ⟨fun hs => ⟨hs ▸ h, fun _ => hs⟩, fun hs => hs.2 h⟩
  · rename_i h
    exact ⟨fun hs => ⟨hs, fun hg => absurd hg h⟩, And.left⟩

omit [LogWeight W] in
/-- The next column scores no state twice. -/
lemma nodup_scored (goal : S) (col : Column S W) : (scored t goal col).Nodup := by
  unfold scored
  split
  · exact List.nodup_singleton goal
  · exact nodup_distinct _

/-- The elements that a partial function keeps with their values are those on which it is
defined. -/
private lemma map_fst_filterMap {α β : Type*} (f : α → Option β) (l : List α) :
    (l.filterMap fun a => (f a).map fun b => (a, b)).map Prod.fst =
      l.filter fun a => (f a).isSome := by
  induction l with
  | nil => rfl
  | cons a l ih => cases h : f a <;> simp [h, ih]

/-- The entries of the next column are the states scored, in order, with the cells in which they are
entered. -/
lemma entries_advance (t : Trellis S W) (goal : S) (col : Column S W) :
    (advance t goal col).entries =
      (scored t goal col).filterMap fun s => (bestArrival? t col s).map fun cell => (s, cell) := by
  refine Table.entries_ofList ?_
  rw [map_fst_filterMap]
  exact (nodup_scored goal col).filter _

/-- The cells of the next column are those in which its states are best entered. -/
lemma bestArrival?_of_get?_advance {goal : S} {col : Column S W} {s : S} {cell : Cell S W}
    (h : (advance t goal col).get? s = some cell) : bestArrival? t col s = some cell := by
  rw [Table.get?_eq_some_iff, entries_advance] at h
  obtain ⟨s', -, hs'⟩ := List.mem_filterMap.1 h
  obtain ⟨cell', hcell, heq⟩ := Option.map_eq_some_iff.1 hs'
  obtain ⟨rfl, rfl⟩ := Prod.mk.inj heq
  exact hcell

/-- No state that is scored is lost. -/
lemma keys_advance (ht : t.Mirrored) (goal : S) (col : Column S W) :
    (advance t goal col).keys = scored t goal col := by
  rw [Table.keys, entries_advance, map_fst_filterMap, List.filter_eq_self]
  exact fun s hs => isSome_bestArrival? ht (mem_scored.1 hs).1

/-! ### The sequence of columns -/

/-- The column after a number of hops from the start. -/
def column (t : Trellis S W) (goal start : S) : Nat → Column S W
  | 0 => startColumn start
  | k + 1 => advance t goal (column t goal start k)

/-- The columns after the first up to a number of hops, latest first. -/
def lattice (t : Trellis S W) (goal start : S) : Nat → List (Column S W)
  | 0 => []
  | k + 1 => column t goal start (k + 1) :: lattice t goal start k

variable {goal start : S}

/-- The first column holds the start alone, with nothing before it. -/
lemma get?_column_zero {s : S} :
    (column t goal start 0).get? s = if start = s then some ⟨0, none⟩ else none :=
  Table.get?_insert ∅ start s _

/-- The start is the only state of the first column. -/
lemma mem_keys_column_zero {s : S} : s ∈ (column t goal start 0).keys ↔ s = start := by
  rw [← Table.isSome_get?_iff, get?_column_zero]
  by_cases h : start = s
  · simp [h]
  · simp [h, Ne.symm h]

/-- A cell after the first column adds a transition to a cell of the column before, and points back
to it. -/
lemma exists_of_get?_column_succ (ht : t.Mirrored) {k : Nat} {s : S} {cell : Cell S W}
    (h : (column t goal start (k + 1)).get? s = some cell) :
    ∃ q w c, t.weight? q s = some w ∧ (column t goal start k).get? q = some c ∧
      cell = ⟨c.score + w, some q⟩ := by
  obtain ⟨q, w, c, hmem, hc, hcell⟩ := exists_of_bestArrival? (bestArrival?_of_get?_advance h)
  exact ⟨q, w, c, ht.mem_predecessors.1 hmem, hc, hcell⟩

/-- **A column holds the states that its number of hops lead to**, as long as no earlier column
holds the goal; of a column that the goal can be reached in, only the goal.

**Proof sketch.** Induction on the number of hops. The goal is not in the column before, so that
column is complete, and its frontier are the states one hop further. -/
theorem mem_keys_column (ht : t.Mirrored) {k : Nat} (hgoal : ∀ j < k, ¬ t.Reaches start j goal)
    {s : S} :
    s ∈ (column t goal start k).keys ↔
      t.Reaches start k s ∧ (t.Reaches start k goal → s = goal) := by
  induction k generalizing s with
  | zero =>
    rw [mem_keys_column_zero, Trellis.reaches_zero, Trellis.reaches_zero]
    exact ⟨fun h => ⟨h, fun hg => h.trans hg.symm⟩, And.left⟩
  | succ k ih =>
    have hfrontier : ∀ s, s ∈ frontier t (column t goal start k) ↔ t.Reaches start (k + 1) s := by
      intro s
      rw [mem_frontier, Trellis.reaches_succ]
      constructor
      · rintro ⟨q, hq, w, hw⟩
        exact ⟨q, w, ((ih fun j hj => hgoal j (by omega)).1 hq).1, hw⟩
      · rintro ⟨q, w, hq, hw⟩
        refine ⟨q, (ih fun j hj => hgoal j (by omega)).2 ⟨hq, fun hg => ?_⟩, w, hw⟩
        exact absurd hg (hgoal k (by omega))
    rw [column, keys_advance ht, mem_scored, hfrontier, hfrontier]

/-- The first column that the goal can be reached in holds it. -/
lemma goal_mem_column (ht : t.Mirrored) {n : Nat} (hreach : t.Reaches start n goal)
    (hgoal : ∀ j < n, ¬ t.Reaches start j goal) : goal ∈ (column t goal start n).keys :=
  (mem_keys_column ht hgoal).2 ⟨hreach, fun _ => rfl⟩

/-- A column before the goal is reached holds all the states that its number of hops lead to. -/
lemma mem_keys_column_of_lt (ht : t.Mirrored) {n k : Nat} (hk : k < n)
    (hgoal : ∀ j < n, ¬ t.Reaches start j goal) {s : S} :
    s ∈ (column t goal start k).keys ↔ t.Reaches start k s := by
  rw [mem_keys_column ht fun j hj => hgoal j (by omega)]
  exact ⟨And.left, fun h => ⟨h, fun hg => absurd hg (hgoal k hk)⟩⟩

/-- The columns that do not hold the goal are those whose number of hops does not lead there. -/
lemma not_reaches_of_not_mem_column (ht : t.Mirrored) {n : Nat}
    (h : ∀ j < n, goal ∉ (column t goal start j).keys) :
    ∀ j < n, ¬ t.Reaches start j goal := by
  intro j
  induction j using Nat.strongRecOn with
  | ind j ih =>
    intro hj hreach
    exact h j hj (goal_mem_column ht hreach fun i hi => ih i hi (by omega))

/-! ### The run of the construction -/

/-- The construction under a bound begins with the column after `k` hops and adds just `n` more. -/
structure EndsAfter (t : Trellis S W) (goal start : S) (bound k n : Nat) : Prop where
  /-- It keeps to the bound. -/
  le_bound : n ≤ bound
  /-- It goes on as long as the goal is not met and something lies beyond. -/
  goes_on : ∀ j < n, goal ∉ (column t goal start (k + j)).keys ∧
    frontier t (column t goal start (k + j)) ≠ []
  /-- It ends at the goal, where nothing lies beyond, or with the bound. -/
  ends : goal ∈ (column t goal start (k + n)).keys ∨
    frontier t (column t goal start (k + n)) = [] ∨ n = bound
  /-- It succeeds just if the last column holds the goal, with all the columns. -/
  result : columns? t goal bound (column t goal start k) (lattice t goal start k) =
    if goal ∈ (column t goal start (k + n)).keys then some (lattice t goal start (k + n)) else none

/-- **The construction ends after some number of columns.**

**Proof sketch.** Induction on the bound, for every column to begin with. Where the construction
goes on, it continues from the next column under a bound less by one. -/
theorem exists_endsAfter (t : Trellis S W) (goal start : S) (bound k : Nat) :
    ∃ n, EndsAfter t goal start bound k n := by
  induction bound generalizing k with
  | zero =>
    refine ⟨0, Nat.le_refl 0, by simp, .inr (.inr rfl), ?_⟩
    rw [columns?]
    rfl
  | succ bound ih =>
    by_cases hmem : goal ∈ (column t goal start k).keys
    · refine ⟨0, by omega, by simp, .inl hmem, ?_⟩
      rw [columns?, if_pos hmem, Nat.add_zero, if_pos hmem]
    by_cases hempty : frontier t (column t goal start k) = []
    · refine ⟨0, by omega, by simp, .inr (.inl hempty), ?_⟩
      simp [columns?, hmem, hempty]
    · obtain ⟨n, hn⟩ := ih (k + 1)
      have hshift : k + 1 + n = k + (n + 1) := by omega
      refine ⟨n + 1, Nat.succ_le_succ hn.le_bound, ?_, ?_, ?_⟩
      · intro j hj
        cases j with
        | zero => exact ⟨hmem, hempty⟩
        | succ j =>
          rw [show k + (j + 1) = k + 1 + j by omega]
          exact hn.goes_on j (by omega)
      · rw [← hshift]
        rcases hn.ends with h | h | h
        · exact .inl h
        · exact .inr (.inl h)
        · exact .inr (.inr (by omega))
      · rw [← hshift, ← hn.result, columns?, if_neg hmem]
        simp only [List.isEmpty_iff, hempty, if_false]
        rfl

/-- No column before the last one of a construction from the start is reached by the goal. -/
lemma EndsAfter.not_reaches (ht : t.Mirrored) {bound n : Nat}
    (h : EndsAfter t goal start bound 0 n) : ∀ j < n, ¬ t.Reaches start j goal := by
  refine not_reaches_of_not_mem_column ht fun j hj => ?_
  have := (h.goes_on j hj).1
  rwa [Nat.zero_add] at this

/-- Where the goal is first reached after `n` hops and the bound allows as many columns, the
construction adds just these.

**Proof sketch.** It does not go on beyond the column of the goal. Before that column the way to the
goal leads on, and neither the goal nor the bound is reached. -/
lemma columns?_eq_some (ht : t.Mirrored) {n bound : Nat} (hn : n ≤ bound)
    (hreach : t.Reaches start n goal) (hgoal : ∀ j < n, ¬ t.Reaches start j goal) :
    columns? t goal bound (startColumn start) [] = some (lattice t goal start n) := by
  obtain ⟨m, hm⟩ := exists_endsAfter t goal start bound 0
  have hmn : m ≤ n := Nat.le_of_not_lt fun hlt => hm.not_reaches ht n hlt hreach
  have hnm : m = n := by
    by_contra hne
    have hlt : m < n := by omega
    have hends := hm.ends
    rw [Nat.zero_add] at hends
    rcases hends with h | h | h
    · exact hgoal m hlt ((mem_keys_column_of_lt ht hlt hgoal).1 h)
    · obtain ⟨s, hs⟩ := hreach.exists_le (show m + 1 ≤ n by omega)
      obtain ⟨q, w, hq, hw⟩ := Trellis.reaches_succ.1 hs
      have hmem := mem_frontier.2 ⟨q, (mem_keys_column_of_lt ht hlt hgoal).2 hq, w, hw⟩
      rw [h] at hmem
      cases hmem
    · omega
  subst hnm
  have hmem : goal ∈ (column t goal start (0 + m)).keys := by
    rw [Nat.zero_add]
    exact goal_mem_column ht hreach hgoal
  refine hm.result.trans ?_
  rw [if_pos hmem, Nat.zero_add]

/-- Where the construction succeeds, its columns lead to the goal by a least number of hops. -/
lemma exists_of_columns?_eq_some (ht : t.Mirrored) {bound : Nat} {cols : List (Column S W)}
    (h : columns? t goal bound (startColumn start) [] = some cols) :
    ∃ n ≤ bound, cols = lattice t goal start n ∧ t.Reaches start n goal ∧
      ∀ j < n, ¬ t.Reaches start j goal := by
  obtain ⟨n, hn⟩ := exists_endsAfter t goal start bound 0
  have hfirst := hn.not_reaches ht
  have hresult := hn.result.symm.trans h
  rw [Nat.zero_add] at hresult
  split at hresult
  · rename_i hmem
    refine ⟨n, hn.le_bound, (Option.some.inj hresult).symm, ?_, hfirst⟩
    exact ((mem_keys_column ht hfirst).1 hmem).1
  · cases hresult

/-- Where the goal cannot be reached, the construction fails under every bound. -/
lemma columns?_eq_none (ht : t.Mirrored) (h : ∀ path, ¬ t.Walk start goal path) (bound : Nat) :
    columns? t goal bound (startColumn start) [] = none := by
  rw [Option.eq_none_iff_forall_not_mem]
  intro cols hcols
  obtain ⟨n, -, -, ⟨path, hpath, -⟩, -⟩ := exists_of_columns?_eq_some ht hcols
  exact h path hpath

/-! ### The path that is traced back -/

/-- `Traced t goal start k s path` says that `path` follows the cells of the columns from `start` to
`s` in the column after `k` hops. -/
inductive Traced (t : Trellis S W) (goal start : S) : Nat → S → List S → Prop
  /-- The path of no hops. -/
  | start : Traced t goal start 0 start [start]
  /-- A path, and a cell that points back to its end. -/
  | step {k : Nat} {q s : S} {path : List S} {cell : Cell S W}
    (front : Traced t goal start k q path)
    (h : (column t goal start (k + 1)).get? s = some cell) (hprev : cell.previous = some q) :
    Traced t goal start (k + 1) s (path ++ [s])

/-- **No backpointer that is followed is missing**: from each state of a column a path is traced.

**Proof sketch.** Induction on the number of hops. The cell of the state points back to a state of
the column before, from which a path is traced by the induction hypothesis. -/
theorem exists_trace? (ht : t.Mirrored) {k : Nat} {s : S}
    (h : s ∈ (column t goal start k).keys) (rest : List S) :
    ∃ path, trace? (lattice t goal start k) s rest = some (path ++ rest) ∧
      Traced t goal start k s path := by
  induction k generalizing s rest with
  | zero =>
    rw [mem_keys_column_zero] at h
    subst h
    exact ⟨[s], rfl, .start⟩
  | succ k ih =>
    obtain ⟨cell, hcell⟩ := Table.mem_keys_iff.1 h
    obtain ⟨q, w, c, -, hc, rfl⟩ := exists_of_get?_column_succ ht hcell
    obtain ⟨path, hpath, htraced⟩ := ih (Table.mem_keys_of_get? hc) (s :: rest)
    refine ⟨path ++ [s], ?_, .step htraced hcell rfl⟩
    rw [lattice, trace?, hcell, Option.bind_some]
    simp only [hpath, List.append_assoc, List.singleton_append]

namespace Traced

variable {k : Nat} {s : S} {path : List S}

/-- A path traced from a column has as many states as there are columns up to it. -/
lemma length_eq (h : Traced t goal start k s path) : path.length = k + 1 := by
  induction h with
  | start => rfl
  | step _ _ _ ih => rw [List.length_append, ih, List.length_singleton]

/-- A path that is traced is a walk, and its weight is the score of its last cell. -/
lemma walk_and_weight (ht : t.Mirrored) (h : Traced t goal start k s path) :
    t.Walk start s path ∧
      ∀ cell, (column t goal start k).get? s = some cell → t.pathWeight path = cell.score := by
  induction h with
  | start =>
    refine ⟨.stay start, fun cell hcell => ?_⟩
    rw [get?_column_zero, if_pos rfl] at hcell
    obtain rfl := Option.some.inj hcell
    rfl
  | @step k q s path cell front h hprev ih =>
    obtain ⟨q', w, c, hw, hc, rfl⟩ := exists_of_get?_column_succ ht h
    obtain rfl := Option.some.inj hprev
    refine ⟨ih.1.snoc hw, fun cell' hcell' => ?_⟩
    obtain rfl := Option.some.inj (h.symm.trans hcell')
    rw [ih.1.pathWeight_snoc hw, ih.2 c hc]

/-- A path that is traced is a walk. -/
lemma walk (ht : t.Mirrored) (h : Traced t goal start k s path) : t.Walk start s path :=
  (h.walk_and_weight ht).1

end Traced

/-! ### The outcome -/

/-- **The decoder returns a path just if the goal can be reached.** The path is traced back from the
first column that holds the goal.

**Proof sketch.** A shortest walk has fewer hops than there are states, so the bound on the columns
never cuts it off; from the column of the goal a path is traced. -/
theorem decode_cases (ht : t.Mirrored) (hstart : t.start = some start)
    (hgoal : t.goal = some goal) :
    (∃ n path, decode t = .ok path ∧ Traced t goal start n goal path ∧
        ∀ j < n, ¬ t.Reaches start j goal) ∨
      (decode t = .error (.unreachable start goal) ∧ ∀ path, ¬ t.Walk start goal path) := by
  by_cases hwalk : ∃ path, t.Walk start goal path
  · left
    obtain ⟨path, hpath⟩ := hwalk
    obtain ⟨n, hn, hreach, hfirst⟩ := Trellis.exists_first_reaches hpath hgoal
    obtain ⟨traced, htrace, htraced⟩ := exists_trace? ht (goal_mem_column ht hreach hfirst) []
    refine ⟨n, traced, ?_, htraced, hfirst⟩
    simp only [decode, hstart, hgoal, columns?_eq_some ht (Nat.le_of_lt hn) hreach hfirst,
      Option.bind_some, htrace, List.append_nil]
  · right
    have hnone : ∀ path, ¬ t.Walk start goal path := fun path hpath => hwalk ⟨path, hpath⟩
    refine ⟨?_, hnone⟩
    simp only [decode, hstart, hgoal, columns?_eq_none ht hnone, Option.bind_none]

end TrellisTagger.Viterbi

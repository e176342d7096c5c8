import TrellisTagger.Decoder
import TrellisTagger.Proofs.Renaming.Table

/-!
# Decoding under renaming

Decoders compare states and weights, and otherwise follow the order in which transitions were set.
So a decoder takes the same way through a trellis whose states have other names, and where it fails
it fails in the same way.

## Main definitions

* `TrellisTagger.Trellis.map` — a trellis whose states are renamed.
* `TrellisTagger.DecodeFailure.map` — a failure whose states are renamed.

## Main results

* `TrellisTagger.Trellis.setAll_map` — setting transitions between renamed states.
* `TrellisTagger.Greedy.decode_map`, `TrellisTagger.Viterbi.decode_map` — each of the decoders.
* `TrellisTagger.Decoder.decode_map` — whichever decoder is used.
-/

namespace TrellisTagger

universe u v w

variable {S : Type u} {S' : Type v} {W : Type w}

/-- A failure to decode with other states in it. -/
def DecodeFailure.map (f : S → S') : DecodeFailure S → DecodeFailure S'
  | .openEndpoint => .openEndpoint
  | .deadEnd state goal => .deadEnd (f state) (f goal)
  | .revisited state => .revisited (f state)
  | .unreachable start goal => .unreachable (f start) (f goal)

/-! ### Trellises -/

namespace Trellis

/-- A trellis under new names for its states. -/
def map (f : S ↪ S') (t : Trellis S W) : Trellis S' W where
  start := t.start.map f
  goal := t.goal.map f
  forward := t.forward.map f (Table.map f id)
  backward := t.backward.map f (Table.map f id)

variable [DecidableEq S] [DecidableEq S'] (f : S ↪ S') (t : Trellis S W)

omit [DecidableEq S] [DecidableEq S'] in
/-- The start of a renamed trellis is the renamed start. -/
@[simp] lemma start_map : (t.map f).start = t.start.map f := rfl

omit [DecidableEq S] [DecidableEq S'] in
/-- The goal of a renamed trellis is the renamed goal. -/
@[simp] lemma goal_map : (t.map f).goal = t.goal.map f := rfl

/-- The successors of a renamed state are the renamed successors, with the same weights. -/
lemma successors_map (s : S) : (t.map f).successors (f s) = (t.successors s).map f id :=
  Table.getD_map (g := Table.map f id) (d := ∅) rfl t.forward s

/-- The predecessors of a renamed state are the renamed predecessors, with the same weights. -/
lemma predecessors_map (s : S) : (t.map f).predecessors (f s) = (t.predecessors s).map f id :=
  Table.getD_map (g := Table.map f id) (d := ∅) rfl t.backward s

/-- A transition may be set before or after renaming. -/
lemma set_map (a b : S) (w : W) : (t.map f).set (f a) (f b) w = (t.set a b w).map f := by
  have hrow : ∀ s (row : Table S W), (row.insert s w).map f id = (row.map f id).insert (f s) w :=
    fun s row => (Table.insert_map f id row s w).symm
  have hforward : (t.map f).forward.modifyD (f a) ∅ (·.insert (f b) w) =
      (t.forward.modifyD a ∅ (·.insert b w)).map f (Table.map f id) :=
    Table.modifyD_map (g := Table.map f id) (d := ∅) rfl (hrow b) t.forward a
  have hbackward : (t.map f).backward.modifyD (f b) ∅ (·.insert (f a) w) =
      (t.backward.modifyD b ∅ (·.insert a w)).map f (Table.map f id) :=
    Table.modifyD_map (g := Table.map f id) (d := ∅) rfl (hrow a) t.backward b
  simp only [set, hforward, hbackward]
  rfl

/-- **Transitions may be set before or after renaming.** -/
lemma setAll_map (edges : List (S × S × W)) :
    (t.map f).setAll (edges.map (Prod.map f (Prod.map f id))) = (t.setAll edges).map f := by
  induction edges generalizing t with
  | nil => rfl
  | cons e edges ih =>
    rw [List.map_cons, setAll, List.foldl_cons, ← setAll]
    exact (congrArg (setAll · _) (set_map f t e.1 e.2.1 e.2.2)).trans (ih (t.set e.1 e.2.1 e.2.2))

/-- The states of a renamed trellis are the renamed states. -/
lemma states_map : (t.map f).states = t.states.map f := by
  rw [states, states, ← distinct_map]
  congr 1
  simp only [map, Table.keys_map, List.map_append]
  cases t.start <;> cases t.goal <;> rfl

/-- Renaming leaves the number of states as it is. -/
lemma stateCount_map : (t.map f).stateCount = t.stateCount := by
  rw [stateCount, states_map, List.length_map, stateCount]

end Trellis

variable [DecidableEq S] [DecidableEq S'] [LogWeight W] (f : S ↪ S') (t : Trellis S W)

/-! ### Greedy decoding -/

namespace Greedy

/-- The next state of a greedy walk is renamed with the trellis. -/
lemma next?_map (s : S) : next? (t.map f) (f s) = (next? t s).map f := by
  have hchoice : firstMax? Prod.snd ((t.successors s).entries.map (Prod.map f id)) =
      (firstMax? Prod.snd (t.successors s).entries).map (Prod.map f id) :=
    firstMax?_map (fun _ => rfl) _
  rw [next?, Trellis.successors_map, Table.entries_map, hchoice, next?, Option.map_map,
    Option.map_map]
  rfl

/-- The walk through the renamed trellis, step by step. -/
lemma walk_map (goal : S) (bound : Nat) (s : S) (seen : List S) :
    walk (t.map f) (f goal) bound (f s) (seen.map f) =
      ((walk t goal bound s seen).map (List.map f)).mapError (DecodeFailure.map f) := by
  have hseen : ∀ s' (seen : List S), f s' ∈ seen.map f ↔ s' ∈ seen :=
    fun s' seen => List.mem_map_of_injective f.injective
  induction bound generalizing s seen with
  | zero =>
    unfold walk
    simp only [f.injective.eq_iff, next?_map, ← List.map_reverse]
    split
    · rfl
    cases next? t s with
    | none => rfl
    | some s' =>
      simp only [Option.map_some, hseen]
      split <;> rfl
  | succ bound ih =>
    unfold walk
    simp only [f.injective.eq_iff, next?_map, ← List.map_reverse]
    split
    · rfl
    cases next? t s with
    | none => rfl
    | some s' =>
      simp only [Option.map_some, hseen]
      split
      · rfl
      · exact ih s' (s' :: seen)

/-- **Greedy decoding does not depend on the names of states.** -/
theorem decode_map :
    decode (t.map f) = ((decode t).map (List.map f)).mapError (DecodeFailure.map f) := by
  unfold decode
  rw [Trellis.stateCount_map, Trellis.start_map, Trellis.goal_map]
  cases t.start with
  | none => rfl
  | some start =>
    cases t.goal with
    | none => rfl
    | some goal => exact walk_map f t goal t.stateCount start [start]

end Greedy

/-! ### Viterbi decoding -/

namespace Viterbi

/-- A cell under new names. -/
def Cell.map (f : S → S') (cell : Cell S W) : Cell S' W := ⟨cell.score, cell.previous.map f⟩

/-- A column under new names. -/
def Column.rename (f : S ↪ S') (column : Column S W) : Column S' W :=
  Table.map f (Cell.map f) column

variable (column : Column S W)

omit [LogWeight W] in
/-- The states that follow a column are renamed with it. -/
lemma frontier_map : frontier (t.map f) (Column.rename f column) = (frontier t column).map f := by
  rw [frontier, frontier, ← distinct_map]
  congr 1
  rw [Column.rename, Table.keys_map, List.flatMap_map, List.map_flatMap]
  exact List.flatMap_congr fun s _ => by rw [Trellis.successors_map, Table.keys_map]

/-- The ways of arriving at a state are renamed with it, in the same order. -/
lemma arrivals_map (s : S) :
    arrivals (t.map f) (Column.rename f column) (f s) = (arrivals t column s).map (Cell.map f) := by
  rw [arrivals, arrivals, Trellis.predecessors_map, Table.entries_map, List.filterMap_map,
    List.map_filterMap]
  refine List.filterMap_congr fun e _ => ?_
  have hget : (Column.rename f column).get? (f e.1) = (column.get? e.1).map (Cell.map f) :=
    Table.get?_map f (Cell.map f) column e.1
  simp only [Function.comp_apply, Prod.map, hget, Option.map_map]
  rfl

/-- The best way of arriving at a state is renamed with it. -/
lemma bestArrival?_map (s : S) :
    bestArrival? (t.map f) (Column.rename f column) (f s) =
      (bestArrival? t column s).map (Cell.map f) := by
  rw [bestArrival?, arrivals_map]
  exact firstMax?_map (fun _ => rfl) _

/-- The column after a column is renamed with it. -/
lemma advance_map (goal : S) :
    advance (t.map f) (f goal) (Column.rename f column) =
      Column.rename f (advance t goal column) := by
  have hgoal : f goal ∈ (frontier t column).map f ↔ goal ∈ frontier t column :=
    List.mem_map_of_injective f.injective
  have hscored :
      (if f goal ∈ (frontier t column).map f then [f goal] else (frontier t column).map f) =
      (if goal ∈ frontier t column then [goal] else frontier t column).map f := by
    simp only [hgoal]
    split <;> rfl
  unfold advance
  dsimp only
  rw [frontier_map, hscored, List.filterMap_map]
  refine Eq.trans ?_ (Table.ofList_map f (Cell.map f) _)
  rw [List.map_filterMap]
  congr 1
  refine List.filterMap_congr fun s _ => ?_
  simp only [Function.comp_apply, bestArrival?_map, Option.map_map]
  rfl

/-- The columns of the renamed trellis, one after another. -/
lemma columns?_map (goal : S) (bound : Nat) (built : List (Column S W)) :
    columns? (t.map f) (f goal) bound (Column.rename f column) (built.map (Column.rename f)) =
      (columns? t goal bound column built).map (List.map (Column.rename f)) := by
  have hgoal : ∀ column : Column S W, f goal ∈ (Column.rename f column).keys ↔
      goal ∈ column.keys := by
    intro column
    rw [Column.rename, Table.keys_map]
    exact List.mem_map_of_injective f.injective
  induction bound generalizing column built with
  | zero =>
    unfold columns?
    simp only [hgoal]
    split <;> rfl
  | succ bound ih =>
    unfold columns?
    simp only [hgoal, frontier_map, List.isEmpty_map]
    split
    · rfl
    split
    · rfl
    · rw [advance_map]
      exact ih (advance t goal column) (advance t goal column :: built)

omit [LogWeight W] in
/-- The way back through renamed columns. -/
lemma trace?_map (columns : List (Column S W)) (s : S) (path : List S) :
    trace? (columns.map (Column.rename f)) (f s) (path.map f) =
      (trace? columns s path).map (List.map f) := by
  induction columns generalizing s path with
  | nil => rfl
  | cons column columns ih =>
    have hprevious : ((Column.rename f column).get? (f s)).bind Cell.previous =
        ((column.get? s).bind Cell.previous).map f := by
      rw [Column.rename, Table.get?_map]
      cases column.get? s <;> rfl
    rw [List.map_cons, trace?, trace?, hprevious]
    cases (column.get? s).bind Cell.previous with
    | none => rfl
    | some q => exact ih q (s :: path)

/-- The first column is renamed with the start. -/
lemma startColumn_map (start : S) :
    (startColumn (f start) : Column S' W) = Column.rename f (startColumn start) := rfl

/-- **Viterbi decoding does not depend on the names of states.** -/
theorem decode_map :
    decode (t.map f) = ((decode t).map (List.map f)).mapError (DecodeFailure.map f) := by
  unfold decode
  rw [Trellis.stateCount_map, Trellis.start_map, Trellis.goal_map]
  cases t.start with
  | none => rfl
  | some start =>
    cases t.goal with
    | none => rfl
    | some goal =>
      have hpath : (columns? (t.map f) (f goal) t.stateCount (startColumn (f start)) []).bind
            (trace? · (f goal) []) =
          ((columns? t goal t.stateCount (startColumn start) []).bind (trace? · goal [])).map
            (List.map f) := by
        have hcolumns := columns?_map f t (startColumn start) goal t.stateCount []
        rw [List.map_nil] at hcolumns
        rw [startColumn_map, hcolumns]
        cases columns? t goal t.stateCount (startColumn start) [] with
        | none => rfl
        | some columns => exact trace?_map f columns goal []
      simp only [Option.map_some, hpath]
      cases (columns? t goal t.stateCount (startColumn start) []).bind (trace? · goal []) <;> rfl

end Viterbi

/-- **Decoding does not depend on the names of states.** Through a trellis under new names a decoder
finds the same path under the new names, or it fails in the same way. -/
theorem Decoder.decode_map (d : Decoder) :
    d.decode (t.map f) = ((d.decode t).map (List.map f)).mapError (DecodeFailure.map f) := by
  cases d with
  | greedy => exact Greedy.decode_map f t
  | viterbi => exact Viterbi.decode_map f t

end TrellisTagger

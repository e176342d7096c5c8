import TrellisTagger.Choice
import TrellisTagger.Decoder.Failure
import TrellisTagger.Trellis

/-!
# Viterbi decoding

Columns of a lattice are built one after another. Column `t` holds the states that `t` hops lead to
from the start, each with the greatest weight of any such walk and the state before it on the walk.
The first column that holds the goal is the last one, and the path is read off backwards.

## Main definitions

* `TrellisTagger.Viterbi.Cell` — the score of a state in a column, and the state before it.
* `TrellisTagger.Viterbi.frontier` — the states one hop further.
* `TrellisTagger.Viterbi.bestArrival?` — the best way to enter a state from a column.
* `TrellisTagger.Viterbi.columns?` — the lattice up to the first column with the goal.
* `TrellisTagger.Viterbi.trace?` — the path that the cells before a state spell out.
* `TrellisTagger.Viterbi.decode` — the best path from the start to the goal.

## Design

The forward table decides which states a column holds and in what order; the backward table decides
between predecessors, of which the first best is kept. A goal in the frontier stands alone in its
column. No shortest path has more hops than there are states, so the number of states bounds the
number of columns.
-/

namespace TrellisTagger.Viterbi

universe u v

/-- The entry of a state in a column of the lattice. -/
structure Cell (S : Type u) (W : Type v) where
  /-- The greatest weight of a walk from the start that ends here at this column. -/
  score : W
  /-- The state before this one on such a walk; the start has none. -/
  previous : Option S

/-- A column of the lattice. -/
abbrev Column (S : Type u) (W : Type v) := Table S (Cell S W)

variable {S : Type u} {W : Type v} [DecidableEq S] [LogWeight W]

omit [LogWeight W] in
/-- The states one hop from a column, in the order in which they are first met. -/
def frontier (t : Trellis S W) (column : Column S W) : List S :=
  distinct (column.keys.flatMap fun s => (t.successors s).keys)

/-- The cells in which a state can be entered from a column, in the order of its predecessors. -/
def arrivals (t : Trellis S W) (column : Column S W) (s : S) : List (Cell S W) :=
  (t.predecessors s).entries.filterMap fun (q, w) =>
    (column.get? q).map fun cell => ⟨cell.score + w, some q⟩

/-- The first cell of greatest score in which a state can be entered from a column. -/
def bestArrival? (t : Trellis S W) (column : Column S W) (s : S) : Option (Cell S W) :=
  firstMax? Cell.score (arrivals t column s)

/-- The next column. If the goal is one hop away, it is the only state that is scored. -/
def advance (t : Trellis S W) (goal : S) (column : Column S W) : Column S W :=
  let states := frontier t column
  let scored := if goal ∈ states then [goal] else states
  Table.ofList (scored.filterMap fun s => (bestArrival? t column s).map fun cell => (s, cell))

/-- The columns after the first, latest first, up to the first one that holds the goal. -/
def columns? (t : Trellis S W) (goal : S) (bound : Nat) (column : Column S W)
    (built : List (Column S W)) : Option (List (Column S W)) :=
  if goal ∈ column.keys then some built
  else
    match bound with
    | bound + 1 =>
      if (frontier t column).isEmpty then none
      else
        let column' := advance t goal column
        columns? t goal bound column' (column' :: built)
    | 0 => none

omit [LogWeight W] in
/-- The states on the way to a state of the latest column, from the start on, put before a given
list. -/
def trace? : List (Column S W) → S → List S → Option (List S)
  | [], s, path => some (s :: path)
  | column :: columns, s, path =>
    match (column.get? s).bind Cell.previous with
    | some q => trace? columns q (s :: path)
    | none => none

/-- The first column: the start alone, at weight zero. -/
def startColumn (start : S) : Column S W := Table.ofList [(start, ⟨0, none⟩)]

/-- The best path of fewest hops from the start to the goal. -/
def decode (t : Trellis S W) : Except (DecodeFailure S) (List S) :=
  match t.start, t.goal with
  | some start, some goal =>
    let path? := (columns? t goal t.stateCount (startColumn start) []).bind (trace? · goal [])
    match path? with
    | some path => .ok path
    | none => .error (.unreachable start goal)
  | _, _ => .error .openEndpoint

end TrellisTagger.Viterbi

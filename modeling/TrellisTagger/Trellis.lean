import TrellisTagger.Arithmetic
import TrellisTagger.Tally

/-!
# Trellises

A trellis is a directed graph with weighted transitions, a start state and a goal state. Each
transition is kept twice, under the state it leaves and under the state it enters, because one
decoder walks forward and the other looks back. In both directions neighbours are listed in the
order in which their transitions were first set.

## Main definitions

* `TrellisTagger.Trellis` — the graph with its two endpoints, each of which may still be open.
* `TrellisTagger.Trellis.set` — set the weight of one transition.
* `TrellisTagger.Trellis.successors`, `TrellisTagger.Trellis.predecessors` — the neighbours.
* `TrellisTagger.Trellis.weight?` — the weight of a transition, if there is one.
* `TrellisTagger.Trellis.states` — every state that a transition or an endpoint mentions.

## Design

A pair of states without a transition has no weight at all, which is not the same as an impossible
weight on a transition that was set. Only `Trellis.pathWeight` maps the one to the other.
-/

namespace TrellisTagger

universe u v

/-- A weighted directed graph with a start and a goal. -/
structure Trellis (S : Type u) (W : Type v) where
  /-- The state where paths begin. -/
  start : Option S
  /-- The state where paths end. -/
  goal : Option S
  /-- For each state the states that can follow, with weights. -/
  forward : Table S (Table S W)
  /-- For each state the states that can precede, with weights. -/
  backward : Table S (Table S W)

namespace Trellis

variable {S : Type u} {W : Type v}

/-- The trellis without transitions. -/
def ofEndpoints (start goal : Option S) : Trellis S W := ⟨start, goal, ∅, ∅⟩

/-- Choose the start state, or leave it open. -/
def withStart (t : Trellis S W) (s : Option S) : Trellis S W := { t with start := s }

/-- Choose the goal state, or leave it open. -/
def withGoal (t : Trellis S W) (s : Option S) : Trellis S W := { t with goal := s }

/-- The number of transitions. -/
def transitionCount (t : Trellis S W) : Nat := (t.forward.values.map Table.size).foldr (· + ·) 0

variable [DecidableEq S]

/-- Set the weight of the transition from one state to another, whatever it was before. -/
def set (t : Trellis S W) (a b : S) (w : W) : Trellis S W :=
  { t with
    forward := t.forward.modifyD a ∅ (·.insert b w)
    backward := t.backward.modifyD b ∅ (·.insert a w) }

/-- Set several transitions, one after another. -/
def setAll (t : Trellis S W) (edges : List (S × S × W)) : Trellis S W :=
  edges.foldl (fun t e => t.set e.1 e.2.1 e.2.2) t

/-- The states that can follow a state, with the weights of the transitions. -/
def successors (t : Trellis S W) (s : S) : Table S W := t.forward.getD s ∅

/-- The states that can precede a state, with the weights of the transitions. -/
def predecessors (t : Trellis S W) (s : S) : Table S W := t.backward.getD s ∅

/-- The weight of the transition from one state to another, if it was ever set. -/
def weight? (t : Trellis S W) (a b : S) : Option W := (t.successors a).get? b

/-- The states that some transition or endpoint mentions. -/
def states (t : Trellis S W) : List S :=
  distinct (t.forward.keys ++ t.backward.keys ++ t.start.toList ++ t.goal.toList)

/-- The number of states. -/
def stateCount (t : Trellis S W) : Nat := t.states.length

/-- Whether some transition or endpoint mentions a state. -/
def contains (t : Trellis S W) (s : S) : Bool :=
  t.forward.contains s || t.backward.contains s ||
    decide (t.start = some s) || decide (t.goal = some s)

omit [DecidableEq S] in
/-- Whether one of the endpoints is still open. -/
def isOpen (t : Trellis S W) : Bool := t.start.isNone || t.goal.isNone

omit [DecidableEq S] in
/-- The text of a trellis: its endpoints and the number of its transitions. -/
def text (label : S → String) (t : Trellis S W) : String :=
  let endpoint (s : Option S) : String := (s.map label).getD "None"
  "Trellis(start_state=" ++ endpoint t.start ++ ", end_state=" ++ endpoint t.goal ++
    ", transitions=" ++ toString t.transitionCount ++ ")"

end Trellis

end TrellisTagger

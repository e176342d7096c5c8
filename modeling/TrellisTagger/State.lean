import TrellisTagger.Sentence

/-!
# States of order two

The nodes of a sentence trellis: the two tags before a position, and the position.

## Main definitions

* `TrellisTagger.State` — two tags and a position.
* `TrellisTagger.State.next`, `TrellisTagger.State.prior` — the neighbours under a tag.
* `TrellisTagger.State.tags` — the tags that a path of states spells out.

## Main results

* `TrellisTagger.State.prior_next` — stepping back undoes a step.
-/

namespace TrellisTagger

/-- The two tags before a position. -/
structure State where
  /-- The tag two positions before. -/
  beforePrevious : Tag
  /-- The tag one position before. -/
  previous : Tag
  /-- The position. Nothing bounds it. -/
  position : Int
  deriving DecidableEq

namespace State

/-- The state before the first word. -/
def start : State := ⟨Boundary.start, Boundary.start, 0⟩

/-- The state after both stop symbols of a sentence of a given length. -/
def stop (length : Int) : State := ⟨Boundary.stop, Boundary.stop, length + 2⟩

/-- The state that follows when a tag is chosen at the position. -/
def next (s : State) (tag : Tag) : State := ⟨s.previous, tag, s.position + 1⟩

/-- The state that came before, given the tag three positions back. -/
def prior (s : State) (tag : Tag) : State := ⟨tag, s.beforePrevious, s.position - 1⟩

/-- The tags along a path of states: the older tag of the first state, then the newer tag of
each. -/
def tags : List State → List Tag
  | [] => []
  | s :: path => s.beforePrevious :: (s :: path).map previous

/-- The text of a state. -/
def text (s : State) : String :=
  "[" ++ s.beforePrevious ++ ", " ++ s.previous ++ ", " ++ toString s.position ++ "]"

/-- A step is undone by going back with the tag that the state had before its previous one. -/
theorem prior_next (s : State) (tag : Tag) : (s.next tag).prior s.beforePrevious = s := by
  cases s
  simp [next, prior]

end State

end TrellisTagger

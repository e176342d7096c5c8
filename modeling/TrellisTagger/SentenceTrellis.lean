import TrellisTagger.Sentence
import TrellisTagger.State
import TrellisTagger.Trellis

/-!
# The trellis of a sentence

The taggings of a sentence as walks through a trellis. From the start state, every state of one
position is continued by each tag that is scored in its context; the states reached make up the next
position. Two positions after the last word lead to the stop state.

## Main definitions

* `TrellisTagger.State.context` — the context that a state stands for.
* `TrellisTagger.sentenceTrellis` — the trellis of a sequence of words.
* `TrellisTagger.Trellis.breadthFirst` — the states in the order in which they are reached.

## Design

The scores are an arbitrary function from contexts to tables of tags. The edges are listed position
by position and then set one after another.

No transition leads out of the stop state, and no case has to be made of it. For `n` words, the
states that are continued have the positions `0` to `n + 1`
(`TrellisTagger.SentenceTrellis.position_of_mem_frontier`), whatever tags are scored, and the stop
state has the position `n + 2`: where it can be reached, nothing is continued any more.
-/

namespace TrellisTagger

universe u v

/-- A function that scores the tags of a context. -/
abbrev Scores (W : Type u) := Context → Table Tag W

/-- The context that a state stands for in a sequence of words. -/
def State.context (s : State) (words : List Word) : Context :=
  ⟨words, s.position, s.previous, s.beforePrevious⟩

namespace SentenceTrellis

variable {W : Type u}

/-- The transitions out of a state: one for each tag scored in its context. -/
def steps (scores : Scores W) (words : List Word) (s : State) : List (State × State × W) :=
  (scores (s.context words)).entries.map fun (tag, w) => (s, s.next tag, w)

/-- The transitions out of the states of one position. -/
def layer (scores : Scores W) (words : List Word) (frontier : List State) :
    List (State × State × W) :=
  frontier.flatMap (steps scores words)

/-- The transitions from the states of one position on, over a number of positions. -/
def edges (scores : Scores W) (words : List Word) : Nat → List State → List (State × State × W)
  | 0, _ => []
  | n + 1, frontier =>
    let here := layer scores words frontier
    here ++ edges scores words n (distinct (here.map fun e => e.2.1))

end SentenceTrellis

/-- The trellis of a sequence of words under a scoring of tags. -/
def sentenceTrellis {W : Type u} (scores : Scores W) (words : List Word) : Trellis State W :=
  (Trellis.ofEndpoints (some State.start) (some (State.stop words.length))).setAll
    (SentenceTrellis.edges scores words (words.length + 2) [State.start])

namespace Trellis

variable {S : Type u} {W : Type v} [DecidableEq S]

/-- The states reached from a layer within a number of hops, after those already seen. -/
def reachedFrom (t : Trellis S W) : Nat → List S → List S → List S
  | 0, _, seen => seen
  | n + 1, layer, seen =>
    let next := distinct (layer.flatMap fun s => (t.successors s).keys)
    let new := next.filter fun s => !decide (s ∈ seen)
    reachedFrom t n new (seen ++ new)

/-- The states that can be reached from the start, nearest first. -/
def breadthFirst (t : Trellis S W) : List S :=
  t.reachedFrom t.stateCount t.start.toList t.start.toList

end Trellis

end TrellisTagger

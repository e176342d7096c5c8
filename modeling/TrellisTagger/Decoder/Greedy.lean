import TrellisTagger.Choice
import TrellisTagger.Decoder.Failure
import TrellisTagger.Trellis

/-!
# Greedy decoding

From the start, always follow the transition of greatest weight out of the present state, the first
one if there are several, until the goal is met. The walk fails at a state without successors and
when it comes back to a state.

## Main definitions

* `TrellisTagger.Greedy.next?` — the successor that the walk takes.
* `TrellisTagger.Greedy.decode` — the walk from the start to the goal.

## Implementation notes

The walk carries the states it has seen, latest first, and a bound on the steps that remain. The
bound is the number of states of the trellis: a walk of more steps has met some state twice, which
is what the last case reports.
-/

namespace TrellisTagger.Greedy

universe u v

variable {S : Type u} {W : Type v} [DecidableEq S] [LogWeight W]

/-- The first successor of greatest weight. -/
def next? (t : Trellis S W) (s : S) : Option S :=
  (firstMax? Prod.snd (t.successors s).entries).map Prod.fst

/-- Walk on from a state until the goal is met. -/
def walk (t : Trellis S W) (goal : S) (bound : Nat) (s : S) (seen : List S) :
    Except (DecodeFailure S) (List S) :=
  if s = goal then .ok seen.reverse
  else
    match next? t s with
    | none => .error (.deadEnd s goal)
    | some s' =>
      if s' ∈ seen then .error (.revisited s')
      else
        match bound with
        | bound + 1 => walk t goal bound s' (s' :: seen)
        | 0 => .error (.revisited s')

/-- The states met on the greedy walk from the start to the goal. -/
def decode (t : Trellis S W) : Except (DecodeFailure S) (List S) :=
  match t.start, t.goal with
  | some start, some goal => walk t goal t.stateCount start [start]
  | _, _ => .error .openEndpoint

end TrellisTagger.Greedy

/-!
# Why decoding fails

## Main definitions

* `TrellisTagger.DecodeFailure` — the reasons for which no path is found.
* `TrellisTagger.DecodeFailure.message` — their wording.
-/

namespace TrellisTagger

universe u

/-- The reasons for which a decoder finds no path. -/
inductive DecodeFailure (S : Type u) where
  /-- The trellis has no start or no goal yet. -/
  | openEndpoint
  /-- The walk has come to a state without successors. -/
  | deadEnd (state goal : S)
  /-- The walk has come back to a state. -/
  | revisited (state : S)
  /-- No path leads from the start to the goal. -/
  | unreachable (start goal : S)
  deriving DecidableEq

/-- The wording of a failure, given the texts of the states. -/
def DecodeFailure.message {S : Type u} (label : S → String) : DecodeFailure S → String
  | .openEndpoint => "Trellis must have a start state and an end state."
  | .deadEnd state goal =>
    "No legal continuation from state " ++ label state ++ " before reaching end state " ++
      label goal ++ "."
  | .revisited state => "Greedy walk revisited state " ++ label state ++ "."
  | .unreachable start goal =>
    "End state " ++ label goal ++ " is not reachable from start state " ++ label start ++ "."

end TrellisTagger

/-!
# Ranges of characters

A property of characters as a table: the closed ranges of code points that have it, in ascending
order.

## Main definitions

* `TrellisTagger.Ranges` — the type of such tables.
* `TrellisTagger.Ranges.contains` — whether a character has the property.
* `TrellisTagger.Ranges.IsAscending` — the form that every table has.
-/

namespace TrellisTagger

/-- Closed ranges of code points. -/
abbrev Ranges := List (Nat × Nat)

namespace Ranges

/-- Whether a character lies in one of the ranges. -/
def contains (ranges : Ranges) (c : Char) : Bool :=
  ranges.any fun r => r.1 ≤ c.toNat && c.toNat ≤ r.2

/-- Every range begins after a gap behind the one before it, and ends where it begins or later. -/
def IsAscending : Ranges → Prop
  | [] => True
  | [r] => r.1 ≤ r.2
  | r :: s :: l => r.1 ≤ r.2 ∧ r.2 + 1 < s.1 ∧ IsAscending (s :: l)

/-- It can be decided whether a table of ranges has the form that every table has. -/
instance decidableIsAscending : (ranges : Ranges) → Decidable ranges.IsAscending
  | [] => inferInstanceAs (Decidable True)
  | [r] => inferInstanceAs (Decidable (r.1 ≤ r.2))
  | r :: s :: l =>
    have := decidableIsAscending (s :: l)
    inferInstanceAs (Decidable (r.1 ≤ r.2 ∧ r.2 + 1 < s.1 ∧ IsAscending (s :: l)))

/-- The number of code points in the ranges. -/
def count (ranges : Ranges) : Nat := ranges.foldl (fun n r => n + (r.2 + 1 - r.1)) 0

end Ranges

end TrellisTagger

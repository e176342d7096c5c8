/-!
# The first element of greatest weight

Both decoders choose in the same way: candidates are looked at in order, and the one that is kept
gives way only to a strictly greater weight. So of several greatest candidates the first wins, and
a weight that compares with nothing never replaces another.

## Main definitions

* `TrellisTagger.firstMax?` — the element kept at the end of the list.

## Main results

* `TrellisTagger.firstMax?_eq_none_iff` — only the empty list has none.
* `TrellisTagger.mem_of_firstMax?_eq_some` — the element kept is one of the candidates.
-/

namespace TrellisTagger

universe u v

variable {α : Type u} {W : Type v} [LT W] [DecidableLT W]

/-- The later of two candidates if its weight is strictly greater, else the earlier one. -/
def keepGreater (weight : α → W) (kept a : α) : α := if weight kept < weight a then a else kept

/-- The candidate that no later one exceeds, among those that exceed all before them. -/
def firstMax? (weight : α → W) : List α → Option α
  | [] => none
  | a :: l => some (l.foldl (keepGreater weight) a)

/-- Nothing is kept just if there are no candidates. -/
theorem firstMax?_eq_none_iff {weight : α → W} {l : List α} :
    firstMax? weight l = none ↔ l = [] := by
  cases l <;> simp [firstMax?]

/-- What is kept at the end is what was kept at the beginning or one of the list. -/
theorem foldl_keepGreater_mem (weight : α → W) (a : α) (l : List α) :
    l.foldl (keepGreater weight) a ∈ a :: l := by
  induction l generalizing a with
  | nil => exact List.mem_cons_self
  | cons b l ih =>
    rw [List.foldl_cons]
    rcases List.mem_cons.1 (ih (keepGreater weight a b)) with h | h
    · rw [h]
      unfold keepGreater
      split
      · exact List.mem_cons_of_mem _ List.mem_cons_self
      · exact List.mem_cons_self
    · exact List.mem_cons_of_mem _ (List.mem_cons_of_mem _ h)

/-- What is kept is one of the candidates. -/
theorem mem_of_firstMax?_eq_some {weight : α → W} {a : α} {l : List α}
    (h : firstMax? weight l = some a) : a ∈ l := by
  cases l with
  | nil => cases h
  | cons b l =>
    obtain rfl : l.foldl (keepGreater weight) b = a := Option.some.inj h
    exact foldl_keepGreater_mem weight b l

end TrellisTagger

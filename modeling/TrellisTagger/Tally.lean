import TrellisTagger.Table

/-!
# Counting events

Tables of counts in the order in which the events were first seen, and the list of first
occurrences itself.

## Main definitions

* `TrellisTagger.distinctBy`, `TrellisTagger.distinct` — the first element with each key.
* `TrellisTagger.tally` — how often each event occurs.
* `TrellisTagger.crossTally` — how often each event occurs under each condition.
* `TrellisTagger.Table.total` — how many occurrences a table counts.

## Main results

* `TrellisTagger.mem_distinct`, `TrellisTagger.nodup_distinct` — `distinct` keeps the elements and
  drops the repetitions.
-/

namespace TrellisTagger

universe u v

variable {α : Type u} {κ : Type v}

/-- The elements of a list whose key has not occurred before, in order. -/
def distinctBy [DecidableEq κ] (key : α → κ) : List α → List α
  | [] => []
  | a :: l => a :: (distinctBy key l).filter fun b => key b ≠ key a

/-- The elements of a list without repetitions, in order of first occurrence. -/
def distinct [DecidableEq α] (l : List α) : List α := distinctBy id l

/-- The number of occurrences of each event, in order of first occurrence. -/
def tally [DecidableEq α] (events : List α) : Table α Int :=
  events.foldl (fun t a => t.modifyD a 0 (· + 1)) ∅

/-- The number of occurrences of each event under each condition, both in order of first
occurrence. -/
def crossTally [DecidableEq α] [DecidableEq κ] (events : List (κ × α)) : Table κ (Table α Int) :=
  events.foldl (fun t e => t.modifyD e.1 ∅ fun row => row.modifyD e.2 0 (· + 1)) ∅

/-- The sum of the counts of a table. -/
def Table.total (t : Table κ Int) : Int := t.values.foldr (· + ·) 0

/-- Only elements of a list are kept. -/
theorem mem_of_mem_distinctBy [DecidableEq κ] {key : α → κ} {a : α} {l : List α}
    (h : a ∈ distinctBy key l) : a ∈ l := by
  induction l with
  | nil => exact h
  | cons b l ih =>
    rcases List.mem_cons.1 h with rfl | h
    · exact List.mem_cons_self
    · exact List.mem_cons_of_mem _ (ih (List.mem_filter.1 h).1)

/-- No two elements that are kept have the same key. -/
theorem nodup_map_distinctBy [DecidableEq κ] (key : α → κ) (l : List α) :
    ((distinctBy key l).map key).Nodup := by
  induction l with
  | nil => exact List.nodup_nil
  | cons a l ih =>
    rw [distinctBy, List.map_cons, List.nodup_cons]
    refine ⟨?_, ih.sublist (List.filter_sublist.map key)⟩
    intro h
    obtain ⟨b, hb, hk⟩ := List.mem_map.1 h
    simpa [hk] using (List.mem_filter.1 hb).2

/-- The distinct elements of a list are its elements. -/
@[simp] theorem mem_distinct [DecidableEq α] {a : α} {l : List α} : a ∈ distinct l ↔ a ∈ l := by
  refine ⟨mem_of_mem_distinctBy, fun h => ?_⟩
  induction l with
  | nil => exact h
  | cons b l ih =>
    by_cases hb : a = b
    · exact hb ▸ List.mem_cons_self
    · refine List.mem_cons_of_mem _ (List.mem_filter.2 ⟨ih ?_, by simpa using hb⟩)
      exact (List.mem_cons.1 h).resolve_left hb

/-- No element is repeated among the distinct ones. -/
theorem nodup_distinct [DecidableEq α] (l : List α) : (distinct l).Nodup := by
  simpa [distinct] using nodup_map_distinctBy id l

end TrellisTagger

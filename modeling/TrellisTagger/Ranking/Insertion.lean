/-!
# Runs, and sorting by insertion

The elements at the front of a list that are in order already make a run; a run in which each
element comes before the last one is turned around. A run that is too short takes in further
elements, each behind the place that a search by halves finds for it. So the order is determined
even where some elements compare with nothing, and equal elements keep their order.

## Main definitions

* `TrellisTagger.Ranking.firstRun` — the elements that are in order from the start, and the others.
* `TrellisTagger.Ranking.place` — the place of an element among others.
* `TrellisTagger.Ranking.nextRun` — a run of at least some length, and the other elements.

## Main results

* `TrellisTagger.Ranking.nextRun_perm` — no element is lost.
-/

namespace TrellisTagger.Ranking

universe u

variable {α : Type u}

/-- The number of elements at the front of a list each of which follows the one before it. -/
def runLength (follows : α → α → Bool) : List α → Nat
  | a :: b :: l => if follows a b then runLength follows (b :: l) + 1 else 1
  | l => l.length

/-- Whether the second element comes before the first. -/
def falls (before : α → α → Bool) : List α → Bool
  | a :: b :: _ => before b a
  | _ => false

/-- The elements that are in order from the start, and the others. If the second element comes
before the first, the run is one of elements each of which comes before the last, and it is turned
around. -/
def firstRun (before : α → α → Bool) (l : List α) : List α × List α :=
  let n := runLength (fun a b => before b a == falls before l) l
  (if falls before l then (l.take n).reverse else l.take n, l.drop n)

/-- The least place from `low` up to `high` at which a search by halves ends: wherever it looks, it
goes on to the left if the element comes before the one that it finds there. -/
def place (before : Nat → Bool) (low high : Nat) : Nat :=
  if low < high then
    let middle := low + (high - low) / 2
    if before middle then place before low middle else place before (middle + 1) high
  else low
termination_by high - low

/-- Put an element among others. -/
def insert (before : α → α → Bool) (sorted : List α) (a : α) : List α :=
  let i := place (fun j => sorted[j]?.any (before a)) 0 sorted.length
  sorted.take i ++ a :: sorted.drop i

/-- The first run of a list, with further elements if it has fewer than a number, and the elements
that are left. -/
def nextRun (before : α → α → Bool) (least : Nat) (l : List α) : List α × List α :=
  let (run, rest) := firstRun before l
  let missing := least - run.length
  ((rest.take missing).foldl (insert before) run, rest.drop missing)

/-- Putting an element among others adds it and loses none. -/
theorem insert_perm (before : α → α → Bool) (sorted : List α) (a : α) :
    (insert before sorted a).Perm (a :: sorted) := by
  refine List.perm_middle.trans (.of_eq ?_)
  rw [List.take_append_drop]

/-- The first run and the other elements are those of the list. -/
theorem firstRun_perm (before : α → α → Bool) (l : List α) :
    ((firstRun before l).1 ++ (firstRun before l).2).Perm l := by
  have h : (firstRun before l).1.Perm
      (l.take (runLength (fun a b => before b a == falls before l) l)) := by
    unfold firstRun
    dsimp only
    split
    · exact List.reverse_perm _
    · exact .refl _
  exact (h.append_right _).trans (.of_eq (List.take_append_drop _ l))

/-- Putting elements among others one by one adds them and loses none. -/
theorem foldl_insert_perm (before : α → α → Bool) (sorted rest : List α) :
    (rest.foldl (insert before) sorted).Perm (sorted ++ rest) := by
  induction rest generalizing sorted with
  | nil => rw [List.append_nil]; exact .refl _
  | cons a rest ih =>
    exact (ih _).trans
      (((insert_perm before sorted a).append_right rest).trans List.perm_middle.symm)

/-- **A run and the elements that are left** are those of the list, none of them lost or
repeated. -/
theorem nextRun_perm (before : α → α → Bool) (least : Nat) (l : List α) :
    ((nextRun before least l).1 ++ (nextRun before least l).2).Perm l := by
  refine List.Perm.trans ?_ (firstRun_perm before l)
  unfold nextRun
  generalize firstRun before l = parts
  refine ((foldl_insert_perm before _ _).append_right _).trans (.of_eq ?_)
  rw [List.append_assoc, List.take_append_drop]

end TrellisTagger.Ranking

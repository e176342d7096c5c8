/-!
# Putting a list into another order

The elements of a list in an order that depends on a seed and shows no pattern. A session asks its
world for such an order, and any order would do; this is the one in which the worlds of this library
answer.

## Main definitions

* `TrellisTagger.Shuffle.nextRandom` — a sequence of numbers without visible pattern.
* `TrellisTagger.Shuffle.shuffle` — the elements in an order that depends on a seed.

## Main results

* `TrellisTagger.Shuffle.shuffle_perm` — no element is lost, and none is repeated.
-/

namespace TrellisTagger.Shuffle

universe u

variable {α : Type u}

/-- The number after a number in a sequence without visible pattern. -/
def nextRandom (x : Nat) : Nat := (x * 6364136223846793005 + 1442695040888963407) % Nat.pow 2 64

/-- The place of the element that a number chooses among some elements. -/
def choice (x count : Nat) : Nat := x / Nat.pow 2 33 % count

/-- The elements of a list in an order that depends on a number: again and again one of those that
are left is taken out. -/
def shuffleFrom (x : Nat) (taken : List α) : Nat → List α → List α
  | 0, left => taken ++ left
  | n + 1, left =>
    match left.drop (choice x left.length) with
    | [] => taken ++ left
    | a :: after =>
      shuffleFrom (nextRandom x) (a :: taken) n (left.take (choice x left.length) ++ after)

/-- The elements of a list in an order that depends on a seed. -/
def shuffle (seed : Int) (l : List α) : List α :=
  shuffleFrom (nextRandom (nextRandom (seed % Nat.pow 2 64).toNat)) [] l.length l

/-- Taking elements out one after another neither loses nor repeats one. -/
theorem shuffleFrom_perm (x : Nat) (taken : List α) (n : Nat) (left : List α) :
    (shuffleFrom x taken n left).Perm (taken ++ left) := by
  induction n generalizing x taken left with
  | zero => exact .refl _
  | succ n ih =>
    rw [shuffleFrom]
    split
    · exact .refl _
    · rename_i a after hdrop
      have hleft : left.take (choice x left.length) ++ a :: after = left := by
        rw [← hdrop, List.take_append_drop]
      have hout : (a :: (left.take (choice x left.length) ++ after)).Perm left :=
        List.perm_middle.symm.trans (.of_eq hleft)
      exact (ih _ _ _).trans (List.perm_middle.symm.trans (hout.append_left taken))

/-- **Shuffling only changes the order**: no element is lost, and none is repeated. -/
theorem shuffle_perm (seed : Int) (l : List α) : (shuffle seed l).Perm l := by
  unfold shuffle
  exact shuffleFrom_perm _ [] _ l

end TrellisTagger.Shuffle

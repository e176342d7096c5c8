import TrellisTagger.Ranking.Insertion

/-!
# Merging two runs

Two runs in order, one behind the other, become one. What the first run has in front of the second,
and the second behind the first, stays where it is; of what is left between, the merge begins at the
end where the shorter run is. Elements are taken one by one until one run has given a number of them
in a row; from then on they are taken in strides, as long as the strides pay. How many in a row that
takes is the patience of the merge: it grows when strides did not pay, and shrinks while they do.

## Main definitions

* `TrellisTagger.Ranking.gallop` — a search by doubled strides, then by halves.
* `TrellisTagger.Ranking.Merge` — two runs while they are merged.
* `TrellisTagger.Ranking.mergeRuns` — two runs as one.

## Main results

* `TrellisTagger.Ranking.mergeRuns_perm` — no element is lost.

## Design

Where all elements can be compared, any way of merging that prefers the first run gives the same
list. The strides matter only where some elements compare with nothing.
-/

namespace TrellisTagger.Ranking

universe u

variable {α : Type u}

/-- Double an offset as long as that goes on and stays below a bound: the last offset from which it
went on, and the one at which it ended. -/
def reach (goesOn : Nat → Bool) (bound last offset : Nat) : Nat × Nat :=
  if offset < bound then
    if goesOn offset then reach goesOn bound offset (2 * offset + 1) else (last, offset)
  else (last, min offset bound)
termination_by bound - offset

/-- The place that a search finds among a number of elements, of which one is where it starts: by
doubled strides away from the start, and then by halves within the last stride. -/
def gallop (before : Nat → Bool) (count start : Nat) : Nat :=
  if before start then
    let (last, offset) := reach (fun i => before (start - i)) (start + 1) 0 1
    place before (start + 1 - offset) (start - last)
  else
    let (last, offset) := reach (fun i => !before (start + i)) (count - start) 0 1
    place before (start + last + 1) (start + offset)

/-- The end at which a merge begins. -/
inductive Direction where
  /-- The first elements are merged first. -/
  | forward
  /-- The last elements are merged first. -/
  | backward
  deriving DecidableEq

namespace Direction

/-- The element of a run that is merged next. -/
def next? (d : Direction) (run : List α) : Option α :=
  match d with
  | forward => run.head?
  | backward => run.getLast?

/-- A number of elements of a run that are merged next, and the others. -/
def cut (d : Direction) (n : Nat) (run : List α) : List α × List α :=
  match d with
  | forward => (run.take n, run.drop n)
  | backward => (run.drop (run.length - n), run.take (run.length - n))

/-- Put elements behind those that are merged, as seen from where the merge began. -/
def join (d : Direction) (merged new : List α) : List α :=
  match d with
  | forward => merged ++ new
  | backward => new ++ merged

/-- A run is cut into two parts without losing an element. -/
theorem cut_perm (d : Direction) (n : Nat) (run : List α) :
    ((d.cut n run).1 ++ (d.cut n run).2).Perm run := by
  cases d with
  | forward => exact .of_eq (List.take_append_drop n run)
  | backward => exact List.perm_append_comm.trans (.of_eq (List.take_append_drop _ run))

/-- All elements are there after some are put behind those that are merged. -/
theorem join_perm (d : Direction) (merged new : List α) :
    (d.join merged new).Perm (merged ++ new) := by
  cases d with
  | forward => exact .refl _
  | backward => exact List.perm_append_comm

end Direction

/-- Two runs while they are merged. -/
structure Merge (α : Type u) where
  /-- The end at which the merge began. -/
  direction : Direction
  /-- What is left of the first run. -/
  left : List α
  /-- What is left of the second run. -/
  right : List α
  /-- What has been merged. -/
  merged : List α
  /-- How many elements in a row are taken from one run before strides are tried. -/
  patience : Nat

/-- How elements are taken. -/
inductive Pace where
  /-- One by one, so many in a row from the first run and from the second. -/
  | steps (left right : Nat)
  /-- In strides. -/
  | strides

namespace Merge

/-- All elements. -/
def elements (m : Merge α) : List α := m.left ++ (m.right ++ m.merged)

/-- Merge a number of elements of the first run. -/
def takeLeft (m : Merge α) (n : Nat) : Merge α :=
  let (taken, left) := m.direction.cut n m.left
  { m with left, merged := m.direction.join m.merged taken }

/-- Merge a number of elements of the second run. -/
def takeRight (m : Merge α) (n : Nat) : Merge α :=
  let (taken, right) := m.direction.cut n m.right
  { m with right, merged := m.direction.join m.merged taken }

/-- Whether nothing is left to compare. Of the run at which the merge began, the last element has
its place. -/
def isDone (m : Merge α) : Bool :=
  match m.direction with
  | .forward => m.left.length ≤ 1 || m.right.isEmpty
  | .backward => m.right.length ≤ 1 || m.left.isEmpty

/-- The merged elements with those that are left. -/
def finish (m : Merge α) : List α :=
  match m.direction with
  | .forward => m.merged ++ if m.left.length = 1 then m.right ++ m.left else m.left ++ m.right
  | .backward => (if m.right.length = 1 then m.right ++ m.left else m.left ++ m.right) ++ m.merged

variable (before : α → α → Bool)

/-- Whether the next element comes from the second run. -/
def isRightNext (m : Merge α) : Bool :=
  let falls := (m.direction.next? m.right).any fun b => (m.direction.next? m.left).any (before b)
  falls == decide (m.direction = .forward)

/-- The number of elements of a run that a stride takes, given a search among them. -/
def stride (m : Merge α) (isBefore : Nat → Bool) (count : Nat) : Nat :=
  match m.direction with
  | .forward => gallop isBefore count 0
  | .backward => count - gallop isBefore count (count - 1)

/-- The number of elements of the first run that come before the next one of the second, or behind
it if the merge began at the end. -/
def leftStride (m : Merge α) : Nat :=
  m.stride (fun i => (m.direction.next? m.right).any fun b => m.left[i]?.any (before b))
    m.left.length

/-- The number of elements of the second run that come before the next one of the first, or behind
it if the merge began at the end. -/
def rightStride (m : Merge α) : Nat :=
  m.stride
    (fun i => !(m.direction.next? m.left).any fun a => m.right[i]?.any fun b => before b a)
    m.right.length

/-- The number of elements for which a stride pays. -/
def goodStride : Nat := 7

/-- Merge until nothing is left to compare, in at most a number of rounds. -/
def run : Nat → Pace → Merge α → Merge α
  | 0, _, m => m
  | rounds + 1, pace, m =>
    if m.isDone then m
    else
      match pace with
      | .steps left right =>
        let isRight := m.isRightNext before
        let m := if isRight then m.takeRight 1 else m.takeLeft 1
        let left := if isRight then 0 else left + 1
        let right := if isRight then right + 1 else 0
        run rounds (if m.patience ≤ max left right then .strides else .steps left right) m
      | .strides =>
        let n := m.leftStride before
        let m := m.takeLeft n
        if m.isDone then m
        else
          let m := m.takeRight 1
          if m.isDone then m
          else
            let k := m.rightStride before
            let m := m.takeRight k
            if m.isDone then m
            else
              let m := m.takeLeft 1
              if m.isDone then m
              else if goodStride ≤ n ∨ goodStride ≤ k then
                run rounds .strides { m with patience := max 1 (m.patience - 1) }
              else run rounds (.steps 0 0) { m with patience := m.patience + 1 }

/-- Taking from the first run neither loses nor repeats an element. -/
theorem elements_takeLeft (m : Merge α) (n : Nat) : (m.takeLeft n).elements.Perm m.elements := by
  have h := m.direction.cut_perm n m.left
  have j := m.direction.join_perm m.merged (m.direction.cut n m.left).1
  refine (((j.append_left _).append_left _).trans ?_ : List.Perm ((m.direction.cut n m.left).2 ++
    (m.right ++ m.direction.join m.merged (m.direction.cut n m.left).1)) _)
  refine .trans ?_ ((List.perm_append_comm.trans h).append_right _)
  rw [List.append_assoc, ← List.append_assoc m.right]
  exact List.perm_append_comm.append_left _

/-- Taking from the second run neither loses nor repeats an element. -/
theorem elements_takeRight (m : Merge α) (n : Nat) : (m.takeRight n).elements.Perm m.elements := by
  have h := m.direction.cut_perm n m.right
  have j := m.direction.join_perm m.merged (m.direction.cut n m.right).1
  refine List.Perm.append_left _ ((j.append_left _).trans ?_ : List.Perm
    ((m.direction.cut n m.right).2 ++ m.direction.join m.merged (m.direction.cut n m.right).1) _)
  refine .trans ?_ ((List.perm_append_comm.trans h).append_right _)
  rw [List.append_assoc]
  exact List.perm_append_comm.append_left _

/-- Ending a merge neither loses nor repeats an element. -/
theorem finish_perm (m : Merge α) : m.finish.Perm m.elements := by
  have h : List.Perm (if m.left.length = 1 then m.right ++ m.left else m.left ++ m.right)
      (m.left ++ m.right) := by
    split
    · exact List.perm_append_comm
    · exact .refl _
  have k : List.Perm (if m.right.length = 1 then m.right ++ m.left else m.left ++ m.right)
      (m.left ++ m.right) := by
    split
    · exact List.perm_append_comm
    · exact .refl _
  unfold finish elements
  rw [← List.append_assoc]
  split
  · exact List.perm_append_comm.trans (h.append_right _)
  · exact k.append_right _

/-- Going on with a merge neither loses nor repeats an element, at any pace. -/
theorem elements_run (rounds : Nat) (pace : Pace) (m : Merge α) :
    (m.run before rounds pace).elements.Perm m.elements := by
  induction rounds generalizing pace m with
  | zero => exact .refl _
  | succ rounds ih =>
    unfold run
    split
    · exact .refl _
    · split
      · refine (ih _ _).trans ?_
        split
        · exact elements_takeRight m 1
        · exact elements_takeLeft m 1
      · have h₁ := elements_takeLeft m (m.leftStride before)
        dsimp only
        split
        · exact h₁
        · refine .trans ?_ h₁
          generalize m.takeLeft (m.leftStride before) = m₁
          have h₂ := elements_takeRight m₁ 1
          split
          · exact h₂
          · refine .trans ?_ h₂
            generalize m₁.takeRight 1 = m₂
            have h₃ := elements_takeRight m₂ (m₂.rightStride before)
            split
            · exact h₃
            · refine .trans ?_ h₃
              generalize m₂.takeRight (m₂.rightStride before) = m₃
              have h₄ := elements_takeLeft m₃ 1
              split
              · exact h₄
              · refine .trans ?_ h₄
                split
                · exact ih _ _
                · exact ih _ _

end Merge

/-- Two runs as one, and the patience that is left. -/
def mergeRuns (before : α → α → Bool) (patience : Nat) (left right : List α) : List α × Nat :=
  let skipped := gallop (fun i => right.head?.any fun b => left[i]?.any (before b)) left.length 0
  let first := left.drop skipped
  let kept := gallop (fun i => !first.getLast?.any fun a => right[i]?.any fun b => before b a)
    right.length (right.length - 1)
  let second := right.take kept
  if first.isEmpty || second.isEmpty then (left ++ right, patience)
  else
    let m : Merge α :=
      if first.length ≤ second.length then Merge.takeRight ⟨.forward, first, second, [], patience⟩ 1
      else Merge.takeLeft ⟨.backward, first, second, [], patience⟩ 1
    let m := m.run before (first.length + second.length) (.steps 0 0)
    (left.take skipped ++ (m.finish ++ right.drop kept), m.patience)

/-- **Two runs as one** have the elements of both, none of them lost or repeated. -/
theorem mergeRuns_perm (before : α → α → Bool) (patience : Nat) (left right : List α) :
    (mergeRuns before patience left right).1.Perm (left ++ right) := by
  unfold mergeRuns
  dsimp only
  split
  · exact .refl _
  · generalize gallop (fun i => right.head?.any fun b => left[i]?.any (before b)) left.length 0 = n
    generalize gallop _ right.length (right.length - 1) = k
    have h (m : Merge α) (hm : m.elements.Perm (left.drop n ++ right.take k)) (rounds : Nat) :
        (left.take n ++ ((m.run before rounds (.steps 0 0)).finish ++ right.drop k)).Perm
          (left ++ right) := by
      have e :=
        ((Merge.finish_perm _).trans (Merge.elements_run before rounds (.steps 0 0) m)).trans hm
      refine ((e.append_right _).append_left _).trans (.of_eq ?_)
      rw [List.append_assoc, List.take_append_drop, ← List.append_assoc, List.take_append_drop]
    refine h _ ?_ _
    split
    · exact (Merge.elements_takeRight _ 1).trans (.of_eq (by simp [Merge.elements]))
    · exact (Merge.elements_takeLeft _ 1).trans (.of_eq (by simp [Merge.elements]))

end TrellisTagger.Ranking

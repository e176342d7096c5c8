import TrellisTagger.Ranking.Merge

/-!
# Sorting by runs

A list is sorted under a comparison that need not be total. It is cut into runs, short ones being
filled up by insertion, and the runs are merged. Each boundary between two runs has a power: how
often the list has to be halved until the middles of the two runs lie in different parts. A boundary
of a higher power is merged before one of a lower power beside it. So the order is determined even
where some elements compare with nothing, and equal elements keep their order.

## Main definitions

* `TrellisTagger.Ranking.power` — the power of the boundary between two runs.
* `TrellisTagger.Ranking.Pending` — the runs that wait to be merged.
* `TrellisTagger.sortBy` — the list in order.

## Main results

* `TrellisTagger.sortBy_perm` — sorting only changes the order.
-/

namespace TrellisTagger

universe u

variable {α : Type u}

namespace Ranking

/-- The power of the boundary between two runs of given lengths, of which the first begins at a
place in a list of a given length: the number of the first binary digit in which the middles of the
runs differ as parts of the list. -/
def power (start first second length : Nat) : Nat :=
  let digit (n middle : Nat) : Nat := middle * Nat.pow 2 n / length
  let left := 2 * start + first
  let right := left + first + second
  (List.range (length + 1)).findIdx fun n => digit n left != digit n right

/-- The least length of a run: a list of less than 64 elements is one run, and a longer list is
halved until it is short enough, rounding up at last. -/
def leastRun (length : Nat) : Nat := go length 0
where
  /-- Halve a length and remember whether anything was lost. -/
  go (n lost : Nat) : Nat := if n < 64 then n + lost else go (n / 2) (max lost (n % 2))

/-- A run that waits to be merged. -/
structure Run (α : Type u) where
  /-- The place in the list at which the run begins. -/
  start : Nat
  /-- The elements. -/
  elements : List α
  /-- The power of the boundary behind the run. -/
  power : Nat := 0

/-- The runs that wait to be merged, the last one first, and the patience of the merges. -/
structure Pending (α : Type u) where
  /-- The runs. -/
  runs : List (Run α) := []
  /-- The patience. -/
  patience : Nat := Merge.goodStride

namespace Pending

/-- All elements, the last run first. -/
def elements (p : Pending α) : List α := p.runs.flatMap Run.elements

variable (before : α → α → Bool)

/-- Merge the last two runs. -/
def mergeLast (p : Pending α) : Pending α :=
  match p.runs with
  | second :: first :: rest =>
    let (elements, patience) := mergeRuns before p.patience first.elements second.elements
    ⟨⟨first.start, elements, first.power⟩ :: rest, patience⟩
  | _ => p

/-- Merge the last two runs as long as the boundary between them has more than a power. -/
def collapse (power : Nat) : Nat → Pending α → Pending α
  | 0, p => p
  | bound + 1, p =>
    match p.runs with
    | _ :: first :: _ =>
      if power < first.power then collapse power bound (p.mergeLast before) else p
    | _ => p

/-- Put a run behind the others in a list of a given length. The power of the boundary in front of
it is known now, and boundaries of a higher power are merged. -/
def push (length : Nat) (p : Pending α) (run : List α) : Pending α :=
  match p.runs with
  | [] => ⟨[⟨0, run, 0⟩], p.patience⟩
  | last :: _ =>
    let power := Ranking.power last.start last.elements.length run.length length
    let p := p.collapse before power p.runs.length
    let start := last.start + last.elements.length
    match p.runs with
    | last :: rest => ⟨⟨start, run, 0⟩ :: { last with power } :: rest, p.patience⟩
    | [] => ⟨[⟨start, run, 0⟩], p.patience⟩

/-- Merge the last two runs, or the two before the last one if the first of these is shorter than
the last. -/
def mergeShorter (p : Pending α) : Pending α :=
  match p.runs with
  | third :: second :: first :: rest =>
    if first.elements.length < third.elements.length then
      let merged := mergeLast before ⟨second :: first :: rest, p.patience⟩
      ⟨third :: merged.runs, merged.patience⟩
    else p.mergeLast before
  | _ => p.mergeLast before

/-- Merge all runs, in at most a number of merges. -/
def mergeAll : Nat → Pending α → Pending α
  | 0, p => p
  | bound + 1, p => if p.runs.length ≤ 1 then p else mergeAll bound (p.mergeShorter before)

/-- Cut a list into runs of at least some length, of which there are at most a number, and put them
behind the others in a list of a given length. -/
def pushAll (least length : Nat) : Nat → Pending α → List α → Pending α
  | 0, p, rest => p.push before length rest
  | bound + 1, p, rest =>
    if rest.isEmpty then p
    else
      let (run, rest) := nextRun before least rest
      pushAll least length bound (p.push before length run) rest

/-- Merging the last two runs neither loses nor repeats an element. -/
theorem elements_mergeLast (p : Pending α) : (p.mergeLast before).elements.Perm p.elements := by
  unfold mergeLast elements
  split
  · next second first rest h =>
    have e := mergeRuns_perm before p.patience first.elements second.elements
    simp only [h, List.flatMap_cons, ← List.append_assoc]
    exact (e.trans List.perm_append_comm).append_right _
  · exact .refl _

/-- Merging boundaries of a higher power neither loses nor repeats an element. -/
theorem elements_collapse (power bound : Nat) (p : Pending α) :
    (p.collapse before power bound).elements.Perm p.elements := by
  induction bound generalizing p with
  | zero => exact .refl _
  | succ bound ih =>
    unfold collapse
    split
    · split
      · exact (ih _).trans (elements_mergeLast before p)
      · exact .refl _
    · exact .refl _

/-- After a run is put behind the others, the elements are its own and those before. -/
theorem elements_push (length : Nat) (p : Pending α) (run : List α) :
    (p.push before length run).elements.Perm (run ++ p.elements) := by
  unfold push
  split
  · next h => simp [elements, h]
  · next last rest h =>
    have e := elements_collapse before
      (Ranking.power last.start last.elements.length run.length length) p.runs.length p
    refine List.Perm.trans ?_ (e.append_left run)
    unfold elements
    dsimp only
    split
    · next hq => simp [hq]
    · next hq => simp [hq]

/-- Merging two of the last three runs neither loses nor repeats an element. -/
theorem elements_mergeShorter (p : Pending α) :
    (p.mergeShorter before).elements.Perm p.elements := by
  unfold mergeShorter
  split
  · next third second first rest h =>
    split
    · have e := elements_mergeLast before ⟨second :: first :: rest, p.patience⟩
      simpa [elements, h] using e.append_left third.elements
    · exact elements_mergeLast before p
  · exact elements_mergeLast before p

/-- Merging all runs neither loses nor repeats an element. -/
theorem elements_mergeAll (bound : Nat) (p : Pending α) :
    (p.mergeAll before bound).elements.Perm p.elements := by
  induction bound generalizing p with
  | zero => exact .refl _
  | succ bound ih =>
    unfold mergeAll
    split
    · exact .refl _
    · exact (ih _).trans (elements_mergeShorter before p)

/-- After the runs of a list are put behind the others, the elements are its own and those
before. -/
theorem elements_pushAll (least length bound : Nat) (p : Pending α) (rest : List α) :
    (p.pushAll before least length bound rest).elements.Perm (rest ++ p.elements) := by
  induction bound generalizing p rest with
  | zero => exact elements_push before length p rest
  | succ bound ih =>
    unfold pushAll
    split
    · next h => rw [List.isEmpty_iff.1 h, List.nil_append]
    · have e := nextRun_perm before least rest
      refine (ih _ _).trans (((elements_push before length p _).append_left _).trans ?_)
      rw [← List.append_assoc]
      exact (List.perm_append_comm.trans e).append_right _

end Pending

end Ranking

open Ranking in
/-- A list in order. -/
def sortBy (before : α → α → Bool) (l : List α) : List α :=
  let pending := Pending.pushAll before (leastRun l.length) l.length (l.length + 1) {} l
  (pending.mergeAll before l.length).elements

open Ranking in
/-- Sorting only changes the order. -/
theorem sortBy_perm (before : α → α → Bool) (l : List α) : (sortBy before l).Perm l := by
  refine (Pending.elements_mergeAll before _ _).trans
    ((Pending.elements_pushAll before _ _ _ _ _).trans ?_)
  rw [show ({} : Pending α).elements = [] from rfl, List.append_nil]

end TrellisTagger

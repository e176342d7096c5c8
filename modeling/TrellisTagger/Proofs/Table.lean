import Mathlib.Data.Finset.Card
import Mathlib.Algebra.BigOperators.Group.Finset.Basic
import Mathlib.Algebra.Order.BigOperators.Group.Finset
import TrellisTagger.Proofs.Counting

/-!
# Tables and the writes they come from

A table that pairs have been written to, one after another, lists the keys in the order in which
they were first written, each with the value written last. This file also counts the pairs of keys
in a table of tables.

## Main definitions

* `TrellisTagger.Table.nested` — the table of tables that triples have been written to.

## Main results

* `TrellisTagger.Table.keys_ofList`, `TrellisTagger.Table.get?_ofList` — what is left of a list of
  writes.
* `TrellisTagger.Table.getD_nested` — what is left of a list of writes in a row of a table of
  tables.
* `TrellisTagger.Table.sum_size_nested` — the sizes of the rows add up to the number of pairs of
  keys.
-/

namespace TrellisTagger

universe u v w

variable {K : Type u} {L : Type v} {V : Type w} [DecidableEq K] [DecidableEq L]

/-- A list without its repetitions has as many elements as there are different ones. -/
lemma length_distinct (l : List K) : (distinct l).length = l.toFinset.card := by
  rw [List.card_toFinset]
  exact (distinct_perm_dedup l).length_eq

namespace Table

omit [DecidableEq K] in
/-- There are as many keys as the size says. -/
lemma length_keys (t : Table K V) : t.keys.length = t.size := List.length_map _

/-! ### Writes -/

/-- The last pair of a list is written last. -/
lemma ofList_concat (l : List (K × V)) (e : K × V) :
    ofList (l ++ [e]) = (ofList l).insert e.1 e.2 :=
  List.foldl_concat _ _ _ _

/-- **The keys stand in the order in which they were first written.** -/
theorem keys_ofList (l : List (K × V)) : (ofList l).keys = distinct (l.map Prod.fst) := by
  induction l using List.reverseRecOn with
  | nil => rfl
  | append_singleton l e ih =>
    rw [ofList_concat, keys_insert, ih, List.map_append, List.map_cons, List.map_nil,
      distinct_concat]
    simp only [mem_distinct]

/-- **A reader sees the value that was written last.** -/
theorem get?_ofList (l : List (K × V)) (k : K) :
    (ofList l).get? k = ((l.filter fun e => e.1 = k).getLast?).map Prod.snd := by
  induction l using List.reverseRecOn with
  | nil => rfl
  | append_singleton l e ih =>
    rw [ofList_concat, get?_insert, List.filter_append]
    by_cases he : e.1 = k
    · simp [he]
    · simp [he, ih]

/-! ### Tables of tables -/

/-- Write triples one after another: the third part of each, under the first part and the second. -/
def nested (l : List (K × L × V)) : Table K (Table L V) :=
  l.foldl (fun t e => t.modifyD e.1 ∅ (·.insert e.2.1 e.2.2)) ∅

/-- The last triple of a list is written last. -/
lemma nested_concat (l : List (K × L × V)) (e : K × L × V) :
    nested (l ++ [e]) = (nested l).modifyD e.1 ∅ (·.insert e.2.1 e.2.2) := List.foldl_concat _ _ _ _

/-- The rows are listed by the first parts of the triples, without repetitions. -/
lemma keys_nested (l : List (K × L × V)) : (nested l).keys = distinct (l.map Prod.fst) := by
  induction l using List.reverseRecOn with
  | nil => rfl
  | append_singleton l e ih =>
    rw [nested_concat, modifyD, keys_insert, ih, List.map_append, List.map_cons, List.map_nil,
      distinct_concat]
    simp only [mem_distinct]

/-- **A row is made from what was written under its key.** -/
theorem getD_nested (l : List (K × L × V)) (k : K) : (nested l).getD k ∅ = ofList (under k l) := by
  induction l using List.reverseRecOn with
  | nil => rfl
  | append_singleton l e ih =>
    rw [nested_concat, getD_modifyD, under, List.filter_append, List.map_append, ← under]
    by_cases he : e.1 = k
    · subst he
      simp [ih, ofList_concat]
    · simp [he, ih]

/-- **The sizes of the rows add up to the number of pairs of keys.**

**Proof sketch.** The pairs are counted by their first part. Those with one first part are as many
as the keys of its row. -/
theorem sum_size_nested (l : List (K × L × V)) :
    ((nested l).values.map size).sum = (l.map fun e => (e.1, e.2.1)).toFinset.card := by
  set pairs : Finset (K × L) := (l.map fun e => (e.1, e.2.1)).toFinset with hpairs
  have hrow : ∀ k, ((nested l).getD k ∅).size = {p ∈ pairs | p.1 = k}.card := by
    intro k
    have hunder : ((under k l).map Prod.fst).toFinset = {p ∈ pairs | p.1 = k}.image Prod.snd := by
      ext b
      simp [under, hpairs]
    rw [getD_nested, ← length_keys, keys_ofList, length_distinct, hunder,
      Finset.card_image_of_injOn]
    intro p hp q hq hpq
    simp only [Finset.coe_filter, Set.mem_ofPred_eq] at hp hq
    exact Prod.ext (hp.2.trans hq.2.symm) hpq
  have hkeys : (nested l).keys.toFinset = pairs.image Prod.fst := by
    ext k
    simp [keys_nested, hpairs]
  have hnodup : (nested l).keys.Nodup := (nested l).keys_nodup
  calc ((nested l).values.map size).sum
      = ((nested l).keys.map fun k => ((nested l).getD k ∅).size).sum := by
        rw [values_eq_map_keys _ ∅, List.map_map]
        rfl
    _ = ∑ k ∈ pairs.image Prod.fst, ((nested l).getD k ∅).size := by
        rw [← hkeys, List.sum_toFinset _ hnodup]
    _ = ∑ k ∈ pairs.image Prod.fst, {p ∈ pairs | p.1 = k}.card := by simp only [hrow]
    _ = pairs.card := (Finset.card_eq_sum_card_image Prod.fst pairs).symm

end Table

end TrellisTagger

import Mathlib.Algebra.BigOperators.Group.List.Lemmas
import Mathlib.Algebra.BigOperators.Ring.Finset
import Mathlib.Data.List.Dedup
import Mathlib.Data.List.Induction
import Mathlib.Tactic.Lemma
import TrellisTagger.Frequency

/-!
# What tallies count

A tally is built event by event. This file says what it holds in the end: the events without
repetitions, in order of first occurrence, each with the number of its occurrences. Tables of
relative frequencies hold the quotients of these numbers.

## Main definitions

* `TrellisTagger.under` — the events that occur under a condition.

## Main results

* `TrellisTagger.keys_tally`, `TrellisTagger.getD_tally`, `TrellisTagger.total_tally` — the events
  of a tally, their counts, and the sum of the counts.
* `TrellisTagger.keys_crossTally`, `TrellisTagger.getD_crossTally` — under each condition stands the
  tally of the events under it.
* `TrellisTagger.get?_relativeFrequencies` — each event that occurs has its count divided by the
  number of events.

## Design

Everything is said about lists of events. Whether a table was made from one list or another, and in
how many steps, does not matter to those who read it.
-/

namespace TrellisTagger

universe u v w

variable {α : Type u} {κ : Type v} [DecidableEq α] [DecidableEq κ]

/-! ### First occurrences -/

/-- One more element comes last if it is new, and changes nothing if not. -/
lemma distinct_concat (l : List α) (a : α) :
    distinct (l ++ [a]) = if a ∈ l then distinct l else distinct l ++ [a] := by
  induction l with
  | nil => rfl
  | cons b l ih =>
    have hcons : ∀ l', distinct (b :: l') = b :: (distinct l').filter fun c => c ≠ b := fun _ => rfl
    rw [List.cons_append, hcons, ih, hcons]
    by_cases hb : a = b
    · subst hb
      by_cases hl : a ∈ l
      · simp [hl]
      · simp [hl, List.filter_append]
    · by_cases hl : a ∈ l
      · simp [hl]
      · simp [hl, hb, List.filter_append]

/-- The keys of first occurrences are the keys without repetitions. -/
lemma map_distinctBy {β : Type w} (key : β → α) (l : List β) :
    (distinctBy key l).map key = distinct (l.map key) := by
  induction l with
  | nil => rfl
  | cons b l ih =>
    rw [distinctBy, List.map_cons, List.map_cons, distinct, distinctBy, ← distinct, ← ih,
      List.filter_map]
    rfl

/-- First occurrences are some of the elements, in their order. -/
lemma distinctBy_sublist {β : Type w} (key : β → α) (l : List β) :
    (distinctBy key l).Sublist l := by
  induction l with
  | nil => exact .slnil
  | cons b l ih => exact .cons_cons b (List.filter_sublist.trans ih)

/-- The distinct elements are those without duplicates, up to order. -/
lemma distinct_perm_dedup (l : List α) : (distinct l).Perm l.dedup :=
  (List.perm_ext_iff_of_nodup (nodup_distinct l) l.nodup_dedup).2 fun a => by
    rw [mem_distinct, List.mem_dedup]

/-- Only an empty list has no distinct elements. -/
lemma distinct_eq_nil_iff {l : List α} : distinct l = [] ↔ l = [] := by
  cases l with
  | nil => exact ⟨fun _ => rfl, fun _ => rfl⟩
  | cons a l => simp [distinct, distinctBy]

/-- Nothing is left out of a list without repetitions. -/
lemma distinct_of_nodup {l : List α} (h : l.Nodup) : distinct l = l := by
  induction l using List.reverseRecOn with
  | nil => rfl
  | append_singleton l a ih =>
    obtain ⟨hl, -, hdisjoint⟩ := List.nodup_append.1 h
    have ha : a ∉ l := fun ha => hdisjoint a ha a (List.mem_singleton.2 rfl) rfl
    rw [distinct_concat, if_neg ha, ih hl]

/-- Elements that have occurred before change nothing. -/
lemma distinct_append_of_subset {l l' : List α} (h : l' ⊆ l) : distinct (l ++ l') = distinct l := by
  induction l' using List.reverseRecOn with
  | nil => rw [List.append_nil]
  | append_singleton l' a ih =>
    obtain ⟨hl', ha⟩ := List.append_subset.1 h
    have hmem : a ∈ l ++ l' := List.mem_append_left _ (ha (List.mem_singleton.2 rfl))
    rw [← List.append_assoc, distinct_concat, if_pos hmem, ih hl']

/-- A list that comes several times is met the first time. -/
lemma distinct_flatMap_const {β : Type w} {l : List β} (h : l ≠ []) (l' : List α) :
    distinct (l.flatMap fun _ => l') = distinct l' := by
  obtain ⟨b, l, rfl⟩ := List.exists_cons_of_ne_nil h
  rw [List.flatMap_cons, distinct_append_of_subset]
  intro a ha
  obtain ⟨-, -, ha⟩ := List.mem_flatMap.1 ha
  exact ha

/-! ### Tallies -/

/-- A further event is counted once more. -/
lemma tally_concat (l : List α) (a : α) :
    tally (l ++ [a]) = (tally l).modifyD a 0 (· + 1) := List.foldl_concat _ _ _ _

/-- A tally lists the events without repetitions. -/
theorem keys_tally (l : List α) : (tally l).keys = distinct l := by
  induction l using List.reverseRecOn with
  | nil => rfl
  | append_singleton l a ih =>
    rw [tally_concat, Table.modifyD, Table.keys_insert, ih, distinct_concat]
    simp only [mem_distinct]

/-- A tally counts the occurrences of each event. -/
theorem getD_tally (l : List α) (a : α) : (tally l).getD a 0 = l.count a := by
  induction l using List.reverseRecOn with
  | nil => rfl
  | append_singleton l b ih =>
    rw [tally_concat, Table.getD_modifyD, List.count_append]
    by_cases hb : b = a
    · subst hb
      simp [ih]
    · simp [hb, ih]

/-- A tally has the events that occur, and no other. -/
lemma get?_tally (l : List α) (a : α) :
    (tally l).get? a = if a ∈ l then some (l.count a : Int) else none := by
  split
  · rename_i h
    rw [← mem_distinct, ← keys_tally] at h
    obtain ⟨n, hn⟩ := Table.mem_keys_iff.1 h
    rw [hn, ← getD_tally, Table.getD_of_get? hn]
  · rename_i h
    rw [← mem_distinct, ← keys_tally] at h
    exact Table.get?_eq_none_iff.2 h

/-- The counts of different events add up to the number of events. -/
lemma sum_count_distinct (l : List α) :
    ((distinct l).map fun a => (l.count a : Int)).sum = l.length := by
  -- the counts of a list without its repetitions add up to its length, in any order
  have hperm := ((distinct_perm_dedup l).map fun a => (l.count a : Int)).sum_eq
  have hsum : ((l.dedup.map fun a => (l.count a : Int))).sum =
      ((l.dedup.map l.count).sum : Nat) := by
    rw [Nat.cast_list_sum, List.map_map]
    rfl
  rw [hperm, hsum, List.sum_map_count_dedup_eq_length]

/-- The counts of a tally add up to the number of events. -/
theorem total_tally (l : List α) : (tally l).total = l.length := by
  have hvalues : (tally l).values = (distinct l).map fun a => (l.count a : Int) := by
    rw [Table.values_eq_map_keys _ 0, keys_tally]
    exact List.map_congr_left fun a _ => getD_tally l a
  rw [Table.total, ← List.sum_eq_foldr, hvalues, sum_count_distinct]

/-! ### Tallies under conditions -/

/-- The events that occur under a condition. -/
def under (k : κ) (events : List (κ × α)) : List α := (events.filter fun e => e.1 = k).map Prod.snd

omit [DecidableEq α] in
/-- An event occurs under a condition just if the two occur together. -/
lemma mem_under {k : κ} {events : List (κ × α)} {a : α} : a ∈ under k events ↔ (k, a) ∈ events := by
  simp [under]

omit [DecidableEq α] in
/-- An event occurs under a condition as often as the two occur together. -/
lemma count_under [BEq α] [LawfulBEq α] [BEq (κ × α)] [LawfulBEq (κ × α)] (k : κ)
    (events : List (κ × α)) (a : α) : (under k events).count a = events.count (k, a) := by
  rw [under, List.count, List.countP_map, List.countP_filter]
  refine List.countP_congr fun e _ => ?_
  simp [Prod.ext_iff, and_comm]

omit [DecidableEq α] in
/-- There are as many events under a condition as the condition has occurrences. -/
lemma length_under [BEq κ] [LawfulBEq κ] (k : κ) (events : List (κ × α)) :
    (under k events).length = (events.map Prod.fst).count k := by
  rw [under, List.length_map, ← List.countP_eq_length_filter, List.count, List.countP_map]
  refine List.countP_congr fun e _ => ?_
  simp

/-- A further event is counted once more under its condition. -/
lemma crossTally_concat (events : List (κ × α)) (e : κ × α) :
    crossTally (events ++ [e]) =
      (crossTally events).modifyD e.1 ∅ fun row => row.modifyD e.2 0 (· + 1) :=
  List.foldl_concat _ _ _ _

/-- The conditions are listed without repetitions. -/
theorem keys_crossTally (events : List (κ × α)) :
    (crossTally events).keys = distinct (events.map Prod.fst) := by
  induction events using List.reverseRecOn with
  | nil => rfl
  | append_singleton events e ih =>
    rw [crossTally_concat, Table.modifyD, Table.keys_insert, ih, List.map_append, List.map_cons,
      List.map_nil, distinct_concat]
    simp only [mem_distinct]

/-- **Under each condition stands the tally of the events under it.** -/
theorem getD_crossTally (events : List (κ × α)) (k : κ) :
    (crossTally events).getD k ∅ = tally (under k events) := by
  induction events using List.reverseRecOn with
  | nil => rfl
  | append_singleton events e ih =>
    rw [crossTally_concat, Table.getD_modifyD, under, List.filter_append, List.map_append, ← under]
    by_cases he : e.1 = k
    · subst he
      simp [ih, tally_concat]
    · simp [he, ih]

/-- A condition that occurs has the tally of the events under it, and no other condition has one. -/
theorem get?_crossTally (events : List (κ × α)) (k : κ) :
    (crossTally events).get? k =
      if k ∈ events.map Prod.fst then some (tally (under k events)) else none := by
  split
  · rename_i h
    rw [← mem_distinct, ← keys_crossTally] at h
    obtain ⟨row, hrow⟩ := Table.mem_keys_iff.1 h
    rw [hrow, ← getD_crossTally, Table.getD_of_get? hrow]
  · rename_i h
    rw [← mem_distinct, ← keys_crossTally] at h
    exact Table.get?_eq_none_iff.2 h

/-- The rows hold the events under each condition, with the numbers of their occurrences. -/
lemma mem_entries_crossTally {events : List (κ × α)} {k : κ} {a : α} {n : Int} :
    (∃ row, (k, row) ∈ (crossTally events).entries ∧ (a, n) ∈ row.entries) ↔
      (k, a) ∈ events ∧ n = (under k events).count a := by
  simp only [← Table.get?_eq_some_iff, get?_crossTally]
  constructor
  · rintro ⟨row, hrow, hn⟩
    split at hrow
    · obtain rfl := Option.some.inj hrow
      rw [get?_tally] at hn
      split at hn
      · rename_i h
        exact ⟨mem_under.1 h, (Option.some.inj hn).symm⟩
      · cases hn
    · cases hrow
  · rintro ⟨h, rfl⟩
    refine ⟨tally (under k events), if_pos (List.mem_map_of_mem h), ?_⟩
    rw [get?_tally, if_pos (mem_under.2 h)]

/-- The counts of all rows add up to the number of events. -/
lemma sum_total_crossTally (events : List (κ × α)) :
    ((crossTally events).values.map Table.total).sum = events.length := by
  have hrow : ∀ k, ((crossTally events).getD k ∅).total = (events.map Prod.fst).count k := by
    intro k
    rw [getD_crossTally, total_tally, length_under]
  rw [Table.values_eq_map_keys _ ∅, keys_crossTally, List.map_map, Function.comp_def]
  simp only [hrow]
  rw [sum_count_distinct, List.length_map]

/-! ### Frequencies -/

section Frequencies

variable {P : Type w} [Probability P]

/-- Without events there are no frequencies; else each count is divided by the number of events. -/
lemma relativeFrequencies_tally (l : List α) :
    (relativeFrequencies (tally l) : Table α P) =
      if l = [] then ∅ else (tally l).mapValues fun _ n => ratio n l.length := by
  simp only [relativeFrequencies, total_tally, Int.natCast_eq_zero, List.length_eq_zero_iff]

/-- Every event that occurs has a frequency, and no other. -/
theorem keys_relativeFrequencies (l : List α) :
    (relativeFrequencies (tally l) : Table α P).keys = distinct l := by
  rw [relativeFrequencies_tally]
  split
  · rename_i h
    rw [h]
    rfl
  · rw [Table.keys_mapValues, keys_tally]

/-- **The frequency of an event** is the quotient of its count and the number of events. -/
theorem get?_relativeFrequencies (l : List α) (a : α) :
    (relativeFrequencies (tally l) : Table α P).get? a =
      if a ∈ l then some (ratio (l.count a) l.length) else none := by
  rw [relativeFrequencies_tally]
  split
  · rename_i hnil
    rw [hnil]
    rfl
  · rw [Table.get?_mapValues, get?_tally]
    split <;> rfl

/-- The conditions under which there are frequencies are those that occur. -/
theorem keys_conditionalFrequencies (events : List (κ × α)) :
    (conditionalFrequencies (crossTally events) : Table κ (Table α P)).keys =
      distinct (events.map Prod.fst) := by
  rw [conditionalFrequencies, Table.keys_mapValues, keys_crossTally]

/-- Under a condition stand the frequencies of the events under it. -/
theorem get?_conditionalFrequencies (events : List (κ × α)) (k : κ) :
    (conditionalFrequencies (crossTally events) : Table κ (Table α P)).get? k =
      if k ∈ events.map Prod.fst then some (relativeFrequencies (tally (under k events)))
      else none := by
  rw [conditionalFrequencies, Table.get?_mapValues, get?_crossTally]
  split <;> rfl

omit [DecidableEq α] in
/-- A row of frequencies is made from the counts of the row; where there is none, there are no
frequencies. -/
lemma row_conditionalFrequencies (counts : Table κ (Table α Int)) (k : κ) :
    (conditionalFrequencies counts : Table κ (Table α P)).getD k ∅ =
      relativeFrequencies (counts.getD k ∅) := by
  rw [conditionalFrequencies, Table.getD, Table.get?_mapValues, Table.getD]
  cases counts.get? k <;> rfl

/-- A condition that does not occur has no frequencies under it. -/
theorem getD_conditionalFrequencies (events : List (κ × α)) (k : κ) :
    (conditionalFrequencies (crossTally events) : Table κ (Table α P)).getD k ∅ =
      relativeFrequencies (tally (under k events)) := by
  rw [row_conditionalFrequencies, getD_crossTally]

end Frequencies

end TrellisTagger

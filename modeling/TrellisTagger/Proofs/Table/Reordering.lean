import Mathlib.Data.List.Perm.Basic
import TrellisTagger.Proofs.Counting

/-!
# Tables up to order

Two tables can hold the same under every key and still list the keys in different orders. Whoever
only looks keys up cannot tell them apart, and sums over them are the same. Tallies of the same
events, seen in different orders, are such tables.

## Main definitions

* `TrellisTagger.Table.Same` — tables that hold the same under every key.
* `TrellisTagger.Table.SameRows` — tables of tables of which the rows hold the same.

## Main results

* `TrellisTagger.Table.same_iff_perm` — tables hold the same if they list the same entries, in any
  order.
* `TrellisTagger.Table.SameRows.perm_flatMap` — what is made of the entries of all rows is the same
  up to order.
* `TrellisTagger.same_tally`, `TrellisTagger.sameRows_crossTally` — the order of events decides
  nothing but the order of keys.
* `TrellisTagger.Table.Same.relativeFrequencies`,
  `TrellisTagger.Table.SameRows.conditionalFrequencies` — neither does the order of keys decide
  about frequencies.
-/

namespace TrellisTagger

universe u v w

variable {K : Type u} {L : Type v} {V : Type w} [DecidableEq K] [DecidableEq L]

namespace Table

/-! ### Tables that hold the same -/

/-- Two tables hold the same under every key. They may list the keys in different orders. -/
def Same (t t' : Table K V) : Prop := ∀ k, t.get? k = t'.get? k

/-- Two tables of tables have rows under the same keys, and these hold the same. -/
structure SameRows (t t' : Table K (Table L V)) : Prop where
  /-- There are rows under the same keys. -/
  mem_keys_iff {k : K} : k ∈ t.keys ↔ k ∈ t'.keys
  /-- The rows under a key hold the same. -/
  getD (k : K) : Same (t.getD k ∅) (t'.getD k ∅)

/-- A table holds the same as itself. -/
lemma Same.refl (t : Table K V) : Same t t := fun _ => rfl

omit [DecidableEq K] in
/-- No entry occurs twice. -/
lemma nodup_entries (t : Table K V) : t.entries.Nodup := .of_map _ t.keys_nodup

/-- **Tables hold the same just if they list the same entries**, in any order. -/
theorem same_iff_perm {t t' : Table K V} : Same t t' ↔ t.entries.Perm t'.entries := by
  rw [List.perm_ext_iff_of_nodup t.nodup_entries t'.nodup_entries]
  constructor
  · rintro h ⟨k, v⟩
    rw [← get?_eq_some_iff, ← get?_eq_some_iff, h]
  · intro h k
    ext v
    rw [get?_eq_some_iff, get?_eq_some_iff, h]

/-- What is read under a key does not depend on the default. -/
lemma getD_of_mem_keys {t : Table K V} {k : K} (h : k ∈ t.keys) (d d' : V) :
    t.getD k d = t.getD k d' := by
  obtain ⟨v, hv⟩ := mem_keys_iff.1 h
  rw [getD_of_get? hv, getD_of_get? hv]

namespace Same

variable {t t' : Table K V}

/-- What is read with a default is the same. -/
lemma getD (h : Same t t') (k : K) (d : V) : t.getD k d = t'.getD k d := by
  rw [Table.getD, h, ← Table.getD]

/-- The keys are the same, up to order. -/
lemma keys_perm (h : Same t t') : t.keys.Perm t'.keys := (same_iff_perm.1 h).map _

/-- A function of the values leaves tables the same that hold the same. -/
lemma mapValues {V' : Type*} (h : Same t t') (f : K → V → V') :
    Same (t.mapValues f) (t'.mapValues f) := by
  intro k
  rw [get?_mapValues, get?_mapValues, h]

/-- The order of counts does not matter to their sum. -/
lemma total {t t' : Table K Int} (h : Same t t') : t.total = t'.total := by
  rw [Table.total, Table.total, ← List.sum_eq_foldr, ← List.sum_eq_foldr]
  exact ((same_iff_perm.1 h).map _).sum_eq

end Same

namespace SameRows

variable {t t' : Table K (Table L V)}

/-- The keys of the rows are the same, up to order. -/
lemma keys_perm (h : SameRows t t') : t.keys.Perm t'.keys :=
  (List.perm_ext_iff_of_nodup t.keys_nodup t'.keys_nodup).2 fun _ => h.mem_keys_iff

/-- **What is made of the entries of all rows is the same up to order.** -/
theorem perm_flatMap {γ : Type*} (h : SameRows t t') (f : K → L × V → γ) :
    (t.entries.flatMap fun e => e.2.entries.map (f e.1)).Perm
      (t'.entries.flatMap fun e => e.2.entries.map (f e.1)) := by
  rw [t.entries_eq_map_keys ∅, t'.entries_eq_map_keys ∅, List.flatMap_map, List.flatMap_map]
  calc (t.keys.flatMap fun k => (t.getD k ∅).entries.map (f k)).Perm
        (t'.keys.flatMap fun k => (t.getD k ∅).entries.map (f k)) := h.keys_perm.flatMap_right _
    List.Perm _ (t'.keys.flatMap fun k => (t'.getD k ∅).entries.map (f k)) :=
        .flatMap_left _ fun k _ => (same_iff_perm.1 (h.getD k)).map _

end SameRows

end Table

open Table

/-! ### Tallies of reordered events -/

section Events

variable {α : Type u} {κ : Type v} [DecidableEq α] [DecidableEq κ]

/-- Reordered events have the same counts. -/
lemma same_tally {l l' : List α} (h : l.Perm l') : Same (tally l) (tally l') := by
  intro a
  simp only [get?_tally, h.mem_iff, h.count_eq]

omit [DecidableEq α] in
/-- Reordered events are the same under each condition, up to order. -/
lemma under_perm {events events' : List (κ × α)} (h : events.Perm events') (k : κ) :
    (under k events).Perm (under k events') := (h.filter _).map _

/-- **The order of events decides nothing but the order of keys**, of conditions and of what occurs
under them. -/
theorem sameRows_crossTally {events events' : List (κ × α)} (h : events.Perm events') :
    SameRows (crossTally events) (crossTally events') := by
  refine ⟨?_, fun k => ?_⟩
  · simp only [keys_crossTally, mem_distinct, (h.map Prod.fst).mem_iff, implies_true]
  · rw [getD_crossTally, getD_crossTally]
    exact same_tally (under_perm h k)

end Events

/-! ### Frequencies -/

section Frequencies

variable {P : Type*} [Probability P]

/-- Shares of counts are taken of their sum, which does not depend on the order. -/
lemma Table.Same.relativeFrequencies {t t' : Table K Int} (h : Same t t') :
    Same (relativeFrequencies t : Table K P) (relativeFrequencies t') := by
  rw [TrellisTagger.relativeFrequencies, TrellisTagger.relativeFrequencies, h.total]
  split
  · exact .refl _
  · exact h.mapValues _

/-- Rows of counts that hold the same give rows of frequencies that do. -/
lemma Table.SameRows.conditionalFrequencies {t t' : Table K (Table L Int)} (h : SameRows t t') :
    SameRows (conditionalFrequencies t : Table K (Table L P)) (conditionalFrequencies t') := by
  refine ⟨?_, fun k => ?_⟩
  · rw [TrellisTagger.conditionalFrequencies, TrellisTagger.conditionalFrequencies, keys_mapValues,
      keys_mapValues]
    exact h.mem_keys_iff
  · rw [row_conditionalFrequencies, row_conditionalFrequencies]
    exact (h.getD k).relativeFrequencies

end Frequencies

end TrellisTagger

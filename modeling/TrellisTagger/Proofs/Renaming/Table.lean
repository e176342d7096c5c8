import Mathlib.Logic.Embedding.Basic
import TrellisTagger.Choice
import TrellisTagger.Proofs.Table

/-!
# Tables under renamed keys

If the keys of a table are renamed so that different keys stay different, the table is the same
table under other names: its operations give renamed results for renamed keys, in the same order.
The same goes for lists of events, their first occurrences and their tallies, and for choices by
weight.

## Main definitions

* `TrellisTagger.Table.map` — rename the keys of a table and apply a function to the values.

## Main results

* `TrellisTagger.Table.get?_map`, `TrellisTagger.Table.insert_map`,
  `TrellisTagger.Table.modifyD_map`, `TrellisTagger.Table.ofList_map` — operations on a renamed
  table.
* `TrellisTagger.distinctBy_map`, `TrellisTagger.tally_map`, `TrellisTagger.crossTally_map` — first
  occurrences and tallies of renamed events.
* `TrellisTagger.relativeFrequencies_map`, `TrellisTagger.conditionalFrequencies_map` — frequencies
  of renamed events.
* `TrellisTagger.firstMax?_map` — choosing from renamed candidates.
-/

namespace TrellisTagger

variable {K L V W : Type*}

namespace Table

/-- Rename the keys and apply a function to the values. The order stays. -/
def map (f : K ↪ L) (g : V → W) (t : Table K V) : Table L W :=
  ⟨t.entries.map (Prod.map f g), by
    have hkeys : (t.entries.map (Prod.map f g)).map Prod.fst = (t.entries.map Prod.fst).map f := by
      simp [List.map_map, Function.comp_def]
    rw [hkeys]
    exact t.keys_nodup.map f.injective⟩

variable (f : K ↪ L) (g : V → W)

/-! ### Listing -/

/-- The entries of a renamed table are the renamed entries. -/
@[simp] lemma entries_map (t : Table K V) :
    (t.map f g).entries = t.entries.map (Prod.map f g) := rfl

/-- The keys of a renamed table are the renamed keys, in the same order. -/
@[simp] lemma keys_map (t : Table K V) : (t.map f g).keys = t.keys.map f := by
  simp [keys, List.map_map, Function.comp_def]

/-- The values of a renamed table are the renamed values, in the same order. -/
@[simp] lemma values_map (t : Table K V) : (t.map f g).values = t.values.map g := by
  simp [values, List.map_map, Function.comp_def]

/-- Renaming leaves the number of keys as it is. -/
@[simp] lemma size_map (t : Table K V) : (t.map f g).size = t.size := by
  simp [size]

/-- A table without entries stays one under renaming. -/
@[simp] lemma map_empty : (∅ : Table K V).map f g = ∅ := rfl

variable {f g}

/-- Values may be computed before or after renaming. -/
lemma mapValues_map {X Y : Type*} {h : K → V → X} {h' : L → W → Y} {g' : X → Y}
    (heq : ∀ k v, h' (f k) (g v) = g' (h k v)) (t : Table K V) :
    (t.map f g).mapValues h' = (t.mapValues h).map f g' := by
  apply Table.ext
  simp [mapValues, List.map_map, Function.comp_def, heq]

/-- Entries may be tested before or after renaming. -/
lemma filter_map {p : K → V → Bool} {p' : L → W → Bool} (heq : ∀ k v, p' (f k) (g v) = p k v)
    (t : Table K V) : (t.map f g).filter p' = (t.filter p).map f g := by
  apply Table.ext
  simp [filter, List.filter_map, Function.comp_def, heq]

/-! ### Look-up and change -/

variable [DecidableEq K] [DecidableEq L]

/-- What is held under a renamed key is the renamed value. -/
@[simp] lemma get?_map (f : K ↪ L) (g : V → W) (t : Table K V) (k : K) :
    (t.map f g).get? (f k) = (t.get? k).map g := by
  rw [get?, get?, entries_map, List.find?_map]
  simp [Function.comp_def, f.injective.eq_iff]

/-- What is read under a renamed key is the renamed value, if the default is renamed, too. -/
lemma getD_map {d : V} {d' : W} (hd : g d = d') (t : Table K V) (k : K) :
    (t.map f g).getD (f k) d' = g (t.getD k d) := by
  rw [getD, getD, get?_map, ← hd, Option.getD_map]

/-- Under a renamed key the same value is read if only keys are renamed. -/
lemma getD_map_id (f : K ↪ L) (t : Table K V) (k : K) (d : V) :
    (t.map f id).getD (f k) d = t.getD k d :=
  getD_map (g := id) rfl t k

/-- Looking up twice in a table of tables whose keys are renamed on both levels. -/
lemma getD_getD_map {A B : Type*} [DecidableEq A] [DecidableEq B] (f : A ↪ B) (f' : K ↪ L)
    (t : Table A (Table K V)) (a : A) (k : K) (d : V) :
    ((t.map f (map f' id)).getD (f a) ∅).getD (f' k) d = (t.getD a ∅).getD k d := by
  have hrow : (t.map f (map f' id)).getD (f a) ∅ = (t.getD a ∅).map f' id :=
    getD_map (g := map f' id) (d := ∅) rfl t a
  rw [hrow, getD_map_id]

/-- A renamed key has been written just if the key has been written. -/
@[simp] lemma contains_map (f : K ↪ L) (g : V → W) (t : Table K V) (k : K) :
    (t.map f g).contains (f k) = t.contains k := by
  simp [contains]

/-- A pair may be written to a list before or after renaming. -/
private lemma put_map (f : K ↪ L) (g : V → W) (k : K) (v : V) (l : List (K × V)) :
    put (f k) (g v) (l.map (Prod.map f g)) = (put k v l).map (Prod.map f g) := by
  induction l with
  | nil => rfl
  | cons e l ih =>
    by_cases he : e.1 = k
    · simp [put, he]
    · have hne : ¬ f e.1 = f k := fun heq => he (f.injective heq)
      simp [put, he, hne, ih]

/-- A value may be written under a key before or after renaming. -/
lemma insert_map (f : K ↪ L) (g : V → W) (t : Table K V) (k : K) (v : V) :
    (t.map f g).insert (f k) (g v) = (t.insert k v).map f g :=
  Table.ext (put_map f g k v t.entries)

/-- A value may be changed before or after renaming, if the change agrees with it. -/
lemma modifyD_map {d : V} {d' : W} {h : V → V} {h' : W → W} (hd : g d = d')
    (hh : ∀ v, g (h v) = h' (g v)) (t : Table K V) (k : K) :
    (t.map f g).modifyD (f k) d' h' = (t.modifyD k d h).map f g := by
  rw [modifyD, modifyD, getD_map hd, ← hh, insert_map]

/-- A table may be made of pairs before or after renaming. -/
lemma ofList_map (f : K ↪ L) (g : V → W) (l : List (K × V)) :
    ofList (l.map (Prod.map f g)) = (ofList l).map f g := by
  induction l using List.reverseRecOn with
  | nil => rfl
  | append_singleton l e ih =>
    rw [List.map_append, List.map_cons, List.map_nil, ofList_concat, ofList_concat, ih]
    exact insert_map f g _ _ _

end Table

/-! ### First occurrences -/

section Occurrences

variable {α β : Type*} {κ κ' : Type*} [DecidableEq κ] [DecidableEq κ']

/-- First occurrences of renamed elements, where equal keys stay equal and different ones
different. -/
lemma distinctBy_map {key : α → κ} {key' : β → κ'} {φ : α → β} {f : κ ↪ κ'} {l : List α}
    (h : ∀ a ∈ l, key' (φ a) = f (key a)) :
    distinctBy key' (l.map φ) = (distinctBy key l).map φ := by
  induction l with
  | nil => rfl
  | cons a l ih =>
    rw [List.forall_mem_cons] at h
    rw [List.map_cons, distinctBy, distinctBy, ih h.2, List.map_cons, List.filter_map]
    congr 2
    refine List.filter_congr fun b hb => ?_
    simp only [Function.comp_apply, h.1, h.2 b (mem_of_mem_distinctBy hb), ne_eq,
      f.injective.eq_iff]

/-- Elements may be told apart before or after renaming. -/
lemma distinct_map (f : κ ↪ κ') (l : List κ) : distinct (l.map f) = (distinct l).map f :=
  distinctBy_map (f := f) fun _ _ => rfl

end Occurrences

/-! ### Tallies and frequencies -/

section Tallies

variable [DecidableEq K] [DecidableEq L]

/-- **The tally of renamed events** is the renamed tally. -/
theorem tally_map (f : K ↪ L) (l : List K) : tally (l.map f) = (tally l).map f id := by
  induction l using List.reverseRecOn with
  | nil => rfl
  | append_singleton l a ih =>
    rw [List.map_append, List.map_cons, List.map_nil, tally_concat, tally_concat, ih]
    exact Table.modifyD_map (g := id) (d := 0) (h := (· + 1)) rfl (fun _ => rfl) (tally l) a

/-- **The tallies of events under conditions**, where events and conditions are renamed. -/
theorem crossTally_map {A B : Type*} [DecidableEq A] [DecidableEq B] (f : A ↪ B) (g : K ↪ L)
    (events : List (A × K)) :
    crossTally (events.map (Prod.map f g)) = (crossTally events).map f (Table.map g id) := by
  induction events using List.reverseRecOn with
  | nil => rfl
  | append_singleton events e ih =>
    rw [List.map_append, List.map_cons, List.map_nil, crossTally_concat, crossTally_concat, ih]
    have hrow : ∀ row : Table K Int, (row.modifyD e.2 0 (· + 1)).map g id =
        (row.map g id).modifyD (g e.2) 0 (· + 1) := fun row =>
      (Table.modifyD_map (g := id) (d := 0) (h := (· + 1)) rfl (fun _ => rfl) row e.2).symm
    exact Table.modifyD_map (g := Table.map g id) (d := ∅) rfl hrow (crossTally events) e.1

variable {P : Type*} [Probability P]

omit [DecidableEq K] [DecidableEq L] in
/-- Renamed keys have the relative frequencies that they had before. -/
lemma relativeFrequencies_map (f : K ↪ L) (counts : Table K Int) :
    (relativeFrequencies (counts.map f id) : Table L P) =
      (relativeFrequencies counts).map f id := by
  have htotal : (counts.map f id).total = counts.total := by simp [Table.total]
  simp only [relativeFrequencies, htotal]
  split
  · rfl
  · exact Table.mapValues_map (fun _ _ => rfl) _

omit [DecidableEq K] [DecidableEq L] in
/-- Renamed keys have the conditional frequencies that they had before. -/
lemma conditionalFrequencies_map {A B : Type*} (f : A ↪ B) (g : K ↪ L)
    (counts : Table A (Table K Int)) :
    (conditionalFrequencies (counts.map f (Table.map g id)) : Table B (Table L P)) =
      (conditionalFrequencies counts).map f (Table.map g id) :=
  Table.mapValues_map (f := f) (g := Table.map g id)
    (fun _ row => relativeFrequencies_map (P := P) g row) counts

end Tallies

/-! ### Choices -/

/-- **Choosing by weight** does not look at anything but the weights and the order. -/
theorem firstMax?_map {α β : Type*} {W : Type*} [LT W] [DecidableLT W] {weight : α → W}
    {weight' : β → W} {φ : α → β} (h : ∀ a, weight' (φ a) = weight a) (l : List α) :
    firstMax? weight' (l.map φ) = (firstMax? weight l).map φ := by
  cases l with
  | nil => rfl
  | cons a l =>
    have hkeep : ∀ kept b, keepGreater weight' (φ kept) (φ b) = φ (keepGreater weight kept b) := by
      intro kept b
      simp only [keepGreater, h]
      split <;> rfl
    rw [List.map_cons, firstMax?, firstMax?, Option.map_some, List.foldl_map]
    congr 1
    exact List.foldl_hom φ hkeep

end TrellisTagger

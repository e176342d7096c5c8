/-!
# Tables in order of insertion

A table is a finite map that remembers the order in which its keys came. Writing to a key that is
already there changes the value and keeps the place of the key. The order is what decides between
candidates of equal weight, so every collection of the tagger that is ever listed is a table.

## Main definitions

* `TrellisTagger.Table` — entries with pairwise distinct keys, in order of insertion.
* `TrellisTagger.Table.insert` — write a value, in place if the key is known and at the end if not.
* `TrellisTagger.Table.ofList` — write the pairs of a list one after another.
* `TrellisTagger.Table.mapValues`, `TrellisTagger.Table.filter` — operations that keep the order.

## Design

The carrier is a list of pairs together with a proof that no key occurs twice, so that `get?` and
membership of a pair say the same (`Table.get?_eq_some_iff`). Each operation has one lemma on its
keys and one on its look-ups; nothing else needs to unfold it.
-/

namespace TrellisTagger

universe u v w

variable {K : Type u} {V : Type v} {W : Type w}

/-- A finite map whose entries stand in the order in which their keys were first written. -/
@[ext] structure Table (K : Type u) (V : Type v) where
  /-- The entries in order of insertion. -/
  entries : List (K × V)
  /-- No key occurs twice. -/
  keys_nodup : (entries.map Prod.fst).Nodup

namespace Table

/-- The table without entries. -/
def empty : Table K V := ⟨[], List.nodup_nil⟩

/-- The empty collection is the table without entries. -/
instance : EmptyCollection (Table K V) := ⟨empty⟩

/-- The keys in order of insertion. -/
def keys (t : Table K V) : List K := t.entries.map Prod.fst

/-- The values in the order of their keys. -/
def values (t : Table K V) : List V := t.entries.map Prod.snd

/-- The number of keys. -/
def size (t : Table K V) : Nat := t.entries.length

/-- Whether there is no entry at all. -/
def isEmpty (t : Table K V) : Bool := t.entries.isEmpty

/-- Apply a function to every value, given its key. -/
def mapValues (f : K → V → W) (t : Table K V) : Table K W :=
  ⟨t.entries.map fun e => (e.1, f e.1 e.2), by
    simpa [List.map_map, Function.comp_def] using t.keys_nodup⟩

/-- Keep the entries that pass a test. -/
def filter (p : K → V → Bool) (t : Table K V) : Table K V :=
  ⟨t.entries.filter fun e => p e.1 e.2, t.keys_nodup.sublist (List.filter_sublist.map _)⟩

variable [DecidableEq K]

/-- The value written last under a key. -/
def get? (t : Table K V) (k : K) : Option V :=
  (t.entries.find? fun e => e.1 = k).map Prod.snd

/-- The value under a key, or a default. -/
def getD (t : Table K V) (k : K) (d : V) : V := (t.get? k).getD d

/-- Whether a key has been written. -/
def contains (t : Table K V) (k : K) : Bool := decide (k ∈ t.keys)

/-- Write to a list of pairs: in place where the key occurs, else at the end. -/
def put (k : K) (v : V) : List (K × V) → List (K × V)
  | [] => [(k, v)]
  | e :: r => if e.1 = k then (k, v) :: r else e :: put k v r

/-- Writing keeps the keys, and puts a new one at the end. -/
theorem map_fst_put (k : K) (v : V) (l : List (K × V)) :
    (put k v l).map Prod.fst =
      if k ∈ l.map Prod.fst then l.map Prod.fst else l.map Prod.fst ++ [k] := by
  induction l with
  | nil => simp [put]
  | cons e r ih =>
    by_cases h : e.1 = k
    · simp [put, h]
    · have h' : ¬ k = e.1 := fun hk => h hk.symm
      simp only [put, h, if_false, List.map_cons, ih, List.mem_cons, h', false_or]
      split <;> simp

/-- Writing does not make a key occur twice. -/
theorem nodup_put (k : K) (v : V) {l : List (K × V)} (h : (l.map Prod.fst).Nodup) :
    ((put k v l).map Prod.fst).Nodup := by
  rw [map_fst_put]
  split
  · exact h
  · rename_i hk
    rw [List.nodup_append]
    refine ⟨h, by simp, ?_⟩
    intro a ha b hb hab
    simp only [List.mem_singleton] at hb
    exact hk (hb ▸ hab ▸ ha)

/-- Write a value under a key. A known key keeps its place; a new key comes last. -/
def insert (t : Table K V) (k : K) (v : V) : Table K V :=
  ⟨put k v t.entries, nodup_put k v t.keys_nodup⟩

/-- Write to what a key holds, starting from a default where it holds nothing. -/
def modifyD (t : Table K V) (k : K) (d : V) (f : V → V) : Table K V :=
  t.insert k (f (t.getD k d))

/-- Write the pairs of a list one after another. -/
def ofList (l : List (K × V)) : Table K V :=
  l.foldl (fun t e => t.insert e.1 e.2) empty

/-! ### Look-up after each operation -/

omit [DecidableEq K] in
/-- A table without entries has no keys. -/
@[simp] theorem keys_empty : (∅ : Table K V).keys = [] := rfl

/-- A table without entries holds nothing under any key. -/
@[simp] theorem get?_empty (k : K) : (∅ : Table K V).get? k = none := rfl

/-- Nothing is held under a key just if it is not among the keys. -/
theorem get?_eq_none_iff {t : Table K V} {k : K} : t.get? k = none ↔ k ∉ t.keys := by
  simp only [get?, Option.map_eq_none_iff, List.find?_eq_none, decide_eq_true_eq, keys,
    List.mem_map, not_exists, not_and]

/-- Something is held under a key just if it is among the keys. -/
theorem isSome_get?_iff {t : Table K V} {k : K} : (t.get? k).isSome ↔ k ∈ t.keys := by
  rw [← Decidable.not_iff_not, ← get?_eq_none_iff]
  simp

/-- A table has the keys under which something can be read. -/
theorem mem_keys_iff {t : Table K V} {k : K} : k ∈ t.keys ↔ ∃ v, t.get? k = some v := by
  rw [← isSome_get?_iff, Option.isSome_iff_exists]

/-- A key under which something is held is among the keys. -/
theorem mem_keys_of_get? {t : Table K V} {k : K} {v : V} (h : t.get? k = some v) : k ∈ t.keys :=
  mem_keys_iff.2 ⟨v, h⟩

/-- What is held under a key makes an entry with it. -/
theorem mem_of_get?_eq_some {t : Table K V} {k : K} {v : V} (h : t.get? k = some v) :
    (k, v) ∈ t.entries := by
  simp only [get?, Option.map_eq_some_iff] at h
  obtain ⟨e, he, rfl⟩ := h
  have hk := List.find?_some he
  simp only [decide_eq_true_eq] at hk
  exact hk ▸ List.mem_of_find?_eq_some he

/-- A search for a key finds the entry that has it, as no other one does. -/
private theorem find?_of_mem {k : K} {v : V} {l : List (K × V)}
    (hn : (l.map Prod.fst).Nodup) (h : (k, v) ∈ l) :
    (l.find? fun e => e.1 = k) = some (k, v) := by
  induction l with
  | nil => cases h
  | cons e r ih =>
    rw [List.map_cons, List.nodup_cons] at hn
    by_cases hk : e.1 = k
    · rcases List.mem_cons.1 h with rfl | h'
      · simp
      · exact absurd (List.mem_map.2 ⟨(k, v), h', hk.symm⟩) hn.1
    · rcases List.mem_cons.1 h with rfl | h'
      · exact absurd rfl hk
      · rw [List.find?_cons_of_neg (by simpa using hk)]
        exact ih hn.2 h'

/-- Reading a key and finding its pair among the entries are the same. -/
theorem get?_eq_some_iff {t : Table K V} {k : K} {v : V} :
    t.get? k = some v ↔ (k, v) ∈ t.entries :=
  ⟨mem_of_get?_eq_some, fun h => by rw [get?, find?_of_mem t.keys_nodup h]; rfl⟩

/-- The entries with a key are the one that a search finds, if there is one. -/
private theorem filter_of_nodup {k : K} {l : List (K × V)} (hn : (l.map Prod.fst).Nodup) :
    l.filter (fun e => e.1 = k) = (l.find? fun e => e.1 = k).toList := by
  induction l with
  | nil => rfl
  | cons e r ih =>
    rw [List.map_cons, List.nodup_cons] at hn
    by_cases hk : e.1 = k
    · have hr : r.filter (fun e => e.1 = k) = [] := by
        rw [List.filter_eq_nil_iff]
        intro e' he' hk'
        exact hn.1 (List.mem_map.2 ⟨e', he', (of_decide_eq_true hk').trans hk.symm⟩)
      simp [hk, hr]
    · simp [hk, ih hn.2]

/-- At most one entry has a given key. -/
theorem filter_entries (t : Table K V) (k : K) :
    t.entries.filter (fun e => e.1 = k) = ((t.get? k).map fun v => (k, v)).toList := by
  rw [filter_of_nodup t.keys_nodup, get?]
  cases h : t.entries.find? fun e => e.1 = k with
  | none => rfl
  | some e =>
    have hk : e.1 = k := by simpa using List.find?_some h
    simp [← hk]

/-- A search after writing finds the value written under its key, and under other keys what it found
before. -/
private theorem find?_put (k k' : K) (v : V) (l : List (K × V)) :
    ((put k v l).find? fun e => e.1 = k').map Prod.snd =
      if k = k' then some v else (l.find? fun e => e.1 = k').map Prod.snd := by
  induction l with
  | nil => by_cases h : k = k' <;> simp [put, h]
  | cons e r ih =>
    by_cases he : e.1 = k
    · by_cases h : k = k'
      · simp [put, he.trans h, h]
      · simp [put, he, h]
    · by_cases h : e.1 = k'
      · have hk : ¬ k = k' := fun x => he (h.trans x.symm)
        have hk' : ¬ k' = k := fun x => hk x.symm
        simp [put, h, hk, hk']
      · simp [put, he, h, ih]

/-- A look-up sees the last write to its key and no other. -/
theorem get?_insert (t : Table K V) (k k' : K) (v : V) :
    (t.insert k v).get? k' = if k = k' then some v else t.get? k' :=
  find?_put k k' v t.entries

/-- A known key keeps its place; a new key comes last. -/
theorem keys_insert (t : Table K V) (k : K) (v : V) :
    (t.insert k v).keys = if k ∈ t.keys then t.keys else t.keys ++ [k] :=
  map_fst_put k v t.entries

/-- The keys after writing are the one that was written and those before. -/
theorem mem_keys_insert {t : Table K V} {k k' : K} {v : V} :
    k' ∈ (t.insert k v).keys ↔ k' = k ∨ k' ∈ t.keys := by
  rw [keys_insert]
  split
  · rename_i h
    exact ⟨Or.inr, fun h' => h'.elim (fun e => e ▸ h) id⟩
  · rw [List.mem_append, List.mem_singleton]
    exact Or.comm

/-- What a reader with the same default sees after a change under a key. -/
theorem getD_modifyD (t : Table K V) (k k' : K) (d : V) (f : V → V) :
    (t.modifyD k d f).getD k' d = if k = k' then f (t.getD k d) else t.getD k' d := by
  rw [modifyD, getD, get?_insert]
  split <;> rfl

/-- The keys after a change are the one whose value was changed and those before. -/
theorem mem_keys_modifyD {t : Table K V} {k k' : K} {d : V} {f : V → V} :
    k' ∈ (t.modifyD k d f).keys ↔ k' = k ∨ k' ∈ t.keys :=
  mem_keys_insert

/-- What is read under a key that has not been written is the default. -/
theorem getD_of_not_mem {t : Table K V} {k : K} (h : k ∉ t.keys) (d : V) : t.getD k d = d := by
  rw [getD, get?_eq_none_iff.2 h]
  rfl

/-- A pair with a new key is put at the end. -/
private theorem put_of_not_mem {k : K} (v : V) {l : List (K × V)} (h : k ∉ l.map Prod.fst) :
    put k v l = l ++ [(k, v)] := by
  induction l with
  | nil => rfl
  | cons e r ih =>
    rw [List.map_cons, List.mem_cons, not_or] at h
    rw [put, if_neg fun hk => h.1 hk.symm, ih h.2, List.cons_append]

/-- Pairs with new and different keys are put at the end in their order. -/
private theorem entries_foldl_insert (l : List (K × V)) (t : Table K V)
    (h : (t.keys ++ l.map Prod.fst).Nodup) :
    (l.foldl (fun t e => t.insert e.1 e.2) t).entries = t.entries ++ l := by
  induction l generalizing t with
  | nil => simp
  | cons e r ih =>
    have hk : e.1 ∉ t.keys := fun hm =>
      (List.nodup_append.1 h).2.2 e.1 hm e.1 (by simp) rfl
    have hput : (t.insert e.1 e.2).entries = t.entries ++ [e] := put_of_not_mem e.2 hk
    rw [List.foldl_cons, ih, hput, List.append_assoc, List.singleton_append]
    rw [keys_insert, if_neg hk, List.append_assoc]
    simpa using h

/-- Pairs with different keys become the entries as they stand. -/
theorem entries_ofList {l : List (K × V)} (h : (l.map Prod.fst).Nodup) : (ofList l).entries = l :=
  entries_foldl_insert l empty (by simpa [keys, empty] using h)

omit [DecidableEq K] in
/-- A function of the values leaves the keys as they are. -/
@[simp] theorem keys_mapValues (f : K → V → W) (t : Table K V) :
    (t.mapValues f).keys = t.keys := by
  simp [keys, mapValues, List.map_map, Function.comp_def]

/-- A search finds the changed value where it found a value before. -/
private theorem find?_map_values (f : K → V → W) (k : K) (l : List (K × V)) :
    ((l.map fun e => (e.1, f e.1 e.2)).find? fun e => e.1 = k).map Prod.snd =
      ((l.find? fun e => e.1 = k).map Prod.snd).map (f k) := by
  induction l with
  | nil => rfl
  | cons e r ih =>
    by_cases h : e.1 = k
    · subst h; simp
    · simp only [List.map_cons, List.find?_cons, h, decide_false]
      exact ih

/-- What is held under a key is changed by the function. -/
@[simp] theorem get?_mapValues (f : K → V → W) (t : Table K V) (k : K) :
    (t.mapValues f).get? k = (t.get? k).map (f k) :=
  find?_map_values f k t.entries

omit [DecidableEq K] in
/-- The key of an entry is among the keys. -/
theorem mem_keys_of_mem {t : Table K V} {e : K × V} (h : e ∈ t.entries) : e.1 ∈ t.keys :=
  List.mem_map_of_mem h

/-- A key has been written just if it is among the keys. -/
theorem contains_iff {t : Table K V} {k : K} : t.contains k = true ↔ k ∈ t.keys := by
  simp [contains]

/-- What is read under a key that has been written is its value. -/
theorem getD_of_get? {t : Table K V} {k : K} {v : V} (h : t.get? k = some v) (d : V) :
    t.getD k d = v := by
  rw [getD, h]
  rfl

/-- The values are what can be read under the keys. -/
theorem mem_values_iff {t : Table K V} {v : V} : v ∈ t.values ↔ ∃ k, t.get? k = some v := by
  simp only [values, List.mem_map, get?_eq_some_iff, Prod.exists, exists_eq_right]

/-- The entries are the keys, each with what a reader sees under it. -/
theorem entries_eq_map_keys (t : Table K V) (d : V) :
    t.entries = t.keys.map fun k => (k, t.getD k d) := by
  rw [keys, List.map_map]
  refine (List.map_id _).symm.trans (List.map_congr_left fun e he => ?_)
  rw [Function.comp_apply, getD_of_get? (get?_eq_some_iff.2 he) d]
  rfl

/-- The values are what a reader sees under the keys. -/
theorem values_eq_map_keys (t : Table K V) (d : V) : t.values = t.keys.map fun k => t.getD k d := by
  rw [values, entries_eq_map_keys t d, List.map_map]
  rfl

omit [DecidableEq K] in
/-- A test on keys keeps the keys that pass it. -/
theorem keys_filter (p : K → Bool) (t : Table K V) :
    (t.filter fun k _ => p k).keys = t.keys.filter p := by
  rw [keys, keys, filter, List.filter_map]
  rfl

/-- A reader of the keys that pass a test finds nothing under the others. -/
theorem get?_filter (p : K → Bool) (t : Table K V) (k : K) :
    (t.filter fun k _ => p k).get? k = if p k then t.get? k else none := by
  ext v
  rw [get?_eq_some_iff, filter, List.mem_filter, ← get?_eq_some_iff]
  by_cases h : p k <;> simp [h]

end Table

end TrellisTagger

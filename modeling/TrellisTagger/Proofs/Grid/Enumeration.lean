import Mathlib.Algebra.BigOperators.Group.List.Basic
import Mathlib.Data.List.Forall2
import Mathlib.Tactic.Lemma
import TrellisTagger.Grid

/-!
# Counting through a grid

The points of a grid come in the order of counting. Each of them is a choice of one position in
every list of values, and the positions are the digits of the number of the point, where the radix
of each place is the length of the list and the last place counts units. So no choice is left out
and none comes twice.

## Main definitions

* `TrellisTagger.MixedRadix.digits`, `TrellisTagger.MixedRadix.ofDigits` — the digits of a number
  with a radix for each place, and back.
* `TrellisTagger.Grid.IsPointOf` — a point has the values at some positions in the lists of a grid.

## Main results

* `TrellisTagger.MixedRadix.existsUnique_digits` — every choice of digits belongs to one number.
* `TrellisTagger.getElem?_combinations` — the choices are counted through by their digits.
* `TrellisTagger.Grid.assign_eq_ok`, `TrellisTagger.Grid.assign_eq_error` — the point of a choice,
  or the first name that is no setting.
* `TrellisTagger.Grid.points_enumerate` — the points of a grid, or why there are none.
-/

namespace TrellisTagger

universe u v w

/-! ### Mixed radix -/

namespace MixedRadix

/-- The digits of a number where each place has its own radix. The last place counts units. -/
def digits : List Nat → Nat → List Nat
  | [], _ => []
  | _ :: radices, n => n / radices.prod :: digits radices (n % radices.prod)

/-- The number that has given digits. -/
def ofDigits : List Nat → List Nat → Nat
  | _ :: radices, d :: ds => d * radices.prod + ofDigits radices ds
  | _, _ => 0

/-- A number below the product of the radices has a digit below each radix. -/
theorem digits_lt {radices : List Nat} {n : Nat} (h : n < radices.prod) :
    List.Forall₂ (· < ·) (digits radices n) radices := by
  induction radices generalizing n with
  | nil => exact .nil
  | cons r radices ih =>
    rw [List.prod_cons] at h
    have hpos : 0 < radices.prod := Nat.pos_of_mul_pos_left (Nat.zero_lt_of_lt h)
    refine .cons ?_ (ih (Nat.mod_lt n hpos))
    exact (Nat.div_lt_iff_lt_mul hpos).2 h

/-- A number below the product of the radices is told by its digits. -/
theorem ofDigits_digits {radices : List Nat} {n : Nat} (h : n < radices.prod) :
    ofDigits radices (digits radices n) = n := by
  induction radices generalizing n with
  | nil =>
    rw [List.prod_nil] at h
    rw [ofDigits]
    · omega
    · simp
  | cons r radices ih =>
    rw [List.prod_cons] at h
    have hpos : 0 < radices.prod := Nat.pos_of_mul_pos_left (Nat.zero_lt_of_lt h)
    rw [digits, ofDigits, ih (Nat.mod_lt n hpos)]
    exact Nat.div_add_mod' n radices.prod

/-- Digits below the radices make up a number below their product. -/
theorem ofDigits_lt {radices ds : List Nat} (h : List.Forall₂ (· < ·) ds radices) :
    ofDigits radices ds < radices.prod := by
  induction h with
  | nil => simp [ofDigits]
  | @cons d r ds radices hd _ ih =>
    have hle : (d + 1) * radices.prod ≤ r * radices.prod := Nat.mul_le_mul_right _ hd
    rw [ofDigits, List.prod_cons]
    rw [Nat.add_mul, Nat.one_mul] at hle
    omega

/-- Digits below the radices are read off the number that they make up. -/
theorem digits_ofDigits {radices ds : List Nat} (h : List.Forall₂ (· < ·) ds radices) :
    digits radices (ofDigits radices ds) = ds := by
  induction h with
  | nil => rfl
  | @cons d r ds radices hd htail ih =>
    have hlt := ofDigits_lt htail
    have hpos : 0 < radices.prod := by omega
    have hdiv : (d * radices.prod + ofDigits radices ds) / radices.prod = d := by
      rw [Nat.add_comm, Nat.add_mul_div_right _ _ hpos, Nat.div_eq_of_lt hlt, Nat.zero_add]
    have hmod : (d * radices.prod + ofDigits radices ds) % radices.prod = ofDigits radices ds := by
      rw [Nat.add_comm, Nat.add_mul_mod_self_right, Nat.mod_eq_of_lt hlt]
    rw [ofDigits, digits, hdiv, hmod, ih]

/-- **Every choice of digits belongs to one number.** -/
theorem existsUnique_digits {radices ds : List Nat} (h : List.Forall₂ (· < ·) ds radices) :
    ∃! n, n < radices.prod ∧ digits radices n = ds := by
  refine ⟨ofDigits radices ds, ⟨ofDigits_lt h, digits_ofDigits h⟩, ?_⟩
  rintro n ⟨hn, rfl⟩
  exact (ofDigits_digits hn).symm

end MixedRadix

/-! ### Choices -/

section Choices

variable {α : Type u} {β : Type v}

/-- Where an element of a list is replaced by as many others each, a position is found by
division. -/
lemma getElem?_flatMap_of_length {f : α → List β} {m : Nat} (hf : ∀ a, (f a).length = m)
    {l : List α} {q r : Nat} (hq : q < l.length) (hr : r < m) :
    (l.flatMap f)[q * m + r]? = (f l[q])[r]? := by
  induction l generalizing q with
  | nil => simp at hq
  | cons a l ih =>
    rw [List.flatMap_cons]
    cases q with
    | zero =>
      have hlt : 0 * m + r < (f a).length := by rw [hf]; omega
      rw [List.getElem?_append_left hlt, Nat.zero_mul, Nat.zero_add, List.getElem_cons_zero]
    | succ q =>
      have hle : (f a).length ≤ (q + 1) * m + r := by rw [hf, Nat.add_mul]; omega
      have hsub : (q + 1) * m + r - (f a).length = q * m + r := by rw [hf, Nat.add_mul]; omega
      have hq' : q < l.length := by simpa using hq
      rw [List.getElem?_append_right hle, hsub, ih hq', List.getElem_cons_succ]

/-- There are as many choices as the product of the numbers of elements. -/
lemma length_combinations_eq_prod (ls : List (List α)) :
    (combinations ls).length = (ls.map List.length).prod := by
  rw [length_combinations, List.prod_eq_foldr]

/-- **The choices are counted through by their digits**: a choice has, from each list, the element
at the position that the digit of its place says. -/
theorem getElem?_combinations {ls : List (List α)} {i : Nat} (hi : i < (ls.map List.length).prod) :
    ∃ choice, (combinations ls)[i]? = some choice ∧
      choice.map some =
        List.zipWith (fun l d => l[d]?) ls (MixedRadix.digits (ls.map List.length) i) := by
  induction ls generalizing i with
  | nil =>
    rw [List.map_nil, List.prod_nil] at hi
    obtain rfl : i = 0 := by omega
    exact ⟨[], rfl, rfl⟩
  | cons l ls ih =>
    rw [List.map_cons, List.prod_cons] at hi
    -- the first digit is the block that the number falls in, the others tell the place in the block
    have hpos : 0 < (ls.map List.length).prod := Nat.pos_of_mul_pos_left (Nat.zero_lt_of_lt hi)
    have hmod := Nat.mod_lt i hpos
    have hdiv : i / (ls.map List.length).prod < l.length := (Nat.div_lt_iff_lt_mul hpos).2 hi
    obtain ⟨choice, hchoice, hvalues⟩ := ih hmod
    refine ⟨l[i / (ls.map List.length).prod] :: choice, ?_, ?_⟩
    · have hblock : ∀ a, ((combinations ls).map (a :: ·)).length = (ls.map List.length).prod := by
        intro a
        rw [List.length_map, length_combinations_eq_prod]
      have hfound := getElem?_flatMap_of_length hblock hdiv hmod
      rw [Nat.div_add_mod', List.getElem?_map, hchoice] at hfound
      exact hfound
    · rw [List.map_cons, hvalues, List.map_cons, MixedRadix.digits, List.zipWith_cons_cons,
        List.getElem?_eq_getElem hdiv]

/-- There is no choice just if one of the lists is empty. -/
lemma combinations_eq_nil_iff {ls : List (List α)} : combinations ls = [] ↔ [] ∈ ls := by
  induction ls with
  | nil => simp [combinations]
  | cons l ls ih =>
    simp only [combinations, List.flatMap_eq_nil_iff, List.map_eq_nil_iff, List.mem_cons, ih]
    constructor
    · intro h
      cases l with
      | nil => exact .inl rfl
      | cons a l => exact .inr (h a List.mem_cons_self)
    · rintro (rfl | hnil) a ha
      · simp at ha
      · exact hnil

/-- A choice has as many elements as there are lists. -/
lemma length_of_mem_combinations {ls : List (List α)} {choice : List α}
    (h : choice ∈ combinations ls) :
    choice.length = ls.length := by
  induction ls generalizing choice with
  | nil => simpa [combinations] using h
  | cons l ls ih =>
    simp only [combinations, List.mem_flatMap, List.mem_map] at h
    obtain ⟨a, -, rest, hrest, rfl⟩ := h
    rw [List.length_cons, ih hrest, List.length_cons]

end Choices

/-! ### Steps that may fail -/

section Steps

variable {α : Type u} {β : Type v} {ε : Type w} {f : α → Except ε β}

/-- Steps that all succeed give their results in order. -/
lemma exists_mapM_eq_ok {R : α → β → Prop} {l : List α} (h : ∀ a ∈ l, ∃ b, f a = .ok b ∧ R a b) :
    ∃ bs, l.mapM f = .ok bs ∧ List.Forall₂ R l bs := by
  induction l with
  | nil => exact ⟨[], rfl, .nil⟩
  | cons a l ih =>
    rw [List.forall_mem_cons] at h
    obtain ⟨b, hb, hR⟩ := h.1
    obtain ⟨bs, hbs, hall⟩ := ih h.2
    refine ⟨b :: bs, ?_, .cons hR hall⟩
    rw [List.mapM_cons, hb, hbs]
    rfl

/-- Steps that all fail for one reason fail for this reason, if there are any. -/
lemma mapM_eq_error {e : ε} {l : List α} (hne : l ≠ []) (h : ∀ a ∈ l, f a = .error e) :
    l.mapM f = .error e := by
  cases l with
  | nil => exact absurd rfl hne
  | cons a l =>
    rw [List.mapM_cons, h a List.mem_cons_self]
    rfl

end Steps

/-! ### Settings -/

namespace Setting

/-- The names of the settings. -/
def names : List String := all.map name

/-- A setting is found by its name. -/
lemma ofName?_name (s : Setting) : ofName? s.name = some s := by
  cases s <;> rfl

/-- Different settings have different names. -/
lemma name_injective : Function.Injective name := by
  intro s s' h
  have hfound := ofName?_name s
  rw [h, ofName?_name s'] at hfound
  exact (Option.some.inj hfound).symm

/-- No setting is found by what is not among the names. -/
lemma ofName?_eq_none_iff {n : String} : ofName? n = none ↔ n ∉ names := by
  simp only [ofName?, names, List.find?_eq_none, decide_eq_true_eq, List.mem_map, not_exists,
    not_and]

/-- Each of the names is that of a setting. -/
lemma exists_of_mem_names {n : String} (h : n ∈ names) : ∃ s : Setting, s.name = n := by
  obtain ⟨s, -, hs⟩ := List.mem_map.1 h
  exact ⟨s, hs⟩

end Setting

/-! ### Points -/

namespace Grid

/-- **Settings are changed to what the names stand for.** If every name is one of a setting and none
occurs twice, there is a point that has the values of the named settings, and all others as
before. -/
theorem assign_eq_ok {l : List (String × Value)} (hnames : ∀ x ∈ l, x.1 ∈ Setting.names)
    (hnodup : (l.map Prod.fst).Nodup) (p : Point) :
    ∃ q, assign p l = .ok q ∧ (∀ x ∈ l, ∀ s : Setting, s.name = x.1 → q.value s = x.2) ∧
      ∀ s : Setting, s.name ∉ l.map Prod.fst → q.value s = p.value s := by
  induction l generalizing p with
  | nil => exact ⟨p, rfl, by simp, fun _ _ => rfl⟩
  | cons x l ih =>
    obtain ⟨name, v⟩ := x
    rw [List.forall_mem_cons] at hnames
    rw [List.map_cons, List.nodup_cons] at hnodup
    obtain ⟨setting, rfl⟩ := Setting.exists_of_mem_names hnames.1
    obtain ⟨q, hq, hnamed, hother⟩ := ih hnames.2 hnodup.2 (p.set setting v)
    refine ⟨q, ?_, ?_, ?_⟩
    · rw [assign, Setting.ofName?_name]
      exact hq
    · intro x hx s hs
      rcases List.mem_cons.1 hx with rfl | hx
      · -- a later pair would have the name a second time
        obtain rfl := Setting.name_injective hs
        rw [hother s hnodup.1]
        exact if_pos rfl
      · exact hnamed x hx s hs
    · intro s hs
      rw [List.map_cons, List.mem_cons, not_or] at hs
      rw [hother s hs.2]
      exact if_neg fun heq => hs.1 (congrArg Setting.name heq)

/-- **The first name that is no setting is reported.** -/
theorem assign_eq_error {l : List (String × Value)} {name : String}
    (h : (l.map Prod.fst).find? (· ∉ Setting.names) = some name) (p : Point) :
    assign p l = .error ⟨name⟩ := by
  induction l generalizing p with
  | nil => simp at h
  | cons x l ih =>
    obtain ⟨first, v⟩ := x
    rw [List.map_cons, List.find?_cons] at h
    by_cases hfirst : first ∈ Setting.names
    · obtain ⟨setting, rfl⟩ := Setting.exists_of_mem_names hfirst
      rw [assign, Setting.ofName?_name]
      exact ih (by simpa [hfirst] using h) _
    · obtain rfl : first = name := by simpa [hfirst] using h
      rw [assign, Setting.ofName?_eq_none_iff.2 hfirst]

/-- A point has the values at given positions in the lists of a grid, and the standard values of the
settings that the grid does not name. -/
structure IsPointOf (g : Grid) (positions : List Nat) (p : Point) : Prop where
  /-- A named setting has the value at the position in its list. -/
  named : ∀ x ∈ g.entries.zip positions, ∀ s : Setting, s.name = x.1.1 →
    x.1.2[x.2]? = some (p.value s)
  /-- Any other setting has its standard value. -/
  other : ∀ s : Setting, s.name ∉ g.keys → p.value s = Point.standard.value s

variable {g : Grid}

/-- A choice has one value for each name. -/
lemma map_fst_zip_choice {choice : List Value} (h : choice ∈ combinations g.values) :
    (g.keys.zip choice).map Prod.fst = g.keys := by
  refine List.map_fst_zip (Nat.le_of_eq ?_)
  rw [length_of_mem_combinations h, Table.keys, Table.values, List.length_map, List.length_map]

/-- The point of a choice has the values at the positions of the choice. -/
lemma exists_isPointOf (hnames : ∀ name ∈ g.keys, name ∈ Setting.names) {choice : List Value}
    (hchoice : choice ∈ combinations g.values) :
    ∃ p, assign .standard (g.keys.zip choice) = .ok p ∧
      ∀ positions, choice.map some = List.zipWith (fun l d => l[d]?) g.values positions →
        IsPointOf g positions p := by
  have hlength : choice.length = g.entries.length := by
    rw [length_of_mem_combinations hchoice, Table.values, List.length_map]
  have hkeys := map_fst_zip_choice hchoice
  have hnodup : ((g.keys.zip choice).map Prod.fst).Nodup := by
    rw [hkeys]
    exact g.keys_nodup
  obtain ⟨p, hp, hnamed, hother⟩ :=
    assign_eq_ok (fun x hx => hnames _ (List.of_mem_zip hx).1) hnodup Point.standard
  rw [hkeys] at hother
  refine ⟨p, hp, fun positions hpositions => ⟨?_, hother⟩⟩
  intro x hx s hs
  obtain ⟨k, hk, rfl⟩ := List.mem_iff_getElem.1 hx
  rw [List.length_zip] at hk
  simp only [List.getElem_zip] at hs ⊢
  have hchosen : k < choice.length := by omega
  have hmem : (g.entries[k].1, choice[k]) ∈ g.keys.zip choice := by
    refine List.mem_iff_getElem.2 ⟨k, ?_, ?_⟩
    · rw [List.length_zip, Table.keys, List.length_map]
      omega
    · simp [Table.keys]
  rw [hnamed _ hmem s hs]
  have hvalue := congrArg (fun l : List (Option Value) => l[k]?) hpositions
  simpa [Table.values, hchosen, List.getElem?_zipWith, show k < g.entries.length by omega,
    show k < positions.length by omega] using hvalue.symm

/-- A grid with an empty list has no points, whatever its names are. -/
lemma points_eq_nil (h : [] ∈ g.values) : g.points = .ok [] := by
  rw [points, combinations_eq_nil_iff.2 h]
  rfl

/-- A grid without an empty list is refused for the first of its names that is no setting. -/
lemma points_eq_error (hne : [] ∉ g.values) {name : String}
    (h : g.keys.find? (· ∉ Setting.names) = some name) : g.points = .error ⟨name⟩ := by
  have hchoices : combinations g.values ≠ [] := fun hnil => hne (combinations_eq_nil_iff.1 hnil)
  refine mapM_eq_error hchoices fun choice hchoice => assign_eq_error ?_ _
  rwa [map_fst_zip_choice hchoice]

/-- A grid that names settings has the point of each choice. -/
lemma exists_points_eq_ok (hnames : ∀ name ∈ g.keys, name ∈ Setting.names) :
    ∃ points, g.points = .ok points ∧ points.length = (g.values.map List.length).prod ∧
      ∀ i p, points[i]? = some p →
        IsPointOf g (MixedRadix.digits (g.values.map List.length) i) p := by
  obtain ⟨points, hpoints, hall⟩ :=
    exists_mapM_eq_ok fun choice hchoice => exists_isPointOf hnames hchoice
  have hlength : points.length = (g.values.map List.length).prod := by
    rw [← hall.length_eq, length_combinations_eq_prod]
  refine ⟨points, hpoints, hlength, fun i p hp => ?_⟩
  obtain ⟨hi, rfl⟩ := List.getElem?_eq_some_iff.1 hp
  obtain ⟨choice, hchoice, hvalues⟩ := getElem?_combinations (hlength ▸ hi)
  obtain ⟨hi', rfl⟩ := List.getElem?_eq_some_iff.1 hchoice
  exact (List.forall₂_iff_get.1 hall).2 i hi' hi _ hvalues

/-- **A grid is counted through.** Take any grid, which has a list of values for each of some names,
and count in digits whose radices are the lengths of the lists, the last place counting units:

* if every name is one of a setting, there are as many points as the product of the lengths; each
  point has the values at the positions that the digits of its number say, and standard values for
  all settings that are not named; and every choice of positions has one number;
* there is an error just if some name is none of a setting and no list is empty, and it has the
  first such name;
* if some list is empty, there are no points, whatever the names are;
* the grid without names has the standard point and no other.

**Proof sketch.** Choices are counted through by their digits (`getElem?_combinations`), and each is
assigned to a fresh standard point. All choices have the same names, so either all succeed or all
fail alike. -/
theorem points_enumerate (g : Grid) :
    let radices := g.values.map List.length
    ((∀ name ∈ g.keys, name ∈ Setting.names) →
        ∃ points, g.points = .ok points ∧ points.length = radices.prod ∧
          (∀ i p, points[i]? = some p →
            List.Forall₂ (· < ·) (MixedRadix.digits radices i) radices ∧
              IsPointOf g (MixedRadix.digits radices i) p) ∧
          ∀ positions, List.Forall₂ (· < ·) positions radices →
            ∃! i, i < points.length ∧ MixedRadix.digits radices i = positions) ∧
      (∀ e, g.points = .error e ↔
        [] ∉ g.values ∧ g.keys.find? (· ∉ Setting.names) = some e.name) ∧
      ([] ∈ g.values → g.points = .ok []) ∧
      (∅ : Grid).points = .ok [.standard] := by
  intro radices
  refine ⟨fun hnames => ?_, fun e => ?_, points_eq_nil, rfl⟩
  · obtain ⟨points, hpoints, hlength, hpoint⟩ := exists_points_eq_ok hnames
    refine ⟨points, hpoints, hlength, fun i p hp => ⟨?_, hpoint i p hp⟩,
      fun positions hpositions => ?_⟩
    · obtain ⟨hi, -⟩ := List.getElem?_eq_some_iff.1 hp
      exact MixedRadix.digits_lt (hlength ▸ hi)
    · rw [hlength]
      exact MixedRadix.existsUnique_digits hpositions
  · constructor
    · intro herror
      have hne : [] ∉ g.values := by
        intro hnil
        rw [points_eq_nil hnil] at herror
        cases herror
      refine ⟨hne, ?_⟩
      cases hfind : g.keys.find? (· ∉ Setting.names) with
      | none =>
        -- all names are those of settings, so the points would be found
        rw [List.find?_eq_none] at hfind
        obtain ⟨points, hpoints, -⟩ := exists_points_eq_ok fun name hname => by
          simpa using hfind name hname
        rw [hpoints] at herror
        cases herror
      | some name =>
        rw [points_eq_error hne hfind] at herror
        cases herror
        rfl
    · rintro ⟨hne, hfind⟩
      exact points_eq_error hne hfind

/-- A grid of two decoders and three weights. -/
def twoByThree : Grid :=
  Table.ofList [("decoder", [.ofString "greedy", .ofString "viterbi"]),
    ("lambda1", [.int 0, .int 1, .null])]

/-- The grid of two decoders and three weights has six points. Number four, which is one and one in
its digits, has the second of each and the standard scorer. With a name that is no setting it has
none. -/
theorem points_enumerate_twoByThree :
    (∃ points, twoByThree.points = .ok points ∧ points.length = 6 ∧
        ∀ p, points[4]? = some p → p.value .decoder = .ofString "viterbi" ∧
          p.value .trigramWeight = .int 1 ∧ p.value .scorer = Point.standard.value .scorer) ∧
      Grid.points (twoByThree.insert "epochs" [.int 2]) = .error ⟨"epochs"⟩ := by
  constructor
  · obtain ⟨points, hpoints, hlength, hpoint, -⟩ := (points_enumerate twoByThree).1 (by decide)
    refine ⟨points, hpoints, hlength, fun p hp => ?_⟩
    obtain ⟨-, hnamed, hother⟩ := hpoint 4 p hp
    have hdecoder := hnamed _ (List.mem_cons_self ..) .decoder rfl
    have hweight := hnamed _ (List.mem_cons_of_mem _ (List.mem_cons_self ..)) .trigramWeight rfl
    exact ⟨(Option.some.inj hdecoder).symm, (Option.some.inj hweight).symm,
      hother .scorer (by decide)⟩
  · refine ((points_enumerate (twoByThree.insert "epochs" [.int 2])).2.1 ⟨"epochs"⟩).2 ⟨?_, rfl⟩
    simp [Table.insert, Table.put, Table.values, twoByThree, Table.ofList, Table.empty]

end Grid

end TrellisTagger

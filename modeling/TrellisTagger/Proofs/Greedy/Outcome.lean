import Mathlib.Data.Option.Basic
import TrellisTagger.Proofs.Greedy.Walk
import TrellisTagger.Proofs.Number.Order

/-!
# How greedy decoding ends

Greedy steps out of the start lead from state to state, for ever or until a state has no successor.
What decoding returns is said here in terms of this sequence alone: the states up to the goal, or
the first state without successors, or the first state that is met again. One of the three happens
after at most as many steps as there are states, and it excludes the others.

## Main definitions

* `TrellisTagger.Greedy.stateAfter` — the state after a number of greedy steps.
* `TrellisTagger.Greedy.MeetsNoneTwice` — the first states are pairwise different.
* `TrellisTagger.Greedy.Arrives`, `TrellisTagger.Greedy.GetsStuck`, `TrellisTagger.Greedy.ComesBack`
  — the three ends of the walk.
* `TrellisTagger.Greedy.EndsWith` — the end of the walk, and what is answered.

## Main results

* `TrellisTagger.Greedy.Arrives.meetsNoneTwice`, `TrellisTagger.Greedy.GetsStuck.meetsNoneTwice` — a
  walk that comes to an end meets no state twice.
* `TrellisTagger.Greedy.EndsWith.unique` — the three ends exclude each other.
* `TrellisTagger.Greedy.exists_walk_endsWith` — one of them comes about.
* `TrellisTagger.Greedy.decode_endsWith` — greedy decoding of floats.

## Design

Nothing is asked of the weights, except where a step is said to be along a transition of greatest
weight. That the three ends exclude each other is said of the sequence: if a state is met twice,
whatever comes after it the first time comes after it the second time.
-/

namespace TrellisTagger.Greedy

universe u v

section Sequence

variable {S : Type u} {W : Type v} [DecidableEq S] [LogWeight W]

/-- The state after a number of greedy steps from the start, if all the states before have
successors. -/
def stateAfter (t : Trellis S W) (start : S) : Nat → Option S
  | 0 => some start
  | k + 1 => (stateAfter t start k).bind (next? t)

/-- The first `n` states are pairwise different. -/
def MeetsNoneTwice (t : Trellis S W) (start : S) (n : Nat) : Prop :=
  ∀ j < n, ∀ i < j, stateAfter t start i ≠ stateAfter t start j

variable (t : Trellis S W) (goal start : S)

/-- The walk meets the goal after `n` steps, for the first time. -/
structure Arrives (n : Nat) : Prop where
  /-- The goal is met. -/
  stateAfter_eq : stateAfter t start n = some goal
  /-- It was not met before. -/
  ne_goal : ∀ k < n, stateAfter t start k ≠ some goal

/-- After `n` steps the walk is at a state without successors, and it has not met the goal. -/
structure GetsStuck (n : Nat) (s : S) : Prop where
  /-- The walk is at the state. -/
  stateAfter_eq : stateAfter t start n = some s
  /-- The state has no successors. -/
  successors_eq : (t.successors s).entries = []
  /-- The goal was not met. -/
  ne_goal : ∀ k ≤ n, stateAfter t start k ≠ some goal

/-- After `n` steps the walk is at a state that it has met before, for the first time, and it has
not met the goal. -/
structure ComesBack (n : Nat) (s : S) : Prop where
  /-- The walk is at the state. -/
  stateAfter_eq : stateAfter t start n = some s
  /-- It has been there before. -/
  exists_eq : ∃ k < n, stateAfter t start k = some s
  /-- No state was met twice before. -/
  meetsNoneTwice : MeetsNoneTwice t start n
  /-- The goal was not met. -/
  ne_goal : ∀ k < n, stateAfter t start k ≠ some goal

/-- After `n` steps the walk comes to an end, and this is the answer. -/
inductive EndsWith (n : Nat) : Except (DecodeFailure S) (List S) → Prop
  /-- At the goal the states up to it are returned. -/
  | arrives {path : List S} (h : Arrives t goal start n)
    (hpath : path.map some = (List.range (n + 1)).map (stateAfter t start)) : EndsWith n (.ok path)
  /-- At a state without successors this state is reported. -/
  | getsStuck {s : S} (h : GetsStuck t goal start n s) : EndsWith n (.error (.deadEnd s goal))
  /-- At a state that was met before this state is reported. -/
  | comesBack {s : S} (h : ComesBack t goal start n s) : EndsWith n (.error (.revisited s))

variable {t goal start}

/-! ### The sequence of states -/

/-- The states after two equal ones are equal. -/
lemma stateAfter_add_congr {i j : Nat} (h : stateAfter t start i = stateAfter t start j) (d : Nat) :
    stateAfter t start (i + d) = stateAfter t start (j + d) := by
  induction d with
  | zero => exact h
  | succ d ih => exact congrArg (·.bind (next? t)) ih

/-- Once there is no state, there is none later. -/
lemma stateAfter_eq_none_of_le {i j : Nat} (hij : i ≤ j) (h : stateAfter t start i = none) :
    stateAfter t start j = none := by
  induction j, hij using Nat.le_induction with
  | base => exact h
  | succ j _ ih => rw [stateAfter, ih, Option.bind_none]

/-- Nothing comes after a state without successors. -/
lemma GetsStuck.stateAfter_succ {n : Nat} {s : S} (h : GetsStuck t goal start n s) :
    stateAfter t start (n + 1) = none := by
  rw [stateAfter, h.stateAfter_eq, Option.bind_some, next?_eq_none_iff.2 h.successors_eq]

/-- **A walk that arrives meets no state twice**: from the second time on it would go the way that
it went from the first time on, and so have met the goal before. -/
lemma Arrives.meetsNoneTwice {n : Nat} (h : Arrives t goal start n) :
    MeetsNoneTwice t start (n + 1) := by
  intro j hj i hij heq
  have hagain := stateAfter_add_congr heq (n - j)
  rw [Nat.add_sub_cancel' (by omega), h.stateAfter_eq] at hagain
  exact h.ne_goal (i + (n - j)) (by omega) hagain

/-- **A walk that gets stuck meets no state twice**: it would have been stuck before. -/
lemma GetsStuck.meetsNoneTwice {n : Nat} {s : S} (h : GetsStuck t goal start n s) :
    MeetsNoneTwice t start (n + 1) := by
  intro j hj i hij heq
  have hagain := stateAfter_add_congr heq (n + 1 - j)
  rw [Nat.add_sub_cancel' (by omega), h.stateAfter_succ] at hagain
  have hnone := stateAfter_eq_none_of_le (j := n) (by omega) hagain
  rw [h.stateAfter_eq] at hnone
  cases hnone

/-! ### One end only -/

section Exclusive

variable {m n : Nat} {s s' : S}

/-- A walk arrives for the first time after one number of steps only. -/
lemma Arrives.unique (h : Arrives t goal start m) (h' : Arrives t goal start n) : m = n := by
  rcases lt_trichotomy m n with hlt | rfl | hgt
  · exact absurd h.stateAfter_eq (h'.ne_goal m hlt)
  · rfl
  · exact absurd h'.stateAfter_eq (h.ne_goal n hgt)

/-- No state comes after one without successors. -/
lemma GetsStuck.le_of_stateAfter (h : GetsStuck t goal start m s)
    (h' : stateAfter t start n = some s') :
    n ≤ m := by
  by_contra hlt
  rw [stateAfter_eq_none_of_le (not_le.1 hlt) h.stateAfter_succ] at h'
  cases h'

/-- A walk gets stuck after one number of steps only. -/
lemma GetsStuck.unique (h : GetsStuck t goal start m s) (h' : GetsStuck t goal start n s') :
    m = n :=
  le_antisymm (h'.le_of_stateAfter h.stateAfter_eq) (h.le_of_stateAfter h'.stateAfter_eq)

/-- As long as a walk meets no state twice, it has not come back. -/
lemma ComesBack.le_of_meetsNoneTwice (h : ComesBack t goal start n s)
    (hm : MeetsNoneTwice t start m) :
    m ≤ n := by
  by_contra hlt
  obtain ⟨k, hk, heq⟩ := h.exists_eq
  exact hm n (not_le.1 hlt) k hk (heq.trans h.stateAfter_eq.symm)

/-- A walk comes back for the first time after one number of steps only. -/
lemma ComesBack.unique (h : ComesBack t goal start m s) (h' : ComesBack t goal start n s') :
    m = n :=
  le_antisymm (h'.le_of_meetsNoneTwice h.meetsNoneTwice) (h.le_of_meetsNoneTwice h'.meetsNoneTwice)

/-- A walk that arrives does not get stuck before. -/
lemma Arrives.not_getsStuck (h : Arrives t goal start m) (h' : GetsStuck t goal start n s) :
    False :=
  h'.ne_goal m (h'.le_of_stateAfter h.stateAfter_eq) h.stateAfter_eq

/-- A walk that arrives does not come back before. -/
lemma Arrives.not_comesBack (h : Arrives t goal start m) (h' : ComesBack t goal start n s) :
    False :=
  h'.ne_goal m (h'.le_of_meetsNoneTwice h.meetsNoneTwice) h.stateAfter_eq

/-- A walk that gets stuck does not come back. -/
lemma GetsStuck.not_comesBack (h : GetsStuck t goal start m s) (h' : ComesBack t goal start n s') :
    False :=
  absurd (h.le_of_stateAfter h'.stateAfter_eq)
    (Nat.not_le.2 (h'.le_of_meetsNoneTwice h.meetsNoneTwice))

/-- **The walk ends in one way only**, and after one number of steps. -/
theorem EndsWith.unique {r r' : Except (DecodeFailure S) (List S)} (h : EndsWith t goal start m r)
    (h' : EndsWith t goal start n r') : m = n ∧ r = r' := by
  cases h with
  | arrives h hpath =>
    cases h' with
    | arrives h' hpath' =>
      obtain rfl := h.unique h'
      exact ⟨rfl, congrArg Except.ok
        (List.map_injective_iff.2 (Option.some_injective S) (hpath.trans hpath'.symm))⟩
    | getsStuck h' => exact (h.not_getsStuck h').elim
    | comesBack h' => exact (h.not_comesBack h').elim
  | getsStuck h =>
    cases h' with
    | arrives h' => exact (h'.not_getsStuck h).elim
    | getsStuck h' =>
      obtain rfl := h.unique h'
      obtain rfl := Option.some.inj (h.stateAfter_eq.symm.trans h'.stateAfter_eq)
      exact ⟨rfl, rfl⟩
    | comesBack h' => exact (h.not_comesBack h').elim
  | comesBack h =>
    cases h' with
    | arrives h' => exact (h'.not_comesBack h).elim
    | getsStuck h' => exact (h'.not_comesBack h).elim
    | comesBack h' =>
      obtain rfl := h.unique h'
      obtain rfl := Option.some.inj (h.stateAfter_eq.symm.trans h'.stateAfter_eq)
      exact ⟨rfl, rfl⟩

end Exclusive

/-! ### What the decoder follows -/

namespace Follows

variable {s : S} {path : List S}

/-- The goal is met at the end, if at all. -/
lemma eq_goal_of_mem (h : Follows t goal start s path) (hmem : goal ∈ path) : s = goal := by
  induction h with
  | start => exact (List.mem_singleton.1 hmem).symm
  | step _ hq _ _ ih =>
    rcases List.mem_append.1 hmem with hmem | hmem
    · exact absurd (ih hmem) hq
    · exact (List.mem_singleton.1 hmem).symm

/-- The states that are followed are the first ones of the sequence. -/
lemma stateAfter_eq (h : Follows t goal start s path) :
    ∀ k < path.length, stateAfter t start k = path[k]? := by
  intro k
  induction k with
  | zero =>
    intro _
    rw [← List.head?_eq_getElem?, h.walk.head?_eq]
    rfl
  | succ k ih =>
    intro hk
    have hx := List.getElem?_eq_getElem (l := path) (i := k) (by omega)
    have hy := List.getElem?_eq_getElem hk
    rw [stateAfter, ih (by omega), hx, Option.bind_some, h.next?_eq hx hy, hy]

/-- The last state followed is that of the sequence after as many steps. -/
lemma stateAfter_last (h : Follows t goal start s path) :
    stateAfter t start (path.length - 1) = some s := by
  have hpos := h.walk.length_pos
  rw [h.stateAfter_eq _ (by omega), ← List.getLast?_eq_getElem?, h.walk.getLast?_eq]

/-- A state that the sequence meets early is one of those followed. -/
lemma mem_of_stateAfter (h : Follows t goal start s path) {k : Nat} (hk : k < path.length) {x : S}
    (hx : stateAfter t start k = some x) : x ∈ path := by
  rw [h.stateAfter_eq k hk] at hx
  exact List.mem_of_getElem? hx

/-- The states followed, as a stretch of the sequence. -/
lemma map_some_eq (h : Follows t goal start s path) :
    path.map some = (List.range path.length).map (stateAfter t start) := by
  refine List.ext_getElem (by simp) fun k hk _ => ?_
  rw [List.length_map] at hk
  simp only [List.getElem_map, List.getElem_range]
  rw [h.stateAfter_eq k hk, List.getElem?_eq_getElem hk]

/-- A walk that is followed to the goal arrives. -/
lemma arrives (h : Follows t goal start goal path) : Arrives t goal start (path.length - 1) where
  stateAfter_eq := h.stateAfter_last
  ne_goal k hk heq := by
    have hlast := h.stateAfter_last
    rw [h.stateAfter_eq _ (by omega)] at heq hlast
    have hindex := (List.getElem?_inj (by omega) h.nodup).1 (heq.trans hlast.symm)
    omega

/-- A walk that is followed to a state without successors gets stuck, if this is not the goal. -/
lemma getsStuck (h : Follows t goal start s path) (hs : s ≠ goal) (hnext : next? t s = none) :
    GetsStuck t goal start (path.length - 1) s where
  stateAfter_eq := h.stateAfter_last
  successors_eq := next?_eq_none_iff.1 hnext
  ne_goal k hk heq := by
    have hpos := h.walk.length_pos
    exact hs (h.eq_goal_of_mem (h.mem_of_stateAfter (by omega) heq))

/-- A walk that is followed to a state from which it goes on to one of those followed comes back. -/
lemma comesBack (h : Follows t goal start s path) (hs : s ≠ goal) {again : S}
    (hagain : again ∈ path) (hnext : next? t s = some again) :
    ComesBack t goal start path.length again where
  stateAfter_eq := by
    have hpos := h.walk.length_pos
    rw [← Nat.sub_add_cancel hpos, stateAfter, h.stateAfter_last, Option.bind_some, hnext]
  exists_eq := by
    obtain ⟨k, hk, heq⟩ := List.mem_iff_getElem.1 hagain
    exact ⟨k, hk, by rw [h.stateAfter_eq k hk, List.getElem?_eq_getElem hk, heq]⟩
  meetsNoneTwice j hj i hij heq := by
    rw [h.stateAfter_eq i (by omega), h.stateAfter_eq j hj] at heq
    have hindex := (List.getElem?_inj (by omega) h.nodup).1 heq
    omega
  ne_goal k hk heq := hs (h.eq_goal_of_mem (h.mem_of_stateAfter hk heq))

end Follows

/-- **One of the three ends comes about**, after at most as many steps as there are states, if so
many may be taken. -/
theorem exists_walk_endsWith (ht : t.Mirrored) (hstart : t.start = some start) {bound : Nat}
    (hbound : t.stateCount ≤ bound) :
    ∃ n ≤ t.stateCount, EndsWith t goal start n (walk t goal bound start [start]) := by
  have hfollows : Follows t goal start start [start] := .start
  have hcases := walk_cases ht hstart hfollows
    (show t.stateCount < [start].length + bound by rw [List.length_singleton]; omega)
  rw [List.reverse_singleton] at hcases
  rcases hcases with
    ⟨path, hpath, heq⟩ | ⟨s, path, hpath, hs, ⟨hnext, heq⟩ | ⟨again, hagain, hnext, heq⟩⟩
  · have hle := hpath.length_le ht hstart
    have hpos := hpath.walk.length_pos
    rw [heq]
    refine ⟨path.length - 1, by omega, .arrives hpath.arrives ?_⟩
    rw [Nat.sub_add_cancel hpos]
    exact hpath.map_some_eq
  · have hle := hpath.length_le ht hstart
    rw [heq]
    exact ⟨path.length - 1, by omega, .getsStuck (hpath.getsStuck hs hnext)⟩
  · rw [heq]
    exact ⟨path.length, hpath.length_le ht hstart, .comesBack (hpath.comesBack hs hagain hnext)⟩

end Sequence

/-! ### Floats -/

section Floats

variable {S : Type u} [DecidableEq S] {t : Trellis S Float}

/-- The weight of a step is not exceeded by that of another one, unless a weight is not a number. -/
lemma exists_greatest_of_next? {a b : S} (h : next? t a = some b) :
    ∃ w, t.weight? a b = some w ∧ ((∀ c v, t.weight? a c = some v → v.isNaN = false) →
      ∀ c v, t.weight? a c = some v → ¬ w < v) := by
  obtain ⟨⟨b, w⟩, hbest, rfl⟩ := Option.map_eq_some_iff.1 h
  have hw : t.weight? a b = some w := Table.get?_eq_some_iff.2 (mem_of_firstMax?_eq_some hbest)
  refine ⟨w, hw, fun hnumbers c v hv hlt => ?_⟩
  have hrank : ∀ e ∈ (t.successors a).entries, ∀ f ∈ (t.successors a).entries,
      e.2 < f.2 ↔ Binary64.rank e.2.toModel.unpack < Binary64.rank f.2.toModel.unpack :=
    fun e he f hf => Binary64.lt_iff_rank_lt (hnumbers e.1 e.2 (Table.get?_eq_some_iff.2 he))
      (hnumbers f.1 f.2 (Table.get?_eq_some_iff.2 hf))
  have hle := le_of_firstMax?_eq_some hbest hrank (c, v) (Table.get?_eq_some_iff.1 hv)
  exact absurd ((Binary64.lt_iff_rank_lt (hnumbers b w hw) (hnumbers c v hv)).1 hlt) (not_lt.2 hle)

/-- **Greedy decoding always ends, in one of three ways.** In every trellis made by edits whose
weights are floats of any kind, with both endpoints chosen, take the sequence of greedy steps from
the start.

* After some number of steps, at most that of the states, it ends: at the goal, at a state without
  successors before the goal, or at a state that it has met before either. It ends in no other way
  and after no other number of steps, and decoding answers accordingly: with the states up to the
  goal, the state without successors, or the state met again.
* A greater bound on the number of steps would change nothing.
* The states of a path that is returned are pairwise different. It begins with the start, ends with
  the goal and takes a transition at every step, and if no weight out of a state is other than a
  number, the step out of this state has a weight that is exceeded by none of them.

**Proof sketch.** Decoding comes to one of the three ends by `exists_walk_endsWith`; by
`EndsWith.unique` there is no other. Comparison of numbers is that of their ranks, and the first
greatest rank is kept. -/
theorem decode_endsWith (ht : t.Reachable) {start goal : S} (hstart : t.start = some start)
    (hgoal : t.goal = some goal) :
    (∃ n ≤ t.stateCount, ∀ m r, EndsWith t goal start m r ↔ m = n ∧ r = decode t) ∧
      (∀ bound ≥ t.stateCount, walk t goal bound start [start] = decode t) ∧
      ∀ path, decode t = .ok path →
        path.Nodup ∧ path.head? = some start ∧ path.getLast? = some goal ∧
          path.IsChain fun a b => ∃ w, t.weight? a b = some w ∧
            ((∀ c v, t.weight? a c = some v → v.isNaN = false) →
              ∀ c v, t.weight? a c = some v → ¬ w < v) := by
  have hm := ht.mirrored
  have hdecode : decode t = walk t goal t.stateCount start [start] := by
    simp only [decode, hstart, hgoal]
  have hwalk : ∀ bound ≥ t.stateCount,
      ∃ n ≤ t.stateCount, EndsWith t goal start n (walk t goal bound start [start]) :=
    fun bound hbound => exists_walk_endsWith hm hstart hbound
  obtain ⟨n, hn, hends⟩ := hwalk _ (le_refl _)
  rw [← hdecode] at hends
  refine ⟨⟨n, hn, fun m r => ⟨fun h => h.unique hends, ?_⟩⟩, fun bound hbound => ?_,
    fun path hpath => ?_⟩
  · rintro ⟨rfl, rfl⟩
    exact hends
  · obtain ⟨m, -, hends'⟩ := hwalk bound hbound
    exact (hends'.unique hends).2
  · have hfollows := follows_of_decode hm hstart hgoal hpath
    refine ⟨hfollows.nodup, hfollows.walk.head?_eq, hfollows.walk.getLast?_eq, ?_⟩
    refine List.isChain_iff_getElem.2 fun k hk => exists_greatest_of_next? ?_
    exact hfollows.next?_eq (List.getElem?_eq_getElem _) (List.getElem?_eq_getElem hk)

/-- A trellis whose goal has a successor, with a loop, a way back and a weight that is no number. -/
def detour : Trellis Nat Float :=
  (Trellis.ofEndpoints (some 0) (some 3)).setAll
    [(0, 1, -2), (0, 2, -1), (1, 1, 0 / 0), (2, 0, -2), (2, 3, -1), (3, 3, 0)]

/-- Through `detour` the walk takes the first transition of greatest weight at every step, and it
stops at the goal. -/
theorem decode_endsWith_detour :
    detour.Reachable ∧ detour.start = some 0 ∧ detour.goal = some 3 ∧
      decode detour = .ok [0, 2, 3] ∧
      (∃ n ≤ 4, EndsWith detour 3 0 n (.ok [0, 2, 3])) ∧
        ∃ w, detour.weight? 0 2 = some w ∧ ∀ c v, detour.weight? 0 c = some v → ¬ w < v := by
  have hreach : detour.Reachable := (Trellis.Reachable.new _ _).setAll _
  have hdecode : decode detour = .ok [0, 2, 3] := by decide +kernel
  have hcount : detour.stateCount = 4 := by decide
  obtain ⟨⟨n, hn, hends⟩, -, hpath⟩ := decode_endsWith hreach rfl rfl
  obtain ⟨-, -, -, hchain⟩ := hpath _ hdecode
  obtain ⟨w, hw, hgreatest⟩ := List.isChain_iff_getElem.1 hchain 0 (by decide)
  refine ⟨hreach, rfl, rfl, hdecode, ⟨n, hcount ▸ hn, ?_⟩, w, hw, hgreatest fun c v hv => ?_⟩
  · rw [← hdecode]
    exact (hends n _).2 ⟨rfl, rfl⟩
  · have hentries : (detour.successors 0).entries = [(1, -2), (2, -1)] := rfl
    have hmem : (c, v) ∈ (detour.successors 0).entries := Table.get?_eq_some_iff.1 hv
    rw [hentries, List.mem_cons, List.mem_singleton, Prod.mk.injEq, Prod.mk.injEq] at hmem
    rcases hmem with ⟨-, rfl⟩ | ⟨-, rfl⟩
    · decide
    · decide

end Floats

end TrellisTagger.Greedy

import Mathlib.Data.List.Nodup
import Mathlib.Data.List.Perm.Subperm
import Mathlib.Data.Nat.Find
import TrellisTagger.Proofs.Trellis.Edit

/-!
# Walks counted in hops

A walk of `k + 1` states takes `k` hops. This file takes walks apart at their last hop, which is
where the decoders extend them, and bounds the hops of a shortest walk by the number of states.

## Main definitions

* `TrellisTagger.Trellis.Reaches` — some walk of a given number of hops leads from one state to
  another.
* `TrellisTagger.Trellis.IsHeaviest` — the greatest weight of such a walk.

## Main results

* `TrellisTagger.Trellis.Walk.snoc`, `TrellisTagger.Trellis.Walk.exists_snoc` — a walk and its last
  hop.
* `TrellisTagger.Trellis.Walk.pathWeight_snoc` — the last hop adds its weight on the right.
* `TrellisTagger.Trellis.exists_reaches_lt_stateCount` — where there is a walk from the start to the
  goal, there is one with fewer hops than states.
* `TrellisTagger.Trellis.Walk.length_of_layered` — in a layered trellis the endpoints of a walk
  determine its length.
-/

namespace TrellisTagger.Trellis

universe u v

variable {S : Type u} {W : Type v} [DecidableEq S] {t : Trellis S W}

/-- Some walk of `k` hops leads from one state to another. -/
def Reaches (t : Trellis S W) (a : S) (k : Nat) (b : S) : Prop :=
  ∃ path, t.Walk a b path ∧ path.length = k + 1

/-- The weight `m` is the greatest of all walks of `k` hops from one state to another. -/
structure IsHeaviest [LogWeight W] (t : Trellis S W) (a : S) (k : Nat) (b : S) (m : W) : Prop where
  /-- Some walk has this weight. -/
  attained : ∃ path, t.Walk a b path ∧ path.length = k + 1 ∧ t.pathWeight path = m
  /-- No walk has a greater one. -/
  not_exceeded : ∀ path, t.Walk a b path → path.length = k + 1 → ¬ m < t.pathWeight path

/-! ### The last hop -/

namespace Walk

/-- A walk has a state at least. -/
lemma length_pos {a b : S} {path : List S} (h : t.Walk a b path) : 0 < path.length := by
  cases h <;> simp

/-- A walk goes on along a transition out of its last state. -/
lemma snoc {a b c : S} {w : W} {path : List S} (h : t.Walk a b path)
    (hw : t.weight? b c = some w) : t.Walk a c (path ++ [c]) := by
  induction h with
  | stay a => exact .step hw (.stay c)
  | step hab _ ih => exact .step hab (ih hw)

/-- A walk stays where it is or ends with a hop.

**Proof sketch.** Induction on the walk. Its first hop is its last one where the rest stays, and
else the last hop of the rest is that of the whole. -/
lemma exists_snoc {a c : S} {path : List S} (h : t.Walk a c path) :
    (a = c ∧ path = [a]) ∨
      ∃ b w front, path = front ++ [c] ∧ t.Walk a b front ∧ t.weight? b c = some w := by
  induction h with
  | stay a => exact .inl ⟨rfl, rfl⟩
  | @step a b c w path hab rest ih =>
    right
    rcases ih with ⟨rfl, rfl⟩ | ⟨b', w', front, rfl, hfront, hw'⟩
    · exact ⟨a, w, [a], rfl, .stay a, hab⟩
    · exact ⟨b', w', a :: front, rfl, .step hab hfront, hw'⟩

/-- The first state of a walk is where it begins. -/
lemma head?_eq {a b : S} {path : List S} (h : t.Walk a b path) : path.head? = some a := by
  cases h <;> rfl

/-- The last state of a walk is where it ends. -/
lemma getLast?_eq {a b : S} {path : List S} (h : t.Walk a b path) : path.getLast? = some b := by
  rcases h.exists_snoc with ⟨rfl, rfl⟩ | ⟨-, -, front, rfl, -, -⟩
  · rfl
  · exact List.getLast?_concat

/-- Each state of a walk and the next one have a transition between them. -/
lemma isChain {a b : S} {path : List S} (h : t.Walk a b path) :
    path.IsChain fun x y => (t.weight? x y).isSome := by
  induction h with
  | stay a => exact .singleton a
  | step hab rest ih =>
    cases rest with
    | stay => exact .cons_cons (by simp [hab]) (.singleton _)
    | step hbc rest => exact .cons_cons (by simp [hab]) ih

section Weight

variable [LogWeight W]

/-- A further transition at the end of a walk adds its weight. -/
lemma pathWeightFrom_snoc {a b c : S} {w : W} {path : List S} (h : t.Walk a b path)
    (hw : t.weight? b c = some w) (total : W) :
    t.pathWeightFrom total (path ++ [c]) = t.pathWeightFrom total path + w := by
  induction h generalizing total with
  | stay a => simp [pathWeightFrom, hw]
  | step hab rest ih =>
    cases rest with
    | stay => simp [pathWeightFrom, hab, hw]
    | step hbc rest =>
      simp only [List.cons_append, pathWeightFrom, hab] at ih ⊢
      exact ih hw _

/-- The last hop adds its weight on the right. -/
theorem pathWeight_snoc {a b c : S} {w : W} {path : List S} (h : t.Walk a b path)
    (hw : t.weight? b c = some w) : t.pathWeight (path ++ [c]) = t.pathWeight path + w :=
  h.pathWeightFrom_snoc hw 0

end Weight

end Walk

/-! ### Reaching in a number of hops -/

/-- In no hops a state reaches itself alone. -/
@[simp] lemma reaches_zero {a b : S} : t.Reaches a 0 b ↔ b = a := by
  constructor
  · rintro ⟨path, h, hlen⟩
    rcases h.exists_snoc with ⟨rfl, -⟩ | ⟨_, _, front, rfl, hfront, _⟩
    · rfl
    · have := hfront.length_pos
      rw [List.length_append, List.length_singleton] at hlen
      omega
  · rintro rfl
    exact ⟨[b], .stay b, rfl⟩

/-- A state is reached in one hop more from one that is reached before. -/
lemma reaches_succ {a c : S} {k : Nat} :
    t.Reaches a (k + 1) c ↔ ∃ b w, t.Reaches a k b ∧ t.weight? b c = some w := by
  constructor
  · rintro ⟨path, h, hlen⟩
    rcases h.exists_snoc with ⟨-, rfl⟩ | ⟨b, w, front, rfl, hfront, hw⟩
    · simp at hlen
    · exact ⟨b, w, ⟨front, hfront, by simpa using hlen⟩, hw⟩
  · rintro ⟨b, w, ⟨path, h, hlen⟩, hw⟩
    exact ⟨path ++ [c], h.snoc hw, by simp [hlen]⟩

/-- A state reached in some number of hops is reached through states reached in fewer. -/
lemma Reaches.exists_le {a b : S} {k : Nat} (h : t.Reaches a k b) {j : Nat} (hj : j ≤ k) :
    ∃ c, t.Reaches a j c := by
  induction k generalizing b with
  | zero => exact ⟨b, by rwa [Nat.le_zero.1 hj]⟩
  | succ k ih =>
    rcases Nat.lt_or_ge k j with hlt | hle
    · exact ⟨b, by rwa [show j = k + 1 by omega]⟩
    · obtain ⟨c, w, hc, -⟩ := reaches_succ.1 h
      exact ih hc hle

/-! ### Shortest walks -/

namespace Walk

/-- From each of its states on, a walk is a walk. -/
lemma exists_suffix {a b x : S} {path : List S} (h : t.Walk a b path) (hx : x ∈ path) :
    ∃ rest, t.Walk x b rest ∧ rest <:+ path := by
  induction h with
  | stay a =>
    obtain rfl := List.mem_singleton.1 hx
    exact ⟨[x], .stay x, List.suffix_rfl⟩
  | @step a b c w path hab rest ih =>
    rcases List.mem_cons.1 hx with rfl | hx
    · exact ⟨x :: path, .step hab rest, List.suffix_rfl⟩
    · obtain ⟨rest', hrest', hsuf⟩ := ih hx
      exact ⟨rest', hrest', hsuf.trans (List.suffix_cons a path)⟩

/-- Where there is a walk, there is one that meets no state twice.

**Proof sketch.** Induction on the walk. Where the rest, without repetitions, comes back to the
first state, it is cut there; where it does not, the first state is put before it. -/
lemma exists_nodup {a b : S} {path : List S} (h : t.Walk a b path) :
    ∃ path', t.Walk a b path' ∧ path'.Nodup := by
  induction h with
  | stay a => exact ⟨[a], .stay a, List.nodup_singleton a⟩
  | @step a b c w path hab rest ih =>
    obtain ⟨path', hpath', hnodup⟩ := ih
    by_cases ha : a ∈ path'
    · obtain ⟨cut, hcut, hsuf⟩ := hpath'.exists_suffix ha
      exact ⟨cut, hcut, hnodup.sublist hsuf.sublist⟩
    · exact ⟨a :: path', .step hab hpath', List.nodup_cons.2 ⟨ha, hnodup⟩⟩

/-- Every state of a walk is the last one or has a transition out of it. -/
lemma eq_or_exists_weight? {a b x : S} {path : List S} (h : t.Walk a b path) (hx : x ∈ path) :
    x = b ∨ ∃ y w, t.weight? x y = some w := by
  obtain ⟨rest, hrest, -⟩ := h.exists_suffix hx
  cases hrest with
  | stay => exact .inl rfl
  | step hw _ => exact .inr ⟨_, _, hw⟩

/-- The states of a walk to the goal are states of the trellis. -/
lemma mem_states_of_mem {a b x : S} {path : List S} (h : t.Walk a b path)
    (hgoal : t.goal = some b) (hx : x ∈ path) : x ∈ t.states := by
  rw [mem_states]
  rcases h.eq_or_exists_weight? hx with rfl | ⟨y, w, hw⟩
  · exact .inr (.inr (.inr hgoal))
  · exact .inl (mem_forward_of_weight? hw)

end Walk

/-- **Where some walk leads to the goal, one leads there in fewer hops than there are states.**

**Proof sketch.** A walk without repeated states lists pairwise different states of the trellis, so
it is no longer than the list of all of them. -/
theorem exists_reaches_lt_stateCount {a b : S} {path : List S} (h : t.Walk a b path)
    (hgoal : t.goal = some b) : ∃ k < t.stateCount, t.Reaches a k b := by
  obtain ⟨short, hshort, hnodup⟩ := h.exists_nodup
  have hle : short.length ≤ t.states.length :=
    (hnodup.subperm fun _ hx => hshort.mem_states_of_mem hgoal hx).length_le
  have hpos := hshort.length_pos
  exact ⟨short.length - 1, by rw [stateCount]; omega, short, hshort, by omega⟩

/-- Where some walk leads to the goal, there is a least number of hops that do, and it is less than
the number of states. -/
lemma exists_first_reaches {a b : S} {path : List S} (h : t.Walk a b path)
    (hgoal : t.goal = some b) :
    ∃ n < t.stateCount, t.Reaches a n b ∧ ∀ j < n, ¬ t.Reaches a j b := by
  classical
  obtain ⟨k, hk, hreach⟩ := exists_reaches_lt_stateCount h hgoal
  have hex : ∃ n, t.Reaches a n b := ⟨k, hreach⟩
  exact ⟨Nat.find hex, Nat.lt_of_le_of_lt (Nat.find_min' hex hreach) hk, Nat.find_spec hex,
    fun j hj => Nat.find_min hex hj⟩

/-! ### Layered trellises -/

/-- Where each transition leads from one layer to the next, the layers of its endpoints determine
the length of a walk. -/
lemma Walk.length_of_layered {layer : S → Int}
    (hlayer : ∀ x y w, t.weight? x y = some w → layer y = layer x + 1) {a b : S} {path : List S}
    (h : t.Walk a b path) : (path.length : Int) = layer b - layer a + 1 := by
  induction h with
  | stay a => simp
  | step hab _ ih =>
    have := hlayer _ _ _ hab
    rw [List.length_cons]
    omega

end TrellisTagger.Trellis

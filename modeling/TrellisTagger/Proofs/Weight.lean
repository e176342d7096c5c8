import Mathlib.Algebra.Order.Monoid.Defs
import Mathlib.Algebra.Order.Monoid.Unbundled.WithTop
import TrellisTagger.Arithmetic
import TrellisTagger.Choice

/-!
# Laws of log weights

The decoders only add and compare log weights. This file states the laws under which their answers
are optimal, and what the choice of a first greatest candidate amounts to under them.

## Main definitions

* `TrellisTagger.OrderedWeight` — weights are compared by a strict weak order, which adding one
  weight on the right keeps.
* `TrellisTagger.AbsorbingWeight` — a sum with the impossible weight is impossible.
* `TrellisTagger.LawfulWeight` — both, and nothing is below the impossible weight.
* `TrellisTagger.CancellativeWeight` — besides, possible weights cancel in sums.
* `TrellisTagger.IsFirstMax` — a candidate exceeds all before it, and none after it exceeds it.

## Main results

* `TrellisTagger.isFirstMax_of_firstMax?` — the candidate kept is the first of the greatest.
* the instances for `WithBot` — a linearly ordered additive monoid with a new least element obeys
  the laws.

## Design

A linear order is a strict weak order. The laws ask for no more, because two floats may tie without
being the same, as the two zeros do. No law speaks of zero: all sums start from it and are taken in
the same order.
-/

namespace TrellisTagger

universe u v w

/-- Comparison of weights is a strict weak order, and adding the same weight on the right does not
turn it round. -/
class OrderedWeight (W : Type u) [LogWeight W] : Prop where
  /-- Comparison goes one way only. -/
  lt_asymm {a b : W} : a < b → ¬ b < a
  /-- Being at least as great is transitive. -/
  not_lt_trans {a b c : W} : ¬ a < b → ¬ b < c → ¬ a < c
  /-- Addition is monotone on the left. -/
  add_mono {a b : W} (c : W) : ¬ a < b → ¬ a + c < b + c

/-- A sum in which the impossible weight occurs is impossible. -/
class AbsorbingWeight (W : Type u) [LogWeight W] : Prop where
  /-- The impossible weight absorbs what is added on the right. -/
  impossible_add (a : W) : impossible + a = impossible
  /-- The impossible weight absorbs what it is added to. -/
  add_impossible (a : W) : a + impossible = impossible

/-- The laws of log weights: an order that addition respects, with an absorbing least element. -/
class LawfulWeight (W : Type u) [LogWeight W] : Prop extends
    OrderedWeight W, AbsorbingWeight W where
  /-- Nothing is below the impossible weight. -/
  not_lt_impossible (a : W) : ¬ a < impossible

/-- Where what is added is possible, sums compare like the summands that differ. Possible weights
add up to possible ones. -/
class CancellativeWeight (W : Type u) [LogWeight W] : Prop extends LawfulWeight W where
  /-- A possible weight cancels on the left. -/
  add_lt_add_iff_left {a b c : W} (h : c ≠ impossible) : c + a < c + b ↔ a < b
  /-- A possible weight cancels on the right. -/
  add_lt_add_iff_right {a b c : W} (h : c ≠ impossible) : a + c < b + c ↔ a < b
  /-- A sum of possible weights is possible. -/
  add_ne_impossible {a b : W} (ha : a ≠ impossible) (hb : b ≠ impossible) : a + b ≠ impossible
  /-- The empty sum is possible. -/
  zero_ne_impossible : (0 : W) ≠ impossible

export AbsorbingWeight (impossible_add add_impossible)

export LawfulWeight (not_lt_impossible)

namespace OrderedWeight

variable {W : Type u} [LogWeight W] [OrderedWeight W]

/-- What exceeds a weight exceeds everything that this weight is at least as great as. -/
lemma lt_of_not_lt_of_lt {a b c : W} (h : ¬ a < b) (h' : a < c) : b < c := by
  by_contra hbc
  exact not_lt_trans h hbc h'

/-- What is exceeded by a weight is exceeded by everything at least as great. -/
lemma lt_of_lt_of_not_lt {a b c : W} (h : a < b) (h' : ¬ c < b) : a < c := by
  by_contra hac
  exact not_lt_trans hac h' h

/-- What is exceeded by a weight is exceeded by everything that exceeds this weight. -/
lemma lt_trans {a b c : W} (h : a < b) (h' : b < c) : a < c :=
  lt_of_lt_of_not_lt h (lt_asymm h')

end OrderedWeight

/-! ### The first greatest candidate -/

section FirstMax

variable {α : Type u} {W : Type v} [LT W]

/-- A candidate is the first of the greatest in a list: it exceeds all before it, and none after it
exceeds it. -/
def IsFirstMax (weight : α → W) (l : List α) (a : α) : Prop :=
  ∃ before after, l = before ++ a :: after ∧ (∀ b ∈ before, weight b < weight a) ∧
    ∀ b ∈ after, ¬ weight a < weight b

namespace IsFirstMax

variable {weight : α → W} {l : List α} {a : α}

/-- The first of the greatest is kept, however weights compare. -/
lemma firstMax?_eq [DecidableLT W] (h : IsFirstMax weight l a) : firstMax? weight l = some a := by
  obtain ⟨before, after, rfl, hbefore, hafter⟩ := h
  have hkeep : after.foldl (keepGreater weight) a = a := by
    induction after with
    | nil => rfl
    | cons b after ih =>
      obtain ⟨hb, hafter⟩ := List.forall_mem_cons.1 hafter
      rw [List.foldl_cons, keepGreater, if_neg hb, ih hafter]
  cases before with
  | nil => exact congrArg some hkeep
  | cons c before =>
    -- whatever is kept before the candidate is exceeded by it
    have hkept := hbefore _ (foldl_keepGreater_mem weight c before)
    rw [List.cons_append, firstMax?, List.foldl_append, List.foldl_cons, keepGreater, if_pos hkept,
      hkeep]

/-- There is only one first of the greatest. -/
lemma unique [DecidableLT W] {a' : α} (h : IsFirstMax weight l a) (h' : IsFirstMax weight l a') :
    a = a' :=
  Option.some.inj (h.firstMax?_eq.symm.trans h'.firstMax?_eq)

/-- The first of the greatest images is the image of the first of the greatest. -/
lemma exists_of_map {β : Type w} {f : β → α} {l : List β} (h : IsFirstMax weight (l.map f) a) :
    ∃ b, f b = a ∧ IsFirstMax (fun b => weight (f b)) l b := by
  obtain ⟨before, after, hsplit, hbefore, hafter⟩ := h
  obtain ⟨before', rest, rfl, rfl, hrest⟩ := List.map_eq_append_iff.1 hsplit
  obtain ⟨b, after', rfl, rfl, rfl⟩ := List.map_eq_cons_iff.1 hrest
  exact ⟨b, rfl, before', after', rfl, fun c hc => hbefore _ (List.mem_map_of_mem hc),
    fun c hc => hafter _ (List.mem_map_of_mem hc)⟩

/-- Weights that compare in the same way have the same first of the greatest. -/
lemma of_lt_iff {V : Type w} [LT V] {weight' : α → V} (h : IsFirstMax weight l a)
    (hlt : ∀ b ∈ l, ∀ c ∈ l, weight b < weight c ↔ weight' b < weight' c) :
    IsFirstMax weight' l a := by
  obtain ⟨before, after, rfl, hbefore, hafter⟩ := h
  have ha : a ∈ before ++ a :: after := List.mem_append_right _ List.mem_cons_self
  refine ⟨before, after, rfl, fun b hb => ?_, fun b hb => ?_⟩
  · exact (hlt b (List.mem_append_left _ hb) a ha).1 (hbefore b hb)
  · have hmem : b ∈ before ++ a :: after := List.mem_append_right _ (List.mem_cons_of_mem a hb)
    exact fun hgt => hafter b hb ((hlt a ha b hmem).2 hgt)

end IsFirstMax

end FirstMax

section Choice

open OrderedWeight

variable {α : Type u} {W : Type v} [LogWeight W] [OrderedWeight W]

/-- The candidate kept at the end of a list is the first of the greatest, among the candidates of
the list and the one kept before it.

**Proof sketch.** Induction on the list. If the first candidate takes the place of the one kept,
then the one kept is less than it, and so less than what is kept at the end. If not, the one kept
stands before the first candidate; where it is exceeded later on, so is the first candidate. -/
lemma isFirstMax_foldl_keepGreater {weight : α → W} {l : List α} {kept a : α}
    (h : l.foldl (keepGreater weight) kept = a) : IsFirstMax weight (kept :: l) a := by
  induction l generalizing kept with
  | nil => exact ⟨[], [], by simpa using h, by simp⟩
  | cons c l ih =>
    rw [List.foldl_cons] at h
    by_cases hc : weight kept < weight c
    · rw [keepGreater, if_pos hc] at h
      obtain ⟨before, after, hl, hb, ha⟩ := ih h
      refine ⟨kept :: before, after, by rw [hl, List.cons_append], ?_, ha⟩
      intro b hmem
      rcases List.mem_cons.1 hmem with rfl | hmem
      · rcases List.cons_eq_append_iff.1 hl with ⟨rfl, hca⟩ | ⟨before', rfl, -⟩
        · rw [(List.cons.inj hca).1]
          exact hc
        · exact lt_trans hc (hb c List.mem_cons_self)
      · exact hb b hmem
    · rw [keepGreater, if_neg hc] at h
      obtain ⟨before, after, hl, hb, ha⟩ := ih h
      rcases List.cons_eq_append_iff.1 hl with ⟨rfl, hk⟩ | ⟨before', rfl, rfl⟩
      · obtain ⟨rfl, rfl⟩ := List.cons.inj hk
        refine ⟨[], c :: after, rfl, by simp, ?_⟩
        intro b hmem
        rcases List.mem_cons.1 hmem with rfl | hmem
        · exact hc
        · exact ha b hmem
      · refine ⟨kept :: c :: before', after, rfl, ?_, ha⟩
        have hkept := hb kept List.mem_cons_self
        intro b hmem
        rcases List.mem_cons.1 hmem with rfl | hmem
        · exact hkept
        rcases List.mem_cons.1 hmem with rfl | hmem
        · exact lt_of_not_lt_of_lt hc hkept
        · exact hb b (List.mem_cons_of_mem _ hmem)

/-- **The candidate that is kept is the first of the greatest.** -/
theorem isFirstMax_of_firstMax? {weight : α → W} {l : List α} {a : α}
    (h : firstMax? weight l = some a) : IsFirstMax weight l a := by
  cases l with
  | nil => cases h
  | cons c l => exact isFirstMax_foldl_keepGreater (Option.some.inj h)

end Choice

/-! ### Exact weights -/

section WithBot

variable {α : Type u} [AddMonoid α] [LinearOrder α]

/-- Exact log weights: the elements of a linearly ordered monoid, and a least one for what is
impossible. -/
instance : LogWeight (WithBot α) where
  decidableLT := inferInstance
  impossible := ⊥

/-- Exact weights obey the laws of weights. -/
instance [AddRightMono α] : LawfulWeight (WithBot α) where
  lt_asymm := lt_asymm
  not_lt_trans h h' := not_lt.2 ((not_lt.1 h').trans (not_lt.1 h))
  add_mono c h := not_lt.2 (add_le_add_left (not_lt.1 h) c)
  impossible_add := WithBot.bot_add
  add_impossible := WithBot.add_bot
  not_lt_impossible _ := not_lt_bot

end WithBot

/-- Exact weights that cancel remain so with the impossible one beside them. -/
instance {α : Type u} [AddCommMonoid α] [LinearOrder α] [IsOrderedCancelAddMonoid α] :
    CancellativeWeight (WithBot α) where
  add_lt_add_iff_left := WithBot.add_lt_add_iff_left
  add_lt_add_iff_right := WithBot.add_lt_add_iff_right
  add_ne_impossible ha hb := WithBot.add_ne_bot.2 ⟨ha, hb⟩
  zero_ne_impossible := WithBot.zero_ne_bot

end TrellisTagger

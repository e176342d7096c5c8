import TrellisTagger.Proofs.Viterbi.Lattice

/-!
# Viterbi decoding finds the goal

Whatever the weights are, and whether or not they can be compared, Viterbi decoding ends, and it
returns a path from the start to the goal just if there is one.

## Main results

* `TrellisTagger.Viterbi.decode_finds_walk` — the run of the decoder and its two outcomes.

## Implementation notes

The bound on the number of columns is the number of states. A trellis with cycles never runs out of
states to go to, so only the bound ends a search for a goal that cannot be reached. It comes into
play no earlier, because a shortest walk meets no state twice.
-/

namespace TrellisTagger.Viterbi

universe u v

variable {S : Type u} {W : Type v} [DecidableEq S] [LogWeight W]

/-- A greater bound than the number of states changes nothing.

**Proof sketch.** If the goal can be reached, then by fewer hops than there are states, and either
bound allows for these. If not, the construction fails under both. -/
lemma columns?_of_stateCount_le {t : Trellis S W} (ht : t.Mirrored) {start goal : S}
    (hgoal : t.goal = some goal) {bound : Nat} (hbound : t.stateCount ≤ bound) :
    columns? t goal bound (startColumn start) [] =
      columns? t goal t.stateCount (startColumn start) [] := by
  by_cases hwalk : ∃ path, t.Walk start goal path
  · obtain ⟨path, hpath⟩ := hwalk
    obtain ⟨n, hn, hreach, hfirst⟩ := Trellis.exists_first_reaches hpath hgoal
    rw [columns?_eq_some ht (by omega) hreach hfirst, columns?_eq_some ht (by omega) hreach hfirst]
  · have hnone : ∀ path, ¬ t.Walk start goal path := fun path hpath => hwalk ⟨path, hpath⟩
    rw [columns?_eq_none ht hnone, columns?_eq_none ht hnone]

/-- Tracing back from the goal never fails. -/
lemma isSome_trace? {t : Trellis S W} (ht : t.Mirrored) {start goal : S} {bound : Nat}
    {cols : List (Column S W)} (h : columns? t goal bound (startColumn start) [] = some cols) :
    (trace? cols goal []).isSome := by
  obtain ⟨n, -, rfl, hreach, hfirst⟩ := exists_of_columns?_eq_some ht h
  obtain ⟨path, hpath, -⟩ := exists_trace? ht (goal_mem_column ht hreach hfirst) []
  rw [hpath]
  rfl

/-- **Viterbi decoding finds the goal just if it can be reached, whatever the weights are.** In
every trellis made by edits, with both endpoints chosen:

* the construction of the lattice ends after at most as many columns as there are states, and under
  a greater bound it would end in the same way;
* every state in a frontier has a best predecessor in the column, and every backpointer that is
  followed is there;
* if some walk leads from the start to the goal, decoding returns a list that begins with the start,
  ends with the goal and takes a transition at every step;
* if none does, decoding says that the goal is unreachable.

**Proof sketch.** `exists_endsAfter` is the run of the construction, and `decode_cases` its outcome;
the bound is harmless by `columns?_of_stateCount_le`. -/
theorem decode_finds_walk {t : Trellis S W} (ht : t.Reachable) {start goal : S}
    (hstart : t.start = some start) (hgoal : t.goal = some goal) :
    (∃ n ≤ t.stateCount, EndsAfter t goal start t.stateCount 0 n) ∧
      (∀ bound ≥ t.stateCount, columns? t goal bound (startColumn start) [] =
        columns? t goal t.stateCount (startColumn start) []) ∧
      (∀ (col : Column S W), ∀ s ∈ frontier t col, (bestArrival? t col s).isSome) ∧
      (∀ bound cols, columns? t goal bound (startColumn start) [] = some cols →
        (trace? cols goal []).isSome) ∧
      ((∃ path, t.Walk start goal path) →
        ∃ path, decode t = .ok path ∧ path.head? = some start ∧ path.getLast? = some goal ∧
          path.IsChain fun a b => (t.weight? a b).isSome) ∧
      (decode t = .error (.unreachable start goal) ↔ ¬ ∃ path, t.Walk start goal path) := by
  have hm := ht.mirrored
  have hcases := decode_cases hm hstart hgoal
  refine ⟨?_, fun bound hbound => columns?_of_stateCount_le hm hgoal hbound,
    fun col s hs => isSome_bestArrival? hm hs, fun bound cols h => isSome_trace? hm h, ?_, ?_⟩
  · obtain ⟨n, hn⟩ := exists_endsAfter t goal start t.stateCount 0
    exact ⟨n, hn.le_bound, hn⟩
  · rintro ⟨path, hpath⟩
    rcases hcases with ⟨n, found, hfound, htraced, -⟩ | ⟨-, hnone⟩
    · have hwalk := htraced.walk hm
      exact ⟨found, hfound, hwalk.head?_eq, hwalk.getLast?_eq, hwalk.isChain⟩
    · exact absurd hpath (hnone path)
  · constructor
    · rintro herr ⟨path, hpath⟩
      rcases hcases with ⟨n, found, hfound, -, -⟩ | ⟨-, hnone⟩
      · rw [hfound] at herr
        cases herr
      · exact hnone path hpath
    · intro hnone
      rcases hcases with ⟨n, found, -, htraced, -⟩ | ⟨herr, -⟩
      · exact absurd ⟨found, htraced.walk hm⟩ hnone
      · exact herr

/-- A trellis with a loop, a cycle, and weights that are infinite or compare with nothing. -/
def restless : Trellis Nat Float :=
  (Trellis.ofEndpoints (some 0) (some 2)).setAll
    [(0, 0, 0 / 0), (0, 1, Binary64.infinity true), (1, 0, Binary64.infinity false), (1, 2, 0 / 0)]

/-- The goal of `restless` is found, although the only shortest walk meets all of its states. -/
theorem decode_restless :
    restless.Reachable ∧ restless.start = some 0 ∧ restless.goal = some 2 ∧
      ∃ path, decode restless = .ok path ∧ path.head? = some 0 ∧ path.getLast? = some 2 ∧
        path.IsChain fun a b => (restless.weight? a b).isSome := by
  have hreach : restless.Reachable := (Trellis.Reachable.new _ _).setAll _
  have hwalk : restless.Walk 0 2 [0, 1, 2] := .step rfl (.step rfl (.stay 2))
  exact ⟨hreach, rfl, rfl, (decode_finds_walk hreach rfl rfl).2.2.2.2.1 ⟨_, hwalk⟩⟩

end TrellisTagger.Viterbi

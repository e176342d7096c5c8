import TrellisTagger.Proofs.SentenceTrellis.Layers

/-!
# The order of predecessors

Viterbi decoding chooses between predecessors in the order in which they were written. This file
says what this order is in the trellis of a sentence: that of the layer before.

## Main results

* `TrellisTagger.SentenceTrellis.nextFrontier_eq` — a layer lists what its states are made from, in
  order.
* `TrellisTagger.SentenceTrellis.filter_edges_into` — only one layer has edges into a state.
* `TrellisTagger.SentenceTrellis.entries_predecessors` — the states of the layer before that lead to
  a state precede it, in the order of their layer.
-/

namespace TrellisTagger.SentenceTrellis

universe u

variable {W : Type u} {scores : Scores W} {words : List Word}

/-- The states of the next layer in order: for each state the tags scored in its context, without
repetitions. -/
lemma nextFrontier_eq (states : List State) :
    nextFrontier scores words states =
      distinct (states.flatMap fun s => (scores (s.context words)).keys.map s.next) := by
  rw [nextFrontier, layer, List.map_flatMap]
  simp only [steps, List.map_map, Table.keys]
  rfl

/-- No state is listed twice at a position. -/
lemma nodup_frontier (k : Nat) : (frontier scores words k).Nodup := by
  cases k with
  | zero => exact List.nodup_singleton _
  | succ k =>
    rw [frontier_succ]
    exact nodup_distinct _

/-! ### Edges into a state -/

/-- The weight of the one transition that can lead from a state to another. -/
def weightInto? (scores : Scores W) (words : List Word) (q s : State) : Option W :=
  if q.next s.previous = s then (scores (q.context words)).get? s.previous else none

/-- At most one step of a state leads to another. -/
lemma filter_steps_into (q s : State) :
    (steps scores words q).filter (fun e => e.2.1 = s) =
      ((weightInto? scores words q s).map fun w => (q, s, w)).toList := by
  rw [steps, List.filter_map, weightInto?]
  split
  · rename_i hs
    have hentries : (scores (q.context words)).entries.filter
        ((fun e : State × State × W => decide (e.2.1 = s)) ∘ fun e => (q, q.next e.1, e.2)) =
        (scores (q.context words)).entries.filter fun e => e.1 = s.previous := by
      refine List.filter_congr fun e _ => decide_eq_decide.2 ?_
      exact ⟨fun h => congrArg State.previous h, fun h => (congrArg q.next h).trans hs⟩
    rw [hentries, Table.filter_entries]
    cases (scores (q.context words)).get? s.previous with
    | none => rfl
    | some w => simp [hs]
  · rename_i hs
    rw [List.filter_eq_nil_iff.2]
    · rfl
    · intro e _ he
      rw [Function.comp_apply, decide_eq_true_iff] at he
      exact hs (by rw [← he]; rfl)

/-- The edges of a layer into a state, in the order of the layer. -/
lemma filter_layer_into (states : List State) (s : State) :
    (layer scores words states).filter (fun e => e.2.1 = s) =
      states.filterMap fun q => (weightInto? scores words q s).map fun w => (q, s, w) := by
  induction states with
  | nil => rfl
  | cons q states ih =>
    have hsplit : layer scores words (q :: states) =
        steps scores words q ++ layer scores words states := rfl
    rw [hsplit, List.filter_append, filter_steps_into, ih, List.filterMap_cons]
    cases weightInto? scores words q s <;> rfl

/-- Every edge takes a state of some layer to the next position. -/
lemma position_of_mem_edges {n : Nat} {states : List State} {i : Int}
    (hpos : ∀ s ∈ states, s.position = i) {e : State × State × W}
    (h : e ∈ edges scores words n states) : i < e.2.1.position := by
  obtain ⟨k, -, hs, he⟩ := exists_of_mem_edges h
  have hposition := position_iterate hpos k e.1 hs
  obtain ⟨tag, w, -, heq⟩ := mem_steps.1 he
  have hnext : e.2.1.position = e.1.position + 1 := congrArg (fun e => e.2.1.position) heq
  omega

/-- **Only the layer before a state has edges into it.**

**Proof sketch.** Induction on the number of layers. The edges of a layer lead to the next position,
and those of all later layers lead further. -/
lemma filter_edges_into {n k : Nat} {states : List State} {i : Int}
    (hpos : ∀ s ∈ states, s.position = i) (hk : k < n) {s : State} (hs : s.position = i + k + 1) :
    (edges scores words n states).filter (fun e => e.2.1 = s) =
      (layer scores words ((nextFrontier scores words)^[k] states)).filter fun e => e.2.1 = s := by
  induction n generalizing k states i with
  | zero => omega
  | succ n ih =>
    have hsplit : edges scores words (n + 1) states =
        layer scores words states ++ edges scores words n (nextFrontier scores words states) := rfl
    have hpos' : ∀ s ∈ nextFrontier scores words states, s.position = i + 1 :=
      position_nextFrontier hpos
    rw [hsplit, List.filter_append]
    cases k with
    | zero =>
      have hlater : (edges scores words n (nextFrontier scores words states)).filter
          (fun e => e.2.1 = s) = [] := by
        rw [List.filter_eq_nil_iff]
        intro e he hes
        have hlate := position_of_mem_edges hpos' he
        rw [of_decide_eq_true hes] at hlate
        omega
      rw [hlater, List.append_nil]
      rfl
    | succ k =>
      have hearly : (layer scores words states).filter (fun e => e.2.1 = s) = [] := by
        rw [List.filter_eq_nil_iff]
        intro e he hes
        obtain ⟨hmem, hstep⟩ := mem_layer.1 he
        obtain ⟨tag, w, -, heq⟩ := mem_steps.1 hstep
        have hnext : e.2.1.position = e.1.position + 1 := congrArg (fun e => e.2.1.position) heq
        rw [of_decide_eq_true hes, hpos e.1 hmem] at hnext
        omega
      rw [hearly, List.nil_append]
      exact ih hpos' (by omega) (by omega)

/-- **The predecessors of a state** are the states of the layer before that lead to it, in the order
of this layer, with the scores as weights.

**Proof sketch.** Among all edges those into the state come from one layer, at most one from each of
its states; so writing them one after another lists them as they stand. -/
theorem entries_predecessors {k : Nat} (hk : k < words.length + 2) {s : State}
    (hs : s.position = k + 1) :
    ((sentenceTrellis scores words).predecessors s).entries =
      (frontier scores words k).filterMap fun q =>
        (weightInto? scores words q s).map fun w => (q, w) := by
  let preceding := (frontier scores words k).filterMap fun q =>
    (weightInto? scores words q s).map fun w => (q, w)
  have hedges : (edges scores words (words.length + 2) [State.start]).filter (fun e => e.2.1 = s) =
      preceding.map fun e => (e.1, s, e.2) := by
    rw [filter_edges_into (i := 0) (by simp [State.start]) hk (by omega), filter_layer_into,
      List.map_filterMap]
    simp only [Option.map_map]
    rfl
  have htable : (sentenceTrellis scores words).predecessors s = Table.ofList preceding := by
    rw [sentenceTrellis, Trellis.predecessors_setAll, hedges, Table.ofList, List.foldl_map]
    rfl
  -- a state of the layer precedes at most once
  have hkeys : preceding.map Prod.fst =
      (frontier scores words k).filter fun q => (weightInto? scores words q s).isSome := by
    rw [List.map_filterMap, ← List.filterMap_eq_filter]
    refine List.filterMap_congr fun q _ => ?_
    cases hw : weightInto? scores words q s <;> simp [Option.guard, hw]
  rw [htable, Table.entries_ofList (hkeys ▸ (nodup_frontier k).filter _)]

end TrellisTagger.SentenceTrellis

import Mathlib.Logic.Function.Iterate
import TrellisTagger.Proofs.Trellis.Hops
import TrellisTagger.SentenceTrellis

/-!
# The layers of a sentence trellis

The states of a sentence trellis lie in layers, one for each position, and are expanded once each.
So its transitions can be told from the scores alone.

## Main definitions

* `TrellisTagger.SentenceTrellis.nextFrontier` — the states of the next position.
* `TrellisTagger.SentenceTrellis.frontier` — the states of a position.
* `TrellisTagger.SentenceTrellis.Expanded` — the states out of which transitions are set.

## Main results

* `TrellisTagger.SentenceTrellis.entries_successors` — the transitions out of an expanded state are
  one for each tag scored in its context, in the order of the tags.
* `TrellisTagger.SentenceTrellis.weight?_eq_some_iff` — there are no others.
* `TrellisTagger.SentenceTrellis.exists_mem_frontier_of_walk`,
  `TrellisTagger.SentenceTrellis.exists_walk_of_mem_frontier` — the states of the layers are those
  that can be reached from the start.
-/

namespace TrellisTagger

universe u

/-- Different tags lead from a state to different states. -/
theorem State.next_injective (s : State) {a b : Tag} (h : s.next a = s.next b) : a = b :=
  congrArg State.previous h

/-- The trellis of a sentence is made by edits. -/
lemma reachable_sentenceTrellis {W : Type u} (scores : Scores W) (words : List Word) :
    (sentenceTrellis scores words).Reachable :=
  (Trellis.Reachable.new _ _).setAll _

/-- The trellis of a sentence begins with the start state. -/
lemma start_sentenceTrellis {W : Type u} (scores : Scores W) (words : List Word) :
    (sentenceTrellis scores words).start = some State.start :=
  Trellis.start_setAll _ _

/-- The trellis of a sentence ends with the stop state behind its words. -/
lemma goal_sentenceTrellis {W : Type u} (scores : Scores W) (words : List Word) :
    (sentenceTrellis scores words).goal = some (State.stop words.length) :=
  Trellis.goal_setAll _ _

namespace SentenceTrellis

variable {W : Type u} {scores : Scores W} {words : List Word}

/-- The states of the next position. -/
def nextFrontier (scores : Scores W) (words : List Word) (states : List State) : List State :=
  distinct ((layer scores words states).map fun e => e.2.1)

/-- The states of a position. -/
def frontier (scores : Scores W) (words : List Word) (k : Nat) : List State :=
  (nextFrontier scores words)^[k] [State.start]

/-- A state is expanded if it lies in one of the layers before the last. -/
def Expanded (scores : Scores W) (words : List Word) (s : State) : Prop :=
  ∃ k < words.length + 2, s ∈ frontier scores words k

/-! ### Layers -/

/-- The transitions out of a state are made from the tags scored in its context, each with its
score. -/
lemma mem_steps {s : State} {e : State × State × W} :
    e ∈ steps scores words s ↔
      ∃ tag w, (scores (s.context words)).get? tag = some w ∧ e = (s, s.next tag, w) := by
  rw [steps, List.mem_map]
  constructor
  · rintro ⟨⟨tag, w⟩, hw, rfl⟩
    exact ⟨tag, w, Table.get?_eq_some_iff.2 hw, rfl⟩
  · rintro ⟨tag, w, hw, rfl⟩
    exact ⟨(tag, w), Table.get?_eq_some_iff.1 hw, rfl⟩

/-- The transitions of a layer are those out of its states. -/
lemma mem_layer {states : List State} {e : State × State × W} :
    e ∈ layer scores words states ↔ e.1 ∈ states ∧ e ∈ steps scores words e.1 := by
  rw [layer, List.mem_flatMap]
  constructor
  · rintro ⟨s, hs, he⟩
    obtain ⟨tag, w, hw, rfl⟩ := mem_steps.1 he
    exact ⟨hs, he⟩
  · rintro ⟨hs, he⟩
    exact ⟨e.1, hs, he⟩

/-- A state of the next position is reached by a tag scored in the context of a state before it. -/
lemma mem_nextFrontier {states : List State} {s : State} :
    s ∈ nextFrontier scores words states ↔
      ∃ q ∈ states, ∃ tag w, (scores (q.context words)).get? tag = some w ∧ s = q.next tag := by
  rw [nextFrontier, mem_distinct, List.mem_map]
  constructor
  · rintro ⟨e, he, rfl⟩
    obtain ⟨hq, he⟩ := mem_layer.1 he
    obtain ⟨tag, w, hw, he⟩ := mem_steps.1 he
    exact ⟨e.1, hq, tag, w, hw, congrArg (fun e => e.2.1) he⟩
  · rintro ⟨q, hq, tag, w, hw, rfl⟩
    exact ⟨(q, q.next tag, w), mem_layer.2 ⟨hq, mem_steps.2 ⟨tag, w, hw, rfl⟩⟩, rfl⟩

/-- The start state is in the first layer. -/
lemma start_mem_frontier : State.start ∈ frontier scores words 0 := List.mem_singleton.2 rfl

/-- The states of a position are those reached from the position before. -/
lemma frontier_succ (k : Nat) :
    frontier scores words (k + 1) = nextFrontier scores words (frontier scores words k) :=
  Function.iterate_succ_apply' _ k _

/-- Choosing a scored tag leads to the next layer. -/
lemma next_mem_frontier {k : Nat} {s : State} (hs : s ∈ frontier scores words k) {tag : Tag}
    (htag : tag ∈ (scores (s.context words)).keys) :
    s.next tag ∈ frontier scores words (k + 1) := by
  obtain ⟨w, hw⟩ := Table.mem_keys_iff.1 htag
  rw [frontier_succ]
  exact mem_nextFrontier.2 ⟨s, hs, tag, w, hw, rfl⟩

/-- One step takes every state to the next position. -/
lemma position_nextFrontier {states : List State} {i : Int} (h : ∀ s ∈ states, s.position = i) :
    ∀ s ∈ nextFrontier scores words states, s.position = i + 1 := by
  intro s hs
  obtain ⟨q, hq, tag, w, -, rfl⟩ := mem_nextFrontier.1 hs
  rw [State.next, h q hq]

/-- As many steps take every state as many positions further. -/
lemma position_iterate {states : List State} {i : Int} (h : ∀ s ∈ states, s.position = i)
    (k : Nat) : ∀ s ∈ (nextFrontier scores words)^[k] states, s.position = i + k := by
  induction k with
  | zero => simpa using h
  | succ k ih =>
    intro s hs
    rw [Function.iterate_succ_apply'] at hs
    rw [position_nextFrontier ih s hs]
    omega

/-- The states of a layer have its position. -/
lemma position_of_mem_frontier {k : Nat} {s : State} (h : s ∈ frontier scores words k) :
    s.position = k := by
  have := position_iterate (i := 0) (by simp [State.start]) k s h
  omega

/-- A state that is expanded has the position of a word or of one of the two stop symbols. -/
lemma Expanded.position_bounds {s : State} (h : Expanded scores words s) :
    0 ≤ s.position ∧ s.position ≤ words.length + 1 := by
  obtain ⟨k, hk, hs⟩ := h
  have := position_of_mem_frontier hs
  omega

/-! ### Edges -/

/-- All the steps of a state leave it, and none leave another state. -/
lemma filter_steps (q s : State) :
    (steps scores words q).filter (fun e => e.1 = s) =
      if q = s then steps scores words q else [] := by
  split
  · rename_i hq
    rw [List.filter_eq_self]
    intro e he
    obtain ⟨tag, w, -, rfl⟩ := mem_steps.1 he
    simpa using hq
  · rename_i hq
    rw [List.filter_eq_nil_iff]
    intro e he
    obtain ⟨tag, w, -, rfl⟩ := mem_steps.1 he
    simpa using hq

/-- Each state of a layer has its steps once. -/
lemma filter_layer {states : List State} (h : states.Nodup) (s : State) :
    (layer scores words states).filter (fun e => e.1 = s) =
      if s ∈ states then steps scores words s else [] := by
  induction states with
  | nil => rfl
  | cons q states ih =>
    obtain ⟨hq, hnodup⟩ := List.nodup_cons.1 h
    have hsplit : layer scores words (q :: states) =
        steps scores words q ++ layer scores words states := rfl
    rw [hsplit, List.filter_append, filter_steps, ih hnodup]
    by_cases hqs : q = s
    · subst hqs
      simp [hq]
    · simp [hqs, Ne.symm hqs]

/-- Every edge is a step out of a state of some layer. -/
lemma exists_of_mem_edges {n : Nat} {states : List State} {e : State × State × W}
    (h : e ∈ edges scores words n states) :
    ∃ k < n, e.1 ∈ (nextFrontier scores words)^[k] states ∧ e ∈ steps scores words e.1 := by
  induction n generalizing states with
  | zero => cases h
  | succ n ih =>
    rcases List.mem_append.1 h with h | h
    · obtain ⟨hs, he⟩ := mem_layer.1 h
      exact ⟨0, Nat.succ_pos n, hs, he⟩
    · obtain ⟨k, hk, hs, he⟩ := ih h
      exact ⟨k + 1, Nat.succ_lt_succ hk, hs, he⟩

/-- The edges out of a state of some layer are its steps, once each.

**Proof sketch.** Induction on the number of layers. A state of the first layer has its steps there,
and none in the later layers, whose states have other positions; any other state has none in the
first. -/
lemma filter_edges {n k : Nat} {states : List State} {i : Int} (hnodup : states.Nodup)
    (hpos : ∀ s ∈ states, s.position = i) (hk : k < n) {s : State}
    (hs : s ∈ (nextFrontier scores words)^[k] states) :
    (edges scores words n states).filter (fun e => e.1 = s) = steps scores words s := by
  induction n generalizing k states i with
  | zero => omega
  | succ n ih =>
    have hsplit : edges scores words (n + 1) states =
        layer scores words states ++ edges scores words n (nextFrontier scores words states) := rfl
    rw [hsplit, List.filter_append, filter_layer hnodup]
    cases k with
    | zero =>
      have hs : s ∈ states := hs
      rw [if_pos hs]
      have hlater : (edges scores words n (nextFrontier scores words states)).filter
          (fun e => e.1 = s) = [] := by
        rw [List.filter_eq_nil_iff]
        intro e he hes
        obtain ⟨j, -, hj, -⟩ := exists_of_mem_edges he
        have hlate := position_iterate hpos (j + 1) e.1 hj
        rw [of_decide_eq_true hes, hpos s hs] at hlate
        omega
      rw [hlater, List.append_nil]
    | succ k =>
      have hearly : s ∉ states := fun hmem => by
        have hlate := position_iterate hpos (k + 1) s hs
        rw [hpos s hmem] at hlate
        omega
      rw [if_neg hearly, List.nil_append]
      exact ih (nodup_distinct _) (position_nextFrontier hpos) (by omega) hs

/-! ### Transitions -/

/-- **The transitions out of an expanded state** are one for each tag scored in its context, in the
order of the tags, with the scores as weights.

**Proof sketch.** Among all edges those out of the state are its steps. They lead to different
states, so setting them one after another lists them as they stand. -/
theorem entries_successors {s : State} (h : Expanded scores words s) :
    ((sentenceTrellis scores words).successors s).entries =
      (scores (s.context words)).entries.map fun e => (s.next e.1, e.2) := by
  obtain ⟨k, hk, hs⟩ := h
  have hedges : (edges scores words (words.length + 2) [State.start]).filter (fun e => e.1 = s) =
      steps scores words s :=
    filter_edges (i := 0) (List.nodup_singleton _) (by simp [State.start]) hk hs
  have htable : (sentenceTrellis scores words).successors s =
      Table.ofList ((scores (s.context words)).entries.map fun e => (s.next e.1, e.2)) := by
    rw [sentenceTrellis, Trellis.successors_setAll, hedges, steps, Table.ofList, List.foldl_map,
      List.foldl_map]
    rfl
  rw [htable, Table.entries_ofList]
  have hkeys := (scores (s.context words)).keys_nodup
  have hmap := hkeys.map fun _ _ => s.next_injective
  simpa [List.map_map, Function.comp_def] using hmap

/-- No transition leaves a state that is not expanded. -/
lemma expanded_of_weight? {a b : State} {w : W}
    (h : (sentenceTrellis scores words).weight? a b = some w) : Expanded scores words a := by
  have hmem := Trellis.mem_forward_of_weight? h
  rw [sentenceTrellis, Trellis.mem_forward_setAll] at hmem
  rcases hmem with hmem | hmem
  · cases hmem
  · obtain ⟨e, he, rfl⟩ := List.mem_map.1 hmem
    obtain ⟨k, hk, hs, -⟩ := exists_of_mem_edges he
    exact ⟨k, hk, hs⟩

/-- The weight of choosing a tag in an expanded state is its score, if it has one. -/
lemma weight?_next {s : State} (h : Expanded scores words s) (tag : Tag) :
    (sentenceTrellis scores words).weight? s (s.next tag) =
      (scores (s.context words)).get? tag := by
  rw [Trellis.weight?]
  ext w
  rw [Table.get?_eq_some_iff, Table.get?_eq_some_iff, entries_successors h, List.mem_map]
  constructor
  · rintro ⟨e, he, heq⟩
    obtain ⟨htag, rfl⟩ := Prod.mk.inj heq
    rwa [← s.next_injective htag]
  · intro hmem
    exact ⟨(tag, w), hmem, rfl⟩

/-- **The transitions of a sentence trellis** are those from an expanded state by a tag scored in
its context. -/
theorem weight?_eq_some_iff {a b : State} {w : W} :
    (sentenceTrellis scores words).weight? a b = some w ↔
      Expanded scores words a ∧
        ∃ tag, (scores (a.context words)).get? tag = some w ∧ b = a.next tag := by
  constructor
  · intro h
    have hexp := expanded_of_weight? h
    rw [Trellis.weight?, Table.get?_eq_some_iff, entries_successors hexp, List.mem_map] at h
    obtain ⟨e, he, heq⟩ := h
    obtain ⟨rfl, rfl⟩ := Prod.mk.inj heq
    exact ⟨hexp, e.1, Table.get?_eq_some_iff.2 he, rfl⟩
  · rintro ⟨hexp, tag, hw, rfl⟩
    rw [weight?_next hexp, hw]

/-- Every transition leads from one position to the next. -/
lemma position_of_weight? {a b : State} {w : W}
    (h : (sentenceTrellis scores words).weight? a b = some w) : b.position = a.position + 1 := by
  obtain ⟨-, tag, -, rfl⟩ := weight?_eq_some_iff.1 h
  rfl

/-- The positions of its endpoints determine the length of a walk. -/
lemma length_of_walk {a b : State} {path : List State}
    (h : (sentenceTrellis scores words).Walk a b path) :
    (path.length : Int) = b.position - a.position + 1 :=
  h.length_of_layered fun _ _ _ => position_of_weight?

/-! ### Reachable states -/

/-- Walks from the layers stay in the layers. -/
lemma exists_mem_frontier_of_walk {a b : State} {path : List State}
    (h : (sentenceTrellis scores words).Walk a b path)
    (ha : ∃ k ≤ words.length + 2, a ∈ frontier scores words k) :
    ∃ k ≤ words.length + 2, b ∈ frontier scores words k := by
  induction h with
  | stay a => exact ha
  | step hab _ ih =>
    obtain ⟨⟨k, hk, hmem⟩, tag, hw, rfl⟩ := weight?_eq_some_iff.1 hab
    refine ih ⟨k + 1, by omega, ?_⟩
    rw [frontier_succ]
    exact mem_nextFrontier.2 ⟨_, hmem, tag, _, hw, rfl⟩

/-- A state that is reached before the last position is expanded. -/
lemma expanded_of_walk {s : State} {path : List State}
    (h : (sentenceTrellis scores words).Walk State.start s path)
    (hpos : s.position ≤ words.length + 1) : Expanded scores words s := by
  obtain ⟨k, -, hs⟩ := exists_mem_frontier_of_walk h ⟨0, by omega, start_mem_frontier⟩
  have := position_of_mem_frontier hs
  exact ⟨k, by omega, hs⟩

/-- Every state of a layer is reached from the start. -/
lemma exists_walk_of_mem_frontier {k : Nat} (hk : k ≤ words.length + 2) {s : State}
    (h : s ∈ frontier scores words k) :
    ∃ path, (sentenceTrellis scores words).Walk State.start s path := by
  induction k generalizing s with
  | zero =>
    obtain rfl := List.mem_singleton.1 h
    exact ⟨[State.start], .stay _⟩
  | succ k ih =>
    rw [frontier_succ] at h
    obtain ⟨q, hq, tag, w, hw, rfl⟩ := mem_nextFrontier.1 h
    obtain ⟨path, hpath⟩ := ih (by omega) hq
    exact ⟨_, hpath.snoc (weight?_eq_some_iff.2 ⟨⟨k, by omega, hq⟩, tag, hw, rfl⟩)⟩

/-- Every state of a sentence trellis, except perhaps the stop state, is reached from the start.

**Proof sketch.** A state is an endpoint, or a transition leaves or enters it. Transitions leave
expanded states, and what they enter is in the next layer. -/
lemma eq_stop_or_exists_walk {s : State} (h : s ∈ (sentenceTrellis scores words).states) :
    s = State.stop words.length ∨
      ∃ path, (sentenceTrellis scores words).Walk State.start s path := by
  rw [Trellis.mem_states, sentenceTrellis, Trellis.mem_forward_setAll, Trellis.mem_backward_setAll,
    Trellis.start_setAll, Trellis.goal_setAll] at h
  rcases h with (h | h) | (h | h) | h | h
  · cases h
  · obtain ⟨e, he, rfl⟩ := List.mem_map.1 h
    obtain ⟨k, hk, hs, -⟩ := exists_of_mem_edges he
    exact .inr (exists_walk_of_mem_frontier (Nat.le_of_lt hk) hs)
  · cases h
  · obtain ⟨e, he, rfl⟩ := List.mem_map.1 h
    obtain ⟨k, hk, hs, hstep⟩ := exists_of_mem_edges he
    obtain ⟨path, hpath⟩ := exists_walk_of_mem_frontier (Nat.le_of_lt hk) hs
    obtain ⟨tag, w, hw, he⟩ := mem_steps.1 hstep
    rw [he]
    exact .inr ⟨_, hpath.snoc (weight?_eq_some_iff.2 ⟨⟨k, hk, hs⟩, tag, hw, rfl⟩)⟩
  · obtain rfl := Option.some.inj h
    exact .inr ⟨_, .stay _⟩
  · obtain rfl := Option.some.inj h
    exact .inl rfl

end SentenceTrellis

end TrellisTagger

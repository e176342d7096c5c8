import TrellisTagger.Proofs.Table
import TrellisTagger.Proofs.Trellis.Edit

/-!
# What a trellis remembers

The two tables of a trellis create a row where one is asked for that is not there. So a reader who
does not look first would add a state to the trellis. This file makes the queries of a trellis
explicit, shows that they look first and leave everything as it is, and tells from the changes that
were made what a trellis answers.

## Main definitions

* `TrellisTagger.Table.fetch` — read a key, and write a default under it where there is nothing.
* `TrellisTagger.Trellis.Query`, `TrellisTagger.Trellis.ask` — the questions about a trellis, and
  the way in which its tables are read to answer them.
* `TrellisTagger.Trellis.Operation`, `TrellisTagger.Trellis.run` — changes and questions in any
  order.
* `TrellisTagger.Trellis.Represents` — a trellis answers all questions as the transitions that were
  set and the endpoints that were chosen say.

## Main results

* `TrellisTagger.Trellis.ask_eq` — a question changes nothing.
* `TrellisTagger.Trellis.run_eq` — a trellis is determined by its changes.
* `TrellisTagger.Trellis.run_represents` — every trellis represents its changes.
-/

namespace TrellisTagger

universe u v

/-! ### Reading tables that create rows -/

section Fetch

variable {K : Type u} {V : Type v} [DecidableEq K]

/-- Read what a table has under a key. Where it has nothing, a default is written there and read. -/
def Table.fetch (t : Table K V) (k : K) (d : V) : V × Table K V :=
  match t.get? k with
  | some v => (v, t)
  | none => (d, t.insert k d)

/-- Nothing is written where the key is known. -/
lemma Table.fetch_of_mem {t : Table K V} {k : K} (h : k ∈ t.keys) (d : V) :
    t.fetch k d = (t.getD k d, t) := by
  obtain ⟨v, hv⟩ := mem_keys_iff.1 h
  simp only [fetch, hv, getD_of_get? hv]

end Fetch

namespace Trellis

variable {S : Type u} {W : Type v}

/-! ### Questions -/

/-- The questions about a trellis. -/
inductive Query (S : Type u) where
  /-- Which states can follow a state? -/
  | successors (s : S)
  /-- Which states can precede a state? -/
  | predecessors (s : S)
  /-- What is the weight of a transition? -/
  | weight (a b : S)
  /-- Is a state in the trellis? -/
  | contains (s : S)
  /-- How many states are there? -/
  | stateCount
  /-- How many transitions are there? -/
  | transitionCount

/-- The answers to questions. -/
inductive Answer (S : Type u) (W : Type v) where
  /-- States with the weights of transitions. -/
  | neighbours (table : Table S W)
  /-- A weight, if there is one. -/
  | weight (w : Option W)
  /-- Yes or no. -/
  | truth (b : Bool)
  /-- A number. -/
  | count (n : Nat)

variable [DecidableEq S]

/-- Answer a question from the tables, which may change when a row is fetched. -/
def ask (t : Trellis S W) : Query S → Answer S W × Trellis S W
  | .successors s =>
    if t.forward.contains s then
      let (row, forward) := t.forward.fetch s ∅
      (.neighbours row, { t with forward })
    else (.neighbours ∅, t)
  | .predecessors s =>
    if t.backward.contains s then
      let (row, backward) := t.backward.fetch s ∅
      (.neighbours row, { t with backward })
    else (.neighbours ∅, t)
  | .weight a b =>
    if t.forward.contains a then
      let (row, forward) := t.forward.fetch a ∅
      (.weight (row.get? b), { t with forward })
    else (.weight none, t)
  | .contains s => (.truth (t.contains s), t)
  | .stateCount => (.count t.stateCount, t)
  | .transitionCount => (.count t.transitionCount, t)

/-- What the answer to a question is. -/
def answer (t : Trellis S W) : Query S → Answer S W
  | .successors s => .neighbours (t.successors s)
  | .predecessors s => .neighbours (t.predecessors s)
  | .weight a b => .weight (t.weight? a b)
  | .contains s => .truth (t.contains s)
  | .stateCount => .count t.stateCount
  | .transitionCount => .count t.transitionCount

/-- **A question changes nothing**, whether or not it is about states of the trellis: a row is
fetched only where there is one. -/
theorem ask_eq (t : Trellis S W) (q : Query S) : t.ask q = (t.answer q, t) := by
  cases q with
  | successors s =>
    by_cases h : s ∈ t.forward.keys
    · simp only [ask, answer, Table.contains_iff, h, if_true, Table.fetch_of_mem h, successors]
    · simp only [ask, answer, Table.contains_iff, h, if_false, successors, Table.getD_of_not_mem h]
  | predecessors s =>
    by_cases h : s ∈ t.backward.keys
    · simp only [ask, answer, Table.contains_iff, h, if_true, Table.fetch_of_mem h, predecessors]
    · simp only [ask, answer, Table.contains_iff, h, if_false, predecessors,
        Table.getD_of_not_mem h]
  | weight a b =>
    by_cases h : a ∈ t.forward.keys
    · simp only [ask, answer, Table.contains_iff, h, if_true, Table.fetch_of_mem h, weight?,
        successors]
    · simp only [ask, answer, Table.contains_iff, h, if_false, weight?, successors,
        Table.getD_of_not_mem h, Table.get?_empty]
  | contains s => rfl
  | stateCount => rfl
  | transitionCount => rfl

/-! ### Runs -/

/-- What can be done with a trellis. -/
inductive Operation (S : Type u) (W : Type v) where
  /-- Make a change. -/
  | edit (e : Edit S W)
  /-- Ask a question. -/
  | ask (q : Query S)

/-- The trellis after an operation. -/
def perform (t : Trellis S W) : Operation S W → Trellis S W
  | .edit e => t.edit e
  | .ask q => (t.ask q).2

/-- The trellis after several operations. -/
def run (t : Trellis S W) (ops : List (Operation S W)) : Trellis S W := ops.foldl perform t

namespace Operation

omit [DecidableEq S]

/-- The transition that an operation sets. -/
def transition? : Operation S W → Option (S × S × W)
  | edit (.transition a b w) => some (a, b, w)
  | _ => none

/-- The start that an operation chooses. -/
def start? : Operation S W → Option (Option S)
  | edit (.start s) => some s
  | _ => none

/-- The goal that an operation chooses. -/
def goal? : Operation S W → Option (Option S)
  | edit (.goal s) => some s
  | _ => none

/-- The transitions that were set, in order. -/
def transitions (ops : List (Operation S W)) : List (S × S × W) := ops.filterMap transition?

/-- The endpoint that was chosen last, or the one that there was at first. -/
def chosenLast (choice? : Operation S W → Option (Option S)) (first : Option S)
    (ops : List (Operation S W)) : Option S := (ops.filterMap choice?).getLast?.getD first

/-- The last operation sets its transition after the others, if it sets one. -/
lemma transitions_concat (ops : List (Operation S W)) (op : Operation S W) :
    transitions (ops ++ [op]) = transitions ops ++ op.transition?.toList := by
  cases h : op.transition? <;> simp [transitions, h]

/-- The last operation chooses the endpoint, if it chooses one; else it remains as it was. -/
lemma chosenLast_concat (choice? : Operation S W → Option (Option S)) (first : Option S)
    (ops : List (Operation S W)) (op : Operation S W) :
    chosenLast choice? first (ops ++ [op]) = (choice? op).getD (chosenLast choice? first ops) := by
  cases h : choice? op <;> simp [chosenLast, h]

end Operation

open Operation

/-- **A trellis is determined by its changes**: the transitions that were set, one after another,
and the endpoints that were chosen last. -/
theorem run_eq (start goal : Option S) (ops : List (Operation S W)) :
    (ofEndpoints start goal).run ops =
      (((ofEndpoints start goal).setAll (transitions ops)).withStart
        (chosenLast start? start ops)).withGoal
        (chosenLast goal? goal ops) := by
  induction ops using List.reverseRecOn with
  | nil => rfl
  | append_singleton ops op ih =>
    have hstep : (ofEndpoints start goal).run (ops ++ [op]) =
        ((ofEndpoints start goal).run ops).perform op := List.foldl_concat _ _ _ _
    rw [hstep, ih, transitions_concat, chosenLast_concat, chosenLast_concat, setAll, setAll,
      List.foldl_append]
    cases op with
    | edit e => cases e <;> rfl
    | ask q =>
      rw [perform, ask_eq]
      rfl

/-! ### The tables of a run -/

section Tables

variable (start goal : Option S) (edges : List (S × S × W))

/-- A transition that was set, as it is kept under the state it enters. -/
def reversed (e : S × S × W) : S × S × W := (e.2.1, e.1, e.2.2)

/-- Transitions are written under the states they leave, and reversed under the states they
enter. -/
lemma tables_setAll :
    ((ofEndpoints start goal).setAll edges).forward = Table.nested edges ∧
      ((ofEndpoints start goal).setAll edges).backward = Table.nested (edges.map reversed) := by
  induction edges using List.reverseRecOn with
  | nil => exact ⟨rfl, rfl⟩
  | append_singleton edges e ih =>
    have hstep : (ofEndpoints start goal).setAll (edges ++ [e]) =
        ((ofEndpoints start goal).setAll edges).set e.1 e.2.1 e.2.2 := List.foldl_concat _ _ _ _
    rw [hstep, set, List.map_append, List.map_cons, List.map_nil, Table.nested_concat,
      Table.nested_concat, ← ih.1, ← ih.2]
    exact ⟨rfl, rfl⟩

end Tables

/-! ### Representation -/

/-- The states to which transitions from a state were set. -/
def targets (edges : List (S × S × W)) (a : S) : List S :=
  (edges.filter fun e => e.1 = a).map fun e => e.2.1

/-- The states from which transitions to a state were set. -/
def sources (edges : List (S × S × W)) (b : S) : List S :=
  (edges.filter fun e => e.2.1 = b).map fun e => e.1

/-- The weight that was set last for a pair of states. -/
def lastWeight? (edges : List (S × S × W)) (a b : S) : Option W :=
  ((edges.filter fun e => e.1 = a ∧ e.2.1 = b).getLast?).map fun e => e.2.2

omit [DecidableEq S] in
/-- The pairs of states between which transitions were set. -/
def pairs (edges : List (S × S × W)) : List (S × S) := edges.map fun e => (e.1, e.2.1)

omit [DecidableEq S] in
/-- The states that transitions or endpoints mention. -/
def mentioned (start goal : Option S) (edges : List (S × S × W)) : List S :=
  (edges.map fun e => e.1) ++ (edges.map fun e => e.2.1) ++ start.toList ++ goal.toList

/-- A trellis represents a start, a goal, and transitions that were set one after another. -/
structure Represents (t : Trellis S W) (start goal : Option S) (edges : List (S × S × W)) :
    Prop where
  /-- The start is the one that was chosen. -/
  start_eq : t.start = start
  /-- The goal is the one that was chosen. -/
  goal_eq : t.goal = goal
  /-- The successors of a state stand in the order in which the transitions to them were first
  set. -/
  keys_successors (a : S) : (t.successors a).keys = distinct (targets edges a)
  /-- Each successor has the weight that was set last. -/
  get?_successors (a b : S) : (t.successors a).get? b = lastWeight? edges a b
  /-- The predecessors of a state stand in the order in which the transitions from them were first
  set. -/
  keys_predecessors (b : S) : (t.predecessors b).keys = distinct (sources edges b)
  /-- Each predecessor has the weight that was set last. -/
  get?_predecessors (a b : S) : (t.predecessors b).get? a = lastWeight? edges a b
  /-- One state precedes another just if the other follows it. -/
  mem_predecessors_iff (a b : S) : a ∈ (t.predecessors b).keys ↔ b ∈ (t.successors a).keys
  /-- A transition has the weight that was set last. -/
  weight?_eq (a b : S) : t.weight? a b = lastWeight? edges a b
  /-- A pair of states has no weight just if none was ever set. -/
  weight?_eq_none_iff (a b : S) : t.weight? a b = none ↔ (a, b) ∉ pairs edges
  /-- There are as many transitions as pairs of states between which one was set. -/
  transitionCount_eq : t.transitionCount = (pairs edges).toFinset.card
  /-- Counting the predecessors of all states gives the same number. -/
  sum_predecessors_eq : (t.backward.values.map Table.size).sum = (pairs edges).toFinset.card
  /-- There are as many states as transitions and endpoints mention. -/
  stateCount_eq : t.stateCount = (mentioned start goal edges).toFinset.card
  /-- A state is in the trellis just if a transition or an endpoint mentions it. -/
  contains_iff (s : S) : t.contains s = true ↔ s ∈ mentioned start goal edges

section Setting

variable (edges : List (S × S × W)) (a b : S)

/-- The targets of a state are the states to which a transition was set from it. -/
lemma map_under : (under a edges).map Prod.fst = targets edges a := by
  simp [under, targets]

/-- The sources of a state are the states from which a transition was set to it. -/
lemma map_under_reversed : (under b (edges.map reversed)).map Prod.fst = sources edges b := by
  rw [under, sources, List.filter_map, List.map_map, List.map_map]
  rfl

/-- What is read under a state and a neighbour is what was set last for the two. -/
lemma get?_ofList_under : (Table.ofList (under a edges)).get? b = lastWeight? edges a b := by
  rw [lastWeight?, Table.get?_ofList, under, List.filter_map, List.filter_filter, List.getLast?_map,
    Option.map_map]
  congr 3
  ext e
  simp [Bool.and_comm]

/-- Read backwards, the weight set last between two states is the same. -/
lemma lastWeight?_reversed : lastWeight? (edges.map reversed) b a = lastWeight? edges a b := by
  have hfilter : edges.filter ((fun e => decide (e.1 = b ∧ e.2.1 = a)) ∘ reversed) =
      edges.filter fun e => decide (e.1 = a ∧ e.2.1 = b) := by
    refine List.filter_congr fun e _ => ?_
    exact decide_eq_decide.2 and_comm
  rw [lastWeight?, List.filter_map, List.getLast?_map, Option.map_map, hfilter]
  rfl

/-- A transition was set between two states just if it was set to the second from the first. -/
lemma mem_targets_iff : b ∈ targets edges a ↔ (a, b) ∈ pairs edges := by
  simp [targets, pairs]

/-- There are as many pairs in either direction. -/
lemma card_pairs_reversed :
    (pairs (edges.map reversed)).toFinset.card = (pairs edges).toFinset.card := by
  have hswap : (pairs (edges.map reversed)).toFinset = (pairs edges).toFinset.image Prod.swap := by
    ext ⟨x, y⟩
    simp [pairs, reversed]
  rw [hswap, Finset.card_image_of_injective _ Prod.swap_injective]

variable {edges}

/-- A trellis represents the transitions that its two tables were written with. -/
lemma represents_of_tables {t : Trellis S W} (hforward : t.forward = Table.nested edges)
    (hbackward : t.backward = Table.nested (edges.map reversed)) :
    t.Represents t.start t.goal edges := by
  have hsuccessors : ∀ a, t.successors a = Table.ofList (under a edges) := by
    intro a
    rw [successors, hforward, Table.getD_nested]
  have hpredecessors : ∀ b, t.predecessors b = Table.ofList (under b (edges.map reversed)) := by
    intro b
    rw [predecessors, hbackward, Table.getD_nested]
  have hkeys : ∀ a, (t.successors a).keys = distinct (targets edges a) := by
    intro a
    rw [hsuccessors, Table.keys_ofList, map_under]
  have hweight : ∀ a b, (t.successors a).get? b = lastWeight? edges a b := by
    intro a b
    rw [hsuccessors, get?_ofList_under]
  have hweight' : ∀ a b, (t.predecessors b).get? a = lastWeight? edges a b := by
    intro a b
    rw [hpredecessors, get?_ofList_under, lastWeight?_reversed]
  have hmem : ∀ s, s ∈ t.states ↔ s ∈ mentioned t.start t.goal edges := by
    intro s
    simp [mem_states, hforward, hbackward, Table.keys_nested, mentioned, reversed]
  refine ⟨rfl, rfl, hkeys, hweight, ?_, hweight', ?_, hweight, ?_, ?_, ?_, ?_, ?_⟩
  · intro b
    rw [hpredecessors, Table.keys_ofList, map_under_reversed]
  · intro a b
    rw [Table.mem_keys_iff, Table.mem_keys_iff, hweight, hweight']
  · intro a b
    rw [weight?, Table.get?_eq_none_iff, hkeys, mem_distinct, mem_targets_iff]
  · rw [transitionCount, ← List.sum_eq_foldr, hforward, Table.sum_size_nested]
    rfl
  · rw [hbackward, Table.sum_size_nested, ← card_pairs_reversed]
    rfl
  · -- the states are listed without repetitions, so only membership matters
    have hset : t.states.toFinset = (mentioned t.start t.goal edges).toFinset := by
      ext s
      simp [hmem]
    have hnodup : t.states.Nodup := nodup_distinct _
    rw [← hset, List.toFinset_card_of_nodup hnodup, stateCount]
  · intro s
    rw [← hmem, mem_states]
    simp [contains, Table.contains_iff, or_assoc]

end Setting

/-- **Every trellis represents its changes.** Take a trellis without transitions, with any endpoints
or none, and let any operations follow: transitions are set, possibly again and from a state to
itself, endpoints are chosen, questions are asked. Then

* the trellis has the transitions that were set, in both directions, in the order in which they were
  first set and with the weights that were set last; and it counts them and its states accordingly;
* every further question, about whatever states, is answered in this way and changes nothing.

**Proof sketch.** Questions fetch rows that are there, so only the changes matter. The two tables
are written with the same transitions, once forward and once reversed. -/
theorem run_represents (start goal : Option S) (ops : List (Operation S W)) :
    ((ofEndpoints start goal).run ops).Represents (chosenLast start? start ops)
        (chosenLast goal? goal ops) (transitions ops) ∧
      ∀ q, ((ofEndpoints start goal).run ops).ask q =
        (((ofEndpoints start goal).run ops).answer q, (ofEndpoints start goal).run ops) := by
  constructor
  · obtain ⟨hforward, hbackward⟩ := tables_setAll start goal (transitions ops)
    rw [run_eq]
    exact represents_of_tables hforward hbackward
  · intro q
    exact ask_eq _ q

end Trellis

end TrellisTagger

import TrellisTagger.Proofs.Counting
import TrellisTagger.Proofs.SentenceTrellis.Predecessors
import TrellisTagger.Proofs.SentenceTrellis.Taggings

/-!
# Scores that look at the word only

Where the history does not matter to the scores, all pairs of tags of two words in a row make up a
layer, and the tags of a word may be exchanged in a walk without changing what the other tags weigh.

## Main definitions

* `TrellisTagger.wordWise` — scores that a word determines.
* `TrellisTagger.SentenceTrellis.tagsAt` — the tags at a position, a boundary symbol before the
  first.
* `TrellisTagger.SentenceTrellis.scoreAt` — the score of a tag at a position.

## Main results

* `TrellisTagger.SentenceTrellis.frontier_wordWise` — a layer lists the tags of the older word, with
  each of them those of the newer one, both in the order of their word.
* `TrellisTagger.SentenceTrellis.entries_predecessors_wordWise` — predecessors stand in the order of
  the tags of the older word.
* `TrellisTagger.SentenceTrellis.exists_exchanged` — a tag may be exchanged in a walk.
* `TrellisTagger.SentenceTrellis.heaviest_lt_iff` — between two states that differ in the older tag
  only, the scores of this tag decide which one is reached by a heavier walk.
-/

namespace TrellisTagger

universe u

/-- Scores that a word determines, whatever its history. -/
def wordWise {W : Type u} (rows : Word → Table Tag W) : Scores W := fun c => rows c.word

namespace SentenceTrellis

/-! ### Layers -/

section Layers

variable {W : Type u} {rows : Word → Table Tag W} {words : List Word}

/-- The tags at a position. Before the first word there is only the start symbol. -/
def tagsAt (rows : Word → Table Tag W) (words : List Word) (i : Int) : List Tag :=
  if i < 0 then [Boundary.start] else (rows (atPosition words i)).keys

/-- From the first word on, the tags at a position are those of its word. -/
lemma tagsAt_natCast (k : Nat) :
    tagsAt rows words k = (rows (atPosition words k)).keys := if_neg (by omega)

/-- No tag is listed twice at a position. -/
lemma nodup_tagsAt (i : Int) : (tagsAt rows words i).Nodup := by
  unfold tagsAt
  split
  · exact List.nodup_singleton _
  · exact Table.keys_nodup _

/-- There is a tag at every position if every word has one. -/
lemma tagsAt_ne_nil (h : ∀ word, (rows word).keys ≠ []) (i : Int) : tagsAt rows words i ≠ [] := by
  unfold tagsAt
  split
  · exact List.cons_ne_nil _ _
  · exact h _

/-- The pairs of tags at two positions in a row, as states. -/
def pairsBefore (rows : Word → Table Tag W) (words : List Word) (k : Nat) : List State :=
  (tagsAt rows words (k - 2)).flatMap fun a =>
    (tagsAt rows words (k - 1)).map fun b => ⟨a, b, k⟩

/-- No pair of tags is listed twice. -/
lemma nodup_pairsBefore (k : Nat) : (pairsBefore rows words k).Nodup := by
  rw [pairsBefore, List.nodup_flatMap]
  constructor
  · intro a _
    exact (nodup_tagsAt _).map fun b b' h => congrArg State.previous h
  · refine (nodup_tagsAt _).imp fun hne s hs hs' => hne ?_
    obtain ⟨b, -, rfl⟩ := List.mem_map.1 hs
    obtain ⟨b', -, h⟩ := List.mem_map.1 hs'
    exact (congrArg State.beforePrevious h).symm

/-- **A layer lists the tags of the older word, with each of them those of the newer one**, both in
the order of their word.

**Proof sketch.** Induction on the position. The states of one layer lead to the pairs of the next
once for each tag of the word that is forgotten, and only the first time counts. -/
theorem frontier_wordWise (h : ∀ word, (rows word).keys ≠ []) (k : Nat) :
    frontier (wordWise rows) words k = pairsBefore rows words k := by
  induction k with
  | zero => rfl
  | succ k ih =>
    have hnext : (pairsBefore rows words k).flatMap
        (fun s => (wordWise rows (s.context words)).keys.map s.next) =
        (tagsAt rows words (k - 2)).flatMap fun _ => pairsBefore rows words (k + 1) := by
      rw [pairsBefore, List.flatMap_assoc]
      refine List.flatMap_congr fun a _ => ?_
      rw [List.flatMap_map, pairsBefore]
      have holder : ((k + 1 : Nat) : Int) - 2 = k - 1 := by omega
      have hnewer : ((k + 1 : Nat) : Int) - 1 = k := by omega
      rw [holder, hnewer, tagsAt_natCast]
      rfl
    rw [frontier_succ, ih, nextFrontier_eq, hnext, distinct_flatMap_const (tagsAt_ne_nil h _),
      distinct_of_nodup (nodup_pairsBefore _)]

/-- Two positions after a word, its tags are the older tags of the states. -/
lemma pairsBefore_add_two (k : Nat) :
    pairsBefore rows words (k + 2) = (rows (atPosition words k)).keys.flatMap fun a =>
      (rows (atPosition words (k + 1 : Nat))).keys.map fun b => ⟨a, b, (k + 2 : Nat)⟩ := by
  have holder : ((k + 2 : Nat) : Int) - 2 = k := by omega
  have hnewer : ((k + 2 : Nat) : Int) - 1 = (k + 1 : Nat) := by omega
  rw [pairsBefore, holder, hnewer, tagsAt_natCast, tagsAt_natCast]

/-- Of a list without repetitions one element is singled out. -/
private lemma filterMap_eq_singleton {β : Type*} {l : List Tag} (hl : l.Nodup) {b : Tag}
    (hb : b ∈ l) (f : Tag → β) :
    (l.filterMap fun c => if c = b then some (f c) else none) = [f b] := by
  have hfilter : l.filter (fun c => c = b) = [b] := by
    rw [List.filter_eq, List.count_eq_one_of_mem hl hb, List.replicate_one]
  calc (l.filterMap fun c => if c = b then some (f c) else none)
      = (l.filter fun c => c = b).filterMap fun c => some (f c) := by simp [List.filterMap_filter]
    _ = [f b] := by rw [hfilter]; rfl

/-- **The predecessors of a state** differ in the older tag, and stand in the order of the tags of
the older word. -/
theorem entries_predecessors_wordWise (h : ∀ word, (rows word).keys ≠ []) {k : Nat}
    (hk : k < words.length) {b c : Tag} (hb : b ∈ (rows (atPosition words (k + 1 : Nat))).keys)
    {w : W} (hw : (rows (atPosition words (k + 2 : Nat))).get? c = some w) :
    ((sentenceTrellis (wordWise rows) words).predecessors ⟨b, c, (k + 3 : Nat)⟩).entries =
      (rows (atPosition words k)).entries.map fun e => (⟨e.1, b, (k + 2 : Nat)⟩, w) := by
  have hinto :
      ∀ a b', weightInto? (wordWise rows) words ⟨a, b', (k + 2 : Nat)⟩ ⟨b, c, (k + 3 : Nat)⟩ =
      if b' = b then some w else none := by
    intro a b'
    have hposition : ((k + 2 : Nat) : Int) + 1 = (k + 3 : Nat) := rfl
    simp only [weightInto?, State.next, State.mk.injEq, hposition, and_true]
    split
    · exact hw
    · rfl
  -- of the states with a given older tag just one leads there
  have hone : ∀ a, ((rows (atPosition words (k + 1 : Nat))).keys.map fun b' =>
      State.mk a b' (k + 2 : Nat)).filterMap
        (fun q => (weightInto? (wordWise rows) words q ⟨b, c, (k + 3 : Nat)⟩).map fun w => (q, w)) =
      [(⟨a, b, (k + 2 : Nat)⟩, w)] := by
    intro a
    rw [List.filterMap_map, ← filterMap_eq_singleton (Table.keys_nodup _) hb fun b' =>
      (State.mk a b' (k + 2 : Nat), w)]
    refine List.filterMap_congr fun b' _ => ?_
    rw [Function.comp_apply, hinto]
    split <;> rfl
  rw [entries_predecessors (by omega) rfl, frontier_wordWise h, pairsBefore_add_two,
    List.filterMap_flatMap]
  simp only [hone]
  rw [Table.keys, List.flatMap_map]
  exact List.flatMap_pure_eq_map _ _

/-! ### Walks -/

/-- After some tags the position is their number. -/
lemma position_foldl_next_start (front : List Tag) :
    (front.foldl State.next State.start).position = front.length := by
  rw [State.position_foldl_next]
  exact Int.zero_add _

/-- The last two of some tags are scored if they are tags of their words. -/
lemma forall_contextsAlong_concat {front : List Tag} {a b : Tag} :
    (∀ c ∈ contextsAlong words State.start (front ++ [a, b]),
        c.tag ∈ (wordWise rows c.toContext).keys) ↔
      (∀ c ∈ contextsAlong words State.start front, c.tag ∈ (wordWise rows c.toContext).keys) ∧
        a ∈ (rows (atPosition words front.length)).keys ∧
        b ∈ (rows (atPosition words (front.length + 1 : Nat))).keys := by
  have hposition := position_foldl_next_start front
  rw [contextsAlong_append, List.forall_mem_append, contextsAlong, contextsAlong, contextsAlong,
    List.forall_mem_cons, List.forall_mem_singleton, Nat.cast_succ, ← hposition]
  rfl

/-- **The walks to a state** choose any tags of the words before, and then the two tags of the
state. -/
lemma walk_wordWise_iff {k : Nat} (hk : k ≤ words.length) {a b : Tag} {path : List State} :
    (sentenceTrellis (wordWise rows) words).Walk State.start ⟨a, b, (k + 2 : Nat)⟩ path ↔
      ∃ front, front.length = k ∧
        (∀ c ∈ contextsAlong words State.start front, c.tag ∈ (wordWise rows c.toContext).keys) ∧
        a ∈ (rows (atPosition words k)).keys ∧ b ∈ (rows (atPosition words (k + 1 : Nat))).keys ∧
        path = State.start.along (front ++ [a, b]) := by
  constructor
  · intro h
    obtain ⟨tags, rfl, hend, htags⟩ := exists_along_of_walk h
    obtain ⟨front, rfl, hlen⟩ := State.exists_concat_of_foldl_next hend.symm (by simp [State.start])
    obtain rfl : front.length = k := by
      simp only [State.start] at hlen
      omega
    obtain ⟨hfront, ha, hb⟩ := forall_contextsAlong_concat.1 htags
    exact ⟨front, rfl, hfront, ha, hb, rfl⟩
  · rintro ⟨front, rfl, hfront, ha, hb, rfl⟩
    have hend : (front ++ [a, b]).foldl State.next State.start =
        ⟨a, b, (front.length + 2 : Nat)⟩ := by
      rw [State.foldl_next_concat]
      simp [State.start]
    rw [← hend]
    exact walk_along start_mem_frontier (by simp; omega)
      (forall_contextsAlong_concat.2 ⟨hfront, ha, hb⟩)

/-- All walks to a state of a position take as many hops. -/
lemma length_of_walk_start {k : Nat} {a b : Tag} {path : List State}
    (h : (sentenceTrellis (wordWise rows) words).Walk State.start ⟨a, b, (k + 2 : Nat)⟩ path) :
    path.length = k + 2 + 1 := by
  have hlen := length_of_walk h
  simp only [State.start] at hlen
  omega

end Layers

/-! ### Exchanging a tag -/

section Exchange

open OrderedWeight

variable {W : Type u} [LogWeight W]
variable {rows : Word → Table Tag W} {words : List Word} {k : Nat} {a a' b : Tag}

/-- The score of a tag at a position. -/
def scoreAt (rows : Word → Table Tag W) (words : List Word) (i : Int) (tag : Tag) : W :=
  (rows (atPosition words i)).getD tag impossible

/-- A tag of a word is possible at its position, if no tag is impossible for any word. -/
lemma scoreAt_ne_impossible (hpossible : ∀ word, impossible ∉ (rows word).values) {i : Int}
    {tag : Tag}
    (h : tag ∈ (rows (atPosition words i)).keys) : scoreAt rows words i tag ≠ impossible := by
  obtain ⟨w, hw⟩ := Table.mem_keys_iff.1 h
  rw [scoreAt, Table.getD_of_get? hw]
  exact fun himpossible => hpossible _ (Table.mem_values_iff.2 ⟨tag, himpossible ▸ hw⟩)

variable [CancellativeWeight W]

/-- Tags that are scored have a possible weight together. -/
lemma foldl_contextWeight_ne_impossible (hpossible : ∀ word, impossible ∉ (rows word).values)
    {contexts : List LabelledContext}
    (h : ∀ c ∈ contexts, c.tag ∈ (wordWise rows c.toContext).keys) {total : W}
    (htotal : total ≠ impossible) :
    contexts.foldl (fun total c => total + contextWeight (wordWise rows) c) total ≠ impossible := by
  induction contexts generalizing total with
  | nil => exact htotal
  | cons c contexts ih =>
    obtain ⟨hc, hcontexts⟩ := List.forall_mem_cons.1 h
    exact ih hcontexts (CancellativeWeight.add_ne_impossible htotal
      (scoreAt_ne_impossible hpossible hc))

/-- The last two tags add their scores. -/
lemma pathWeight_along_concat {front : List Tag} (hk : front.length ≤ words.length) (a b : Tag) :
    (sentenceTrellis (wordWise rows) words).pathWeight (State.start.along (front ++ [a, b])) =
      (contextsAlong words State.start front).foldl
        (fun total c => total + contextWeight (wordWise rows) c) 0 +
        scoreAt rows words front.length a + scoreAt rows words (front.length + 1 : Nat) b := by
  rw [Trellis.pathWeight, pathWeightFrom_along start_mem_frontier (by simp; omega),
    contextsAlong_append, List.foldl_append, scoreAt, scoreAt, Nat.cast_succ,
    ← position_foldl_next_start]
  rfl

/-- **A tag may be exchanged for another tag of its word**, and nothing else in a walk changes its
weight. -/
lemma exists_exchanged (hpossible : ∀ word, impossible ∉ (rows word).values) (hk : k ≤ words.length)
    {path : List State}
    (h : (sentenceTrellis (wordWise rows) words).Walk State.start ⟨a, b, (k + 2 : Nat)⟩ path)
    (ha' : a' ∈ (rows (atPosition words k)).keys) :
    ∃ path' others last, others ≠ impossible ∧ last ≠ impossible ∧
      (sentenceTrellis (wordWise rows) words).Walk State.start ⟨a', b, (k + 2 : Nat)⟩ path' ∧
      (sentenceTrellis (wordWise rows) words).pathWeight path =
        others + scoreAt rows words k a + last ∧
      (sentenceTrellis (wordWise rows) words).pathWeight path' =
        others + scoreAt rows words k a' + last := by
  obtain ⟨front, rfl, hfront, -, hb, rfl⟩ := (walk_wordWise_iff hk).1 h
  refine ⟨State.start.along (front ++ [a', b]), _, scoreAt rows words (front.length + 1 : Nat) b,
    foldl_contextWeight_ne_impossible hpossible hfront CancellativeWeight.zero_ne_impossible, ?_,
    (walk_wordWise_iff hk).2 ⟨front, rfl, hfront, ha', hb, rfl⟩,
    pathWeight_along_concat hk a b, pathWeight_along_concat hk a' b⟩
  exact scoreAt_ne_impossible hpossible hb

/-- Exchanging the older tag of a state that is reached leads to one that is reached. -/
lemma reaches_exchanged (hpossible : ∀ word, impossible ∉ (rows word).values)
    (hk : k ≤ words.length)
    (h : (sentenceTrellis (wordWise rows) words).Reaches State.start (k + 2) ⟨a, b, (k + 2 : Nat)⟩)
    (ha' : a' ∈ (rows (atPosition words k)).keys) :
    (sentenceTrellis (wordWise rows) words).Reaches State.start (k + 2) ⟨a', b, (k + 2 : Nat)⟩ := by
  obtain ⟨path, hpath, -⟩ := h
  obtain ⟨path', -, -, -, -, hpath', -, -⟩ := exists_exchanged hpossible hk hpath ha'
  exact ⟨path', hpath', length_of_walk_start hpath'⟩

/-- Exchanging a tag of a heaviest walk leads to a walk that is no heavier than the heaviest. -/
lemma exists_exchanged_le (hpossible : ∀ word, impossible ∉ (rows word).values)
    (hk : k ≤ words.length) {g g' : W}
    (h : (sentenceTrellis (wordWise rows) words).IsHeaviest State.start (k + 2)
      ⟨a, b, (k + 2 : Nat)⟩ g)
    (h' : (sentenceTrellis (wordWise rows) words).IsHeaviest State.start (k + 2)
      ⟨a', b, (k + 2 : Nat)⟩ g') :
    ∃ others last, others ≠ impossible ∧ last ≠ impossible ∧
      g = others + scoreAt rows words k a + last ∧
      ¬ g' < others + scoreAt rows words k a' + last := by
  obtain ⟨path, hpath, -, hweight⟩ := h.attained
  obtain ⟨other, hother, -, -⟩ := h'.attained
  obtain ⟨-, -, -, ha', -, -⟩ := (walk_wordWise_iff hk).1 hother
  obtain ⟨path', others, last, hothers, hlast, hpath', hold, hnew⟩ :=
    exists_exchanged hpossible hk hpath ha'
  refine ⟨others, last, hothers, hlast, hweight.symm.trans hold, ?_⟩
  rw [← hnew]
  exact h'.not_exceeded path' hpath' (length_of_walk_start hpath')

/-- **Between two states that differ in the older tag only, the scores of this tag decide** which
one is reached by a heavier walk.

**Proof sketch.** A heaviest walk to one state, with the tag exchanged, is a walk to the other. The
difference in weight is that of the two scores, since the other weights are possible and cancel. -/
theorem heaviest_lt_iff (hpossible : ∀ word, impossible ∉ (rows word).values)
    (hk : k ≤ words.length) {g g' : W}
    (h : (sentenceTrellis (wordWise rows) words).IsHeaviest State.start (k + 2)
      ⟨a, b, (k + 2 : Nat)⟩ g)
    (h' : (sentenceTrellis (wordWise rows) words).IsHeaviest State.start (k + 2)
      ⟨a', b, (k + 2 : Nat)⟩ g') :
    g < g' ↔ scoreAt rows words k a < scoreAt rows words k a' := by
  have hcancel : ∀ {others last : W}, others ≠ impossible → last ≠ impossible →
      (others + scoreAt rows words k a + last < others + scoreAt rows words k a' + last ↔
        scoreAt rows words k a < scoreAt rows words k a') := fun hothers hlast =>
    (CancellativeWeight.add_lt_add_iff_right hlast).trans
      (CancellativeWeight.add_lt_add_iff_left hothers)
  constructor
  · intro hlt
    obtain ⟨others, last, hothers, hlast, hg', hg⟩ := exists_exchanged_le hpossible hk h' h
    exact (hcancel hothers hlast).1 (hg' ▸ lt_of_not_lt_of_lt hg hlt)
  · intro hlt
    obtain ⟨others, last, hothers, hlast, hg, hg'⟩ := exists_exchanged_le hpossible hk h h'
    rw [hg]
    exact lt_of_lt_of_not_lt ((hcancel hothers hlast).2 hlt) hg'

end Exchange

end SentenceTrellis

end TrellisTagger

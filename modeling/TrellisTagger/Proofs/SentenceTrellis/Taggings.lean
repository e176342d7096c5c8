import Mathlib.Algebra.Order.Ring.Int
import Mathlib.Data.List.GetD
import Mathlib.Data.Set.Function
import TrellisTagger.Proofs.SentenceTrellis.Layers
import TrellisTagger.Proofs.Weight
import TrellisTagger.Tagging

/-!
# Taggings as walks

Choosing tags one after another leads through states, and these states stand for the contexts that
the tagged sentence is made of. So the walks through the trellis of a sentence are its taggings, and
a walk weighs what its tagging weighs.

## Main definitions

* `TrellisTagger.State.windows` — the states of a list of tags, any two in a row with a position.
* `TrellisTagger.taggingPath` — the states of the tags of a sentence between its boundary symbols.
* `TrellisTagger.State.along`, `TrellisTagger.contextsAlong` — the states and the contexts met when
  tags are chosen from a state on.
* `TrellisTagger.IsSupported` — all tags of a sentence are scored in their contexts.

## Main results

* `TrellisTagger.Sentence.contexts_eq` — the contexts of a sentence are those met on its path.
* `TrellisTagger.SentenceTrellis.walk_iff` — the walks from start to stop are the paths of supported
  taggings.
* `TrellisTagger.SentenceTrellis.pathWeight_taggingPath` — the path of a tagging weighs as much as
  the tagging.
* `TrellisTagger.SentenceTrellis.walks_are_taggings` — the trellis and the weight of taggings are
  one model.
-/

namespace TrellisTagger

universe u

/-! ### Paths of tags -/

namespace State

/-- The states of a list of tags: any two tags in a row, with the position after them. -/
def windows : Int → List Tag → List State
  | i, a :: b :: tags => ⟨a, b, i⟩ :: windows (i + 1) (b :: tags)
  | _, _ => []

/-- The states met when tags are chosen from a state on, the state itself included. -/
def along (s : State) : List Tag → List State
  | [] => [s]
  | tag :: tags => s :: along (s.next tag) tags

/-- The states of a list of tags are those met when its tags are chosen after the first two. -/
lemma windows_cons_cons (i : Int) (a b : Tag) (tags : List Tag) :
    windows i (a :: b :: tags) = along ⟨a, b, i⟩ tags := by
  induction tags generalizing i a b with
  | nil => rfl
  | cons c tags ih => rw [windows, ih, along, next]

/-- The first state met is the present one. -/
lemma along_eq_cons (s : State) (tags : List Tag) :
    along s tags = s :: (along s tags).tail := by
  cases tags <;> rfl

/-- Each state met remembers the tag that was chosen last. -/
lemma map_previous_along (s : State) (chosen : List Tag) :
    (along s chosen).map previous = s.previous :: chosen := by
  induction chosen generalizing s with
  | nil => rfl
  | cons tag chosen ih => rw [along, List.map_cons, ih, next]

/-- The tags along the states met are those chosen, after the history of the first state. -/
lemma tags_along (s : State) (chosen : List Tag) :
    State.tags (along s chosen) = s.beforePrevious :: s.previous :: chosen := by
  rw [along_eq_cons, State.tags, ← along_eq_cons, map_previous_along]

/-- Each tag chosen takes the state one position on. -/
lemma position_foldl_next (s : State) (tags : List Tag) :
    (tags.foldl next s).position = s.position + tags.length := by
  induction tags generalizing s with
  | nil => simp
  | cons tag tags ih =>
    rw [List.foldl_cons, ih, List.length_cons]
    simp only [next]
    omega

/-- The state met last has the two tags chosen last. -/
lemma foldl_next_concat (s : State) (tags : List Tag) (a b : Tag) :
    (tags ++ [a, b]).foldl next s = ⟨a, b, s.position + tags.length + 2⟩ := by
  rw [List.foldl_append, List.foldl_cons, List.foldl_cons, List.foldl_nil]
  simp only [next, position_foldl_next, mk.injEq, true_and]
  omega

/-- The tags chosen last can be read off the state met last. -/
lemma exists_concat_of_foldl_next {s : State} {tags : List Tag} {a b : Tag} {i : Int}
    (h : tags.foldl next s = ⟨a, b, i⟩) (hi : s.position + 2 ≤ i) :
    ∃ front, tags = front ++ [a, b] ∧ s.position + front.length + 2 = i := by
  have hlen : i = s.position + tags.length :=
    (congrArg position h).symm.trans (position_foldl_next s tags)
  rcases tags.eq_nil_or_concat' with rfl | ⟨rest, b', rfl⟩
  · rw [List.length_nil] at hlen
    omega
  rcases rest.eq_nil_or_concat' with rfl | ⟨front, a', rfl⟩
  · rw [List.nil_append, List.length_singleton] at hlen
    omega
  rw [List.append_assoc, List.singleton_append] at h ⊢
  rw [foldl_next_concat, mk.injEq] at h
  obtain ⟨rfl, rfl, hpos⟩ := h
  exact ⟨front, rfl, hpos⟩

end State

/-- The states of tags between two start symbols and two stop symbols. -/
def taggingPath (tags : List Tag) : List State :=
  State.windows 0 (Boundary.start :: Boundary.start :: (tags ++ [Boundary.stop, Boundary.stop]))

/-- The path of a tagging is met when its tags and two stop symbols are chosen from the start
state. -/
lemma taggingPath_eq (tags : List Tag) :
    taggingPath tags = State.start.along (tags ++ [Boundary.stop, Boundary.stop]) :=
  State.windows_cons_cons 0 _ _ _

/-- The tags can be read off their path. -/
@[simp] lemma innerTags_taggingPath (tags : List Tag) : innerTags (taggingPath tags) = tags := by
  have hsplit : tags ++ [Boundary.stop, Boundary.stop] =
      tags ++ [Boundary.stop] ++ [Boundary.stop] := by simp
  rw [innerTags, taggingPath_eq, State.tags_along, hsplit]
  simp only [List.drop_succ_cons, List.drop_zero, List.dropLast_concat]

/-- Different taggings have different paths. -/
lemma taggingPath_injective : Function.Injective taggingPath := fun a b h => by
  rw [← innerTags_taggingPath a, h, innerTags_taggingPath]

/-! ### Contexts along a path -/

/-- The labelled contexts met when tags are chosen from a state on. -/
def contextsAlong (words : List Word) (s : State) : List Tag → List LabelledContext
  | [] => []
  | tag :: tags => ⟨s.context words, tag⟩ :: contextsAlong words (s.next tag) tags

/-- Choosing tags in two parts meets the contexts of both. -/
lemma contextsAlong_append (words : List Word) (s : State) (front back : List Tag) :
    contextsAlong words s (front ++ back) =
      contextsAlong words s front ++ contextsAlong words (front.foldl State.next s) back := by
  induction front generalizing s with
  | nil => rfl
  | cons tag front ih => rw [List.cons_append, contextsAlong, ih, contextsAlong, List.foldl_cons,
      List.cons_append]

namespace Sentence

/-- The state that stands for the context of a position. -/
def stateAt (s : Sentence) (i : Int) : State :=
  ⟨atPosition s.tags (i - 2), atPosition s.tags (i - 1), i⟩

/-- Two positions after a tag, it is the older one of the state. -/
lemma stateAt_add_two (s : Sentence) (i : Nat) :
    s.stateAt (i + 2 : Nat) =
      ⟨atPosition s.tags i, atPosition s.tags (i + 1 : Nat), (i + 2 : Nat)⟩ := by
  have holder : ((i + 2 : Nat) : Int) - 2 = i := by omega
  have hnewer : ((i + 2 : Nat) : Int) - 1 = (i + 1 : Nat) := by omega
  rw [stateAt, holder, hnewer]

/-- The context at a position is that of the state there, with the tag there. -/
lemma contextAt_eq (s : Sentence) (i : Int) :
    s.contextAt i = ⟨(s.stateAt i).context s.words, atPosition s.tags i⟩ := rfl

/-- Choosing the tag of a position leads to the state of the next one. -/
lemma next_stateAt (s : Sentence) (i : Int) :
    (s.stateAt i).next (atPosition s.tags i) = s.stateAt (i + 1) := by
  rw [State.next, stateAt, stateAt, show i + 1 - 2 = i - 1 by omega, show i + 1 - 1 = i by omega]

/-- The contexts of consecutive positions are those met when their tags are chosen. -/
lemma map_contextAt_range' (s : Sentence) (k n : Nat) :
    (List.range' k n).map (fun i : Nat => s.contextAt i) =
      contextsAlong s.words (s.stateAt k)
        ((List.range' k n).map fun i : Nat => atPosition s.tags i) := by
  induction n generalizing k with
  | zero => rfl
  | succ n ih =>
    rw [List.range'_succ, List.map_cons, List.map_cons, contextsAlong, next_stateAt, ih (k + 1),
      contextAt_eq]
    rfl

/-- The states of consecutive positions are those met when their tags are chosen. -/
lemma along_map_range' (s : Sentence) (k n : Nat) :
    (s.stateAt k).along ((List.range' k n).map fun i : Nat => atPosition s.tags i) =
      (List.range' k (n + 1)).map fun i : Nat => s.stateAt i := by
  induction n generalizing k with
  | zero => rfl
  | succ n ih =>
    rw [List.range'_succ, List.map_cons, State.along, next_stateAt, List.range'_succ, List.map_cons,
      ← ih (k + 1)]
    rfl

end Sentence

/-- At a position of a list stands its element. -/
lemma atPosition_eq_getElem {l : List String} {i : Nat} (h : i < l.length) :
    atPosition l i = l[i] := by
  rw [atPosition, padded, if_neg (by omega), Int.toNat_natCast, List.getD_eq_getElem _ _ h]

/-- Behind a list stand stop symbols. -/
lemma atPosition_eq_stop {l : List String} {i : Nat} (h : l.length ≤ i) :
    atPosition l i = Boundary.stop := by
  rw [atPosition, padded, if_neg (by omega), Int.toNat_natCast, List.getD_eq_default _ _ h]

/-- The symbols at the positions of a sentence are its tags and two stop symbols. -/
lemma map_atPosition_range (tags : List Tag) :
    (List.range (tags.length + 2)).map (fun i : Nat => atPosition tags i) =
      tags ++ [Boundary.stop, Boundary.stop] := by
  refine List.ext_getElem (by simp) fun i hi _ => ?_
  rw [List.getElem_map, List.getElem_range]
  rcases Nat.lt_or_ge i tags.length with hlt | hge
  · rw [atPosition_eq_getElem hlt, List.getElem_append_left hlt]
  · rw [atPosition_eq_stop hge, List.getElem_append_right hge]
    have : i - tags.length = 0 ∨ i - tags.length = 1 := by
      simp only [List.length_map, List.length_range] at hi
      omega
    rcases this with h | h <;> simp [h]

/-- **The contexts of a sentence are those met on its path.** The look-ups with boundary symbols
around the tags and the states that carry the last two tags agree on every history.

**Proof sketch.** The state of a position has the two symbols before it, and choosing the symbol at
the position leads to the state of the next. The state of position zero is the start, and the
symbols of all positions are the tags and two stop symbols. -/
theorem Sentence.contexts_eq (s : Sentence) :
    s.contexts = contextsAlong s.words State.start (s.tags ++ [Boundary.stop, Boundary.stop]) := by
  rw [Sentence.contexts, Sentence.size, s.length_eq, List.range_eq_range',
    s.map_contextAt_range' 0, ← List.range_eq_range', map_atPosition_range]
  rfl

/-- The path of a sentence has the states of its positions, one after another. -/
lemma Sentence.getElem?_taggingPath (s : Sentence) {k : Nat} (hk : k ≤ s.tags.length + 2) :
    (taggingPath s.tags)[k]? = some (s.stateAt k) := by
  have hpath : taggingPath s.tags =
      (List.range (s.tags.length + 2 + 1)).map fun i : Nat => s.stateAt i := by
    rw [taggingPath_eq, ← map_atPosition_range, List.range_eq_range', List.range_eq_range']
    exact s.along_map_range' 0 (s.tags.length + 2)
  rw [hpath, List.getElem?_map, List.getElem?_range (by omega), Option.map_some]

/-- A sentence made of words with their tags has these words and tags. -/
lemma Sentence.ofPairs_zip {words : List Word} {tags : List Tag}
    (h : words.length = tags.length) : ofPairs (words.zip tags) = ⟨words, tags, h⟩ := by
  simp only [ofPairs, List.map_fst_zip (Nat.le_of_eq h), List.map_snd_zip (Nat.le_of_eq h.symm)]

/-! ### Walks -/

/-- All tags of a sentence, and the stop symbols after them, are scored in their contexts. -/
def IsSupported {W : Type u} (scores : Scores W) (s : Sentence) : Prop :=
  ∀ c ∈ s.contexts, c.tag ∈ (scores c.toContext).keys

namespace SentenceTrellis

section Walks

variable {W : Type u} {scores : Scores W} {words : List Word}

/-- Choosing scored tags from a state of a layer on is a walk. -/
lemma walk_along {k : Nat} {s : State} (hs : s ∈ frontier scores words k) {tags : List Tag}
    (hk : k + tags.length ≤ words.length + 2)
    (htags : ∀ c ∈ contextsAlong words s tags, c.tag ∈ (scores c.toContext).keys) :
    (sentenceTrellis scores words).Walk s (tags.foldl State.next s) (s.along tags) := by
  induction tags generalizing k s with
  | nil => exact .stay s
  | cons tag tags ih =>
    rw [List.length_cons] at hk
    rw [contextsAlong, List.forall_mem_cons] at htags
    obtain ⟨w, hw⟩ := Table.mem_keys_iff.1 htags.1
    have hexp : Expanded scores words s := ⟨k, by omega, hs⟩
    have hnext := next_mem_frontier hs htags.1
    exact .step (weight?_eq_some_iff.2 ⟨hexp, tag, hw, rfl⟩) (ih hnext (by omega) htags.2)

/-- Every walk chooses scored tags. -/
lemma exists_along_of_walk {a b : State} {path : List State}
    (h : (sentenceTrellis scores words).Walk a b path) :
    ∃ tags, path = a.along tags ∧ b = tags.foldl State.next a ∧
      ∀ c ∈ contextsAlong words a tags, c.tag ∈ (scores c.toContext).keys := by
  induction h with
  | stay a => exact ⟨[], rfl, rfl, by simp [contextsAlong]⟩
  | step hab _ ih =>
    obtain ⟨-, tag, hw, rfl⟩ := weight?_eq_some_iff.1 hab
    obtain ⟨tags, rfl, rfl, htags⟩ := ih
    refine ⟨tag :: tags, rfl, rfl, ?_⟩
    rw [contextsAlong, List.forall_mem_cons]
    exact ⟨Table.mem_keys_of_get? hw, htags⟩

/-- **The walks from start to stop are the paths of supported taggings.**

**Proof sketch.** A walk chooses scored tags, as many as there are positions, because each takes it
one position on. As it ends in the stop state, the last two are stop symbols, and the others are a
tagging of the words. Conversely the tags of a supported tagging can be chosen one after another. -/
theorem walk_iff {path : List State} :
    (sentenceTrellis scores words).Walk State.start (State.stop words.length) path ↔
      ∃ s : Sentence, s.words = words ∧ IsSupported scores s ∧ path = taggingPath s.tags := by
  constructor
  · intro h
    obtain ⟨tags, rfl, hstop, htags⟩ := exists_along_of_walk h
    obtain ⟨front, rfl, hlen⟩ :=
      State.exists_concat_of_foldl_next hstop.symm (by simp [State.start])
    have hwords : words.length = front.length := by
      simp only [State.start] at hlen
      omega
    refine ⟨⟨words, front, hwords⟩, rfl, ?_, (taggingPath_eq front).symm⟩
    rwa [IsSupported, Sentence.contexts_eq]
  · rintro ⟨s, rfl, hs, rfl⟩
    rw [IsSupported, Sentence.contexts_eq] at hs
    have hend : State.stop s.words.length =
        (s.tags ++ [Boundary.stop, Boundary.stop]).foldl State.next State.start := by
      rw [State.foldl_next_concat, s.length_eq]
      simp [State.stop, State.start]
    rw [taggingPath_eq, hend]
    exact walk_along start_mem_frontier (by simp [s.length_eq]) hs

/-- Paths are in one-to-one correspondence with supported taggings. -/
lemma bijOn_taggingPath (scores : Scores W) (words : List Word) :
    Set.BijOn taggingPath
      {tags | ∃ h : words.length = tags.length, IsSupported scores ⟨words, tags, h⟩}
      {path | (sentenceTrellis scores words).Walk State.start (State.stop words.length) path} := by
  refine ⟨?_, taggingPath_injective.injOn, ?_⟩
  · rintro tags ⟨h, hs⟩
    exact walk_iff.2 ⟨_, rfl, hs, rfl⟩
  · intro path hpath
    obtain ⟨s, rfl, hs, rfl⟩ := walk_iff.1 hpath
    exact ⟨s.tags, ⟨s.length_eq, hs⟩, rfl⟩

end Walks

/-! ### Weights -/

section Weights

variable {W : Type u} [LogWeight W] [AbsorbingWeight W] {scores : Scores W} {words : List Word}

/-- A sum that is impossible stays so. -/
lemma foldl_contextWeight_impossible (scores : Scores W) (contexts : List LabelledContext) :
    contexts.foldl (fun total c => total + contextWeight scores c) impossible = impossible := by
  induction contexts with
  | nil => rfl
  | cons c contexts ih => rw [List.foldl_cons, impossible_add, ih]

/-- A context of no weight makes the sum over a list of contexts impossible. -/
lemma foldl_contextWeight_eq_impossible {contexts : List LabelledContext}
    (h : ∃ c ∈ contexts, contextWeight scores c = impossible) (total : W) :
    contexts.foldl (fun total c => total + contextWeight scores c) total = impossible := by
  induction contexts generalizing total with
  | nil => simp at h
  | cons c contexts ih =>
    rw [List.foldl_cons]
    obtain ⟨c', hc', hweight⟩ := h
    rcases List.mem_cons.1 hc' with rfl | hmem
    · rw [hweight, add_impossible, foldl_contextWeight_impossible]
    · exact ih ⟨c', hmem, hweight⟩ _

omit [AbsorbingWeight W] in
/-- A tag that is not scored in its context is impossible there. -/
lemma contextWeight_of_not_mem {c : LabelledContext} (h : c.tag ∉ (scores c.toContext).keys) :
    contextWeight scores c = impossible :=
  Table.getD_of_not_mem h _

/-- A tagging with a tag that is not scored in its context is impossible. -/
lemma taggingWeight_eq_impossible {s : Sentence} (h : ¬ IsSupported scores s) :
    taggingWeight scores s = impossible := by
  simp only [IsSupported, not_forall] at h
  obtain ⟨c, hc, hnot⟩ := h
  exact foldl_contextWeight_eq_impossible ⟨c, hc, contextWeight_of_not_mem hnot⟩ 0

/-- From a state of a layer on, the states met weigh as much as the contexts met, whatever tags are
chosen.

**Proof sketch.** Induction on the tags. A scored tag adds its score on both sides. A tag that is
not scored has no transition, which makes the path impossible, and it makes the sum impossible too.
-/
lemma pathWeightFrom_along {k : Nat} {s : State} (hs : s ∈ frontier scores words k)
    {tags : List Tag} (hk : k + tags.length ≤ words.length + 2) (total : W) :
    (sentenceTrellis scores words).pathWeightFrom total (s.along tags) =
      (contextsAlong words s tags).foldl (fun total c => total + contextWeight scores c) total := by
  induction tags generalizing k s total with
  | nil => rfl
  | cons tag tags ih =>
    rw [List.length_cons] at hk
    have hexp : Expanded scores words s := ⟨k, by omega, hs⟩
    rw [State.along, State.along_eq_cons, Trellis.pathWeightFrom, weight?_next hexp,
      ← State.along_eq_cons]
    cases hw : (scores (s.context words)).get? tag with
    | some w =>
      have hnext := next_mem_frontier hs (Table.mem_keys_of_get? hw)
      have hweight : contextWeight scores ⟨s.context words, tag⟩ = w := by
        simp [contextWeight, Table.getD, hw]
      rw [contextsAlong, List.foldl_cons, hweight]
      exact ih hnext (by omega) _
    | none =>
      have hweight : contextWeight scores ⟨s.context words, tag⟩ = impossible :=
        contextWeight_of_not_mem (Table.get?_eq_none_iff.1 hw)
      exact (foldl_contextWeight_eq_impossible ⟨_, List.mem_cons_self, hweight⟩ total).symm

/-- **The path of a tagging weighs as much as the tagging**, of any tags at all. -/
theorem pathWeight_taggingPath (scores : Scores W) (s : Sentence) :
    (sentenceTrellis scores s.words).pathWeight (taggingPath s.tags) = taggingWeight scores s := by
  rw [Trellis.pathWeight, taggingPath_eq, taggingWeight, Sentence.contexts_eq]
  exact pathWeightFrom_along start_mem_frontier (by simp [s.length_eq]) 0

/-- **The trellis of a sentence and the weight of its taggings are one model.** Whatever the scores
are:

* every transition leads from one position to the next, the first position being that of the first
  word and the last that of the second stop symbol; every state but the stop state can be reached;
  and the transitions out of a state that is reached before the last position are one for each tag
  scored in its context, in the order of the tags;
* the walks from start to stop are the paths of supported taggings, one for each;
* the path of any tagging, supported or not, weighs as much as the tagging; and a tagging that is
  not supported is impossible.

**Proof sketch.** The transitions are those out of expanded states (`weight?_eq_some_iff`,
`entries_successors`), the walks are `bijOn_taggingPath`, and the weights are
`pathWeight_taggingPath`. -/
theorem walks_are_taggings (scores : Scores W) (words : List Word) :
    (∀ a b w, (sentenceTrellis scores words).weight? a b = some w →
        0 ≤ a.position ∧ a.position ≤ words.length + 1 ∧ b.position = a.position + 1) ∧
      (∀ s ∈ (sentenceTrellis scores words).states, s = State.stop words.length ∨
        ∃ path, (sentenceTrellis scores words).Walk State.start s path) ∧
      (∀ s path, (sentenceTrellis scores words).Walk State.start s path →
        s.position ≤ words.length + 1 →
        ((sentenceTrellis scores words).successors s).entries =
          (scores (s.context words)).entries.map fun e => (s.next e.1, e.2)) ∧
      Set.BijOn taggingPath
        {tags | ∃ h : words.length = tags.length, IsSupported scores ⟨words, tags, h⟩}
        {path | (sentenceTrellis scores words).Walk State.start (State.stop words.length) path} ∧
      ∀ s : Sentence, s.words = words →
        (sentenceTrellis scores words).pathWeight (taggingPath s.tags) = taggingWeight scores s ∧
          (¬ IsSupported scores s → taggingWeight scores s = impossible) := by
  refine ⟨?_, fun s hs => eq_stop_or_exists_walk hs, ?_, bijOn_taggingPath scores words, ?_⟩
  · intro a b w h
    have hbounds := (expanded_of_weight? h).position_bounds
    exact ⟨hbounds.1, hbounds.2, position_of_weight? h⟩
  · intro s path h hpos
    exact entries_successors (expanded_of_walk h hpos)
  · rintro s rfl
    exact ⟨pathWeight_taggingPath scores s, taggingWeight_eq_impossible⟩

end Weights

/-- Scores of two tags for the first two words, whatever the words are. -/
def nounsAndVerbs : Scores (WithBot ℤ) := fun c =>
  Table.ofList <|
    if c.position < 2 then [("N", ((-1 : ℤ) : WithBot ℤ)), ("V", ((-2 : ℤ) : WithBot ℤ))]
    else [(Boundary.stop, ((-1 : ℤ) : WithBot ℤ))]

/-- A supported tagging of two words weighs the sum of its scores as a path, and one with a tag that
is not scored is an impossible path. -/
theorem walks_are_taggings_nounsAndVerbs :
    (sentenceTrellis nounsAndVerbs ["dogs", "bark"]).pathWeight (taggingPath ["N", "V"]) =
        ((-5 : ℤ) : WithBot ℤ) ∧
      (sentenceTrellis nounsAndVerbs ["dogs", "bark"]).pathWeight (taggingPath ["N", "X"]) = ⊥ := by
  obtain ⟨-, -, -, -, hweights⟩ := walks_are_taggings nounsAndVerbs ["dogs", "bark"]
  obtain ⟨hgood, -⟩ := hweights ⟨["dogs", "bark"], ["N", "V"], rfl⟩ rfl
  obtain ⟨hbad, himpossible⟩ := hweights ⟨["dogs", "bark"], ["N", "X"], rfl⟩ rfl
  have hunsupported : ¬ IsSupported nounsAndVerbs ⟨["dogs", "bark"], ["N", "X"], rfl⟩ :=
    fun hs => absurd (hs ⟨⟨["dogs", "bark"], 1, "N", Boundary.start⟩, "X"⟩ (by decide)) (by decide)
  exact ⟨hgood.trans rfl, hbad.trans (himpossible hunsupported)⟩

end SentenceTrellis

end TrellisTagger

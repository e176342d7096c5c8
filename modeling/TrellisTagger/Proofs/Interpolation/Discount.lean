import Mathlib.Data.List.Count
import TrellisTagger.Proofs.Number.Counts
import TrellisTagger.Proofs.Training
import TrellisTagger.Proofs.TrigramModel

/-!
# Counts with one occurrence removed

Deleted interpolation predicts each trigram from counts that do not include the occurrence that is
predicted. Numerators and denominators come from different tables: a history of two tags is counted
as a bigram, and a history of one tag as a tag. This file says how far the counts agree. Around a
sentence stand two start symbols, which are never tags, and two stop symbols, which are; so the
histories of a sentence are its bigrams, except that two start symbols are a history and no bigram,
and the two stop symbols are a bigram and no history.

## Main definitions

* `TrellisTagger.histories`, `TrellisTagger.neighbours` — the pairs of tags before each context, and
  the pairs that the contexts end with.
* `TrellisTagger.TagCounts.row`, `TrellisTagger.TagCounts.trigram` — the tags counted after two
  others, and how often one of them occurs.
* `TrellisTagger.UnitShares` — the laws of shares of counts that floats and exact numbers share.

## Main results

* `TrellisTagger.Sentence.histories_contexts`, `TrellisTagger.count_histories` — histories are
  bigrams moved on by one position.
* `TrellisTagger.TagCounts.estimates_mem_unitInterval` — every estimate is a proper ratio.
* `TrellisTagger.TagCounts.trigram_estimate_eq` — the estimate of a trigram is its frequency after
  its history with one occurrence removed, except at the beginning of a sentence, where it is zero.
* `TrellisTagger.TagCounts.not_forall_trigram_estimate` — at the beginning of a sentence it is not.
-/

namespace TrellisTagger

universe u

open Boundary

/-! ### Histories and bigrams -/

/-- The two tags before each context. -/
def histories (contexts : List LabelledContext) : List (Tag × Tag) :=
  contexts.map fun c => (c.beforePrevious, c.previous)

/-- The tag before each context and the tag in it. -/
def neighbours (contexts : List LabelledContext) : List (Tag × Tag) :=
  contexts.map fun c => (c.previous, c.tag)

/-- What stands before the positions of a list is what stands at them, moved on by one. -/
lemma map_range_sub_one {γ : Type*} (f : Int → γ) (n : Nat) :
    (List.range n).map (fun i : Nat => f (i - 1)) ++ [f (n - 1)] =
      f (-1) :: (List.range n).map fun i : Nat => f i := by
  have hlast : (List.range (n + 1)).map (fun i : Nat => f (i - 1)) =
      (List.range n).map (fun i : Nat => f (i - 1)) ++ [f (n - 1)] := by
    rw [List.range_succ, List.map_append, List.map_singleton]
  have hfirst : (List.range (n + 1)).map (fun i : Nat => f (i - 1)) =
      f (-1) :: (List.range n).map fun i : Nat => f i := by
    rw [List.range_succ_eq_map, List.map_cons, List.map_map]
    simp [Function.comp_def]
  rw [← hlast, hfirst]

namespace Sentence

variable (s : Sentence)

/-- The tags of the contexts of a sentence are its tags and two stop symbols. -/
lemma tagsOf_contexts : tagsOf s.contexts = s.tags ++ [stop, stop] := by
  rw [← map_atPosition_range, ← s.length_eq, tagsOf, contexts, List.map_map]
  rfl

/-- After the last word there are only stop symbols. -/
lemma atPosition_tags_of_size_le {i : Int} (h : s.size ≤ i) : atPosition s.tags i = stop := by
  obtain ⟨k, rfl⟩ := Int.eq_ofNat_of_zero_le (a := i) (by omega)
  refine atPosition_eq_stop ?_
  rw [← s.length_eq]
  exact Int.ofNat_le.1 h

/-- **The histories of a sentence are its bigrams, moved on by one position.** -/
lemma histories_contexts :
    histories s.contexts ++ [(stop, stop)] = (start, start) :: neighbours s.contexts := by
  have hshift :=
    map_range_sub_one (fun i => (atPosition s.tags (i - 1), atPosition s.tags i)) (s.size + 2)
  rw [s.atPosition_tags_of_size_le (by omega), s.atPosition_tags_of_size_le (by omega)] at hshift
  simp only [Int.sub_sub] at hshift
  rw [histories, neighbours, contexts, List.map_map, List.map_map]
  exact hshift

/-- The tags before the contexts of a sentence are the tags in them, moved on by one position. -/
lemma previous_contexts :
    (s.contexts.map fun c => c.previous) ++ [stop] = start :: tagsOf s.contexts := by
  have hshift := map_range_sub_one (atPosition s.tags) (s.size + 2)
  rw [s.atPosition_tags_of_size_le (by omega)] at hshift
  rw [tagsOf, contexts, List.map_map, List.map_map]
  exact hshift

/-- Nothing but the tags of a sentence, and the start symbol, comes two positions before a
context. -/
lemma beforePrevious_ne_stop (h : stop ∉ s.tags) : ∀ c ∈ s.contexts, c.beforePrevious ≠ stop := by
  intro c hc
  obtain ⟨i, hi, rfl⟩ := List.mem_map.1 hc
  rw [List.mem_range, size, s.length_eq] at hi
  show atPosition s.tags (i - 2) ≠ stop
  rcases Nat.lt_or_ge i 2 with hlt | hge
  · rw [atPosition, padded, if_pos (by omega)]
    decide
  · obtain ⟨k, rfl⟩ := Nat.exists_eq_add_of_le' hge
    have hk : ((k + 2 : Nat) : Int) - 2 = k := by omega
    rw [hk, atPosition_eq_getElem (by omega)]
    exact fun heq => h (heq ▸ List.getElem_mem _)

end Sentence

/-- Lists that are the same up to what they begin and end with have the same elements up to
these. -/
lemma count_flatMap_of_shifted {σ γ : Type*} [BEq γ] [LawfulBEq γ] [DecidableEq γ]
    {f g : σ → List γ} {first last : γ} (h : ∀ s, f s ++ [last] = first :: g s) (l : List σ)
    (x : γ) :
    (l.flatMap f).count x + (if last = x then l.length else 0) =
      (if first = x then l.length else 0) + (l.flatMap g).count x := by
  induction l with
  | nil => simp
  | cons s l ih =>
    have hs := congrArg (List.count x) (h s)
    rw [List.count_append, List.count_singleton, List.count_cons] at hs
    simp only [beq_iff_eq] at hs
    rw [List.flatMap_cons, List.flatMap_cons, List.count_append, List.count_append,
      List.length_cons]
    split_ifs at * <;> omega

section Counts

variable (sentences : List Sentence)

/-- **A pair of tags is a history as often as it is a bigram**, except that each sentence has two
start symbols before it and two stop symbols after it. -/
theorem count_histories (x : Tag × Tag) :
    (histories (Tagger.contextsOf sentences)).count x +
      (if (stop, stop) = x then sentences.length else 0) =
      (if (start, start) = x then sentences.length else 0) +
        (neighbours (Tagger.contextsOf sentences)).count x := by
  simp only [histories, neighbours, Tagger.contextsOf, List.map_flatMap]
  exact count_flatMap_of_shifted Sentence.histories_contexts sentences x

/-- A tag comes before a context as often as it is in one, except that each sentence has a start
symbol before it and a stop symbol after it. -/
theorem count_previous (a : Tag) :
    ((Tagger.contextsOf sentences).map fun c => c.previous).count a +
        (if stop = a then sentences.length else 0) =
      (if start = a then sentences.length else 0) +
        (tagsOf (Tagger.contextsOf sentences)).count a := by
  simp only [tagsOf, Tagger.contextsOf, List.map_flatMap]
  exact count_flatMap_of_shifted Sentence.previous_contexts sentences a

variable {sentences}

/-- The start symbol is no tag of a context if it is no tag of a sentence. -/
lemma start_not_mem_tagsOf (h : ∀ s ∈ sentences, start ∉ s.tags) :
    start ∉ tagsOf (Tagger.contextsOf sentences) := by
  intro hmem
  rw [tagsOf, Tagger.contextsOf, List.map_flatMap] at hmem
  obtain ⟨s, hs, hstart⟩ := List.mem_flatMap.1 hmem
  rw [← tagsOf, s.tagsOf_contexts] at hstart
  rcases List.mem_append.1 hstart with htags | hstop
  · exact h s hs htags
  · simp [start, stop] at hstop

end Counts

/-! ### The counts of training -/

namespace TagCounts

/-- How often each tag occurs after two others. -/
def row (counts : TagCounts) (a b : Tag) : Table Tag Int := counts.trigrams.getD (a, b) ∅

/-- How often a tag occurs after two others. -/
def trigram (counts : TagCounts) (a b c : Tag) : Int := (counts.row a b).getD c 0

section OfContexts

variable (contexts : List LabelledContext)

/-- A tag is counted once for each context that has it. -/
lemma unigram_ofContexts (a : Tag) : (ofContexts contexts).unigram a = (tagsOf contexts).count a :=
  getD_tally _ a

/-- As many tags are counted as there are contexts. -/
lemma total_ofContexts : (ofContexts contexts).total = contexts.length := by
  rw [total, ofContexts, total_tally, List.length_map]

/-- A tag after another is counted once for each context that ends with both. -/
lemma bigram_ofContexts (a b : Tag) :
    (ofContexts contexts).bigram a b = (neighbours contexts).count (a, b) := by
  rw [bigram, ofContexts, getD_crossTally, getD_tally, count_under]
  rfl

/-- The tags counted after two others are those of the contexts with these two before. -/
lemma row_ofContexts (a b : Tag) :
    (ofContexts contexts).row a b = tally (tagsAfterBoth contexts a b) := getD_crossTally _ _

/-- **A row has as many occurrences as its history.** -/
lemma total_row_ofContexts (a b : Tag) :
    ((ofContexts contexts).row a b).total = (histories contexts).count (a, b) := by
  rw [row_ofContexts, total_tally, tagsAfterBoth, length_under, List.map_map]
  rfl

/-- A tag after two others is counted once for each context that ends with all three. -/
lemma trigram_ofContexts (a b c : Tag) :
    (ofContexts contexts).trigram a b c = (tagsAfterBoth contexts a b).count c := by
  rw [trigram, row_ofContexts, getD_tally]

end OfContexts

end TagCounts

/-! ### Proper ratios -/

/-- The laws of shares of counts. They hold of floats, where quotients are rounded, as well as of
exact numbers. -/
class UnitShares (P : Type u) [Probability P] : Prop where
  /-- Zero lies between zero and one. -/
  zero_mem : (0 : P) ≤ 0 ∧ (0 : P) ≤ 1
  /-- A part of a whole lies between zero and one. -/
  ratio_mem {n d : Nat} : 0 < d → n ≤ d → (0 : P) ≤ ratio n d ∧ (ratio n d : P) ≤ 1

/-- Exact shares of counts lie between zero and one. -/
instance : UnitShares Exact where
  zero_mem := ⟨le_refl (0 : ℚ), zero_le_one (α := ℚ)⟩
  ratio_mem {n d} hd h := by
    simp only [Exact.le_iff, Exact.value_ratio, Exact.value_zero, Exact.value_one, Int.cast_natCast]
    exact ⟨div_nonneg (Nat.cast_nonneg n) (Nat.cast_nonneg d),
      div_le_one_of_le₀ (Nat.cast_le.2 h) (Nat.cast_nonneg d)⟩

/-- Shares of counts on floats lie between zero and one, however they are rounded. -/
instance : UnitShares Float where
  zero_mem := by decide
  ratio_mem := Binary64.ratio_mem_unitInterval

section LeaveOneOut

variable {P : Type u} [Probability P]

/-- Where the whole is at most one, nothing is left of it and the ratio is zero. -/
lemma leaveOneOut_of_le_one {n d : Int} (h : d ≤ 1) : (leaveOneOut n d : P) = 0 := if_pos (by omega)

/-- Where the whole is more than one, one is removed from both counts. -/
lemma leaveOneOut_of_one_lt {n d : Int} (h : 1 < d) :
    (leaveOneOut n d : P) = ratio (n - 1) (d - 1) :=
  if_neg (by omega)

/-- The ratio after one is removed from both counts, zero if nothing is left of the whole. -/
lemma leaveOneOut_of_pos {n d : Int} (h : 0 < d) :
    (leaveOneOut n d : P) = if d = 1 then 0 else ratio (n - 1) (d - 1) := by
  split_ifs with hone
  · exact leaveOneOut_of_le_one hone.le
  · exact leaveOneOut_of_one_lt (by omega)

/-- **What is left of a part of a whole is a part of what is left of the whole.** Where no whole was
counted the ratio is zero. -/
lemma leaveOneOut_mem_unitInterval [UnitShares P] {n d : Int} (hn : 1 ≤ n) (h : n ≤ d ∨ d = 0) :
    (0 : P) ≤ leaveOneOut n d ∧ (leaveOneOut n d : P) ≤ 1 := by
  rcases le_or_gt d 1 with hd | hd
  · rw [leaveOneOut_of_le_one hd]
    exact UnitShares.zero_mem
  · obtain ⟨n', hn'⟩ := Int.eq_ofNat_of_zero_le (a := n - 1) (by omega)
    obtain ⟨d', hd'⟩ := Int.eq_ofNat_of_zero_le (a := d - 1) (by omega)
    rw [leaveOneOut_of_one_lt hd, hn', hd']
    exact UnitShares.ratio_mem (by omega) (by omega)

end LeaveOneOut

/-! ### Bounds of counts -/

namespace TagCounts

section Bounds

variable {contexts : List LabelledContext} {a b c : Tag}

/-- A trigram occurs no more often than its history. -/
lemma trigram_le_count_histories :
    (ofContexts contexts).trigram a b c ≤ (histories contexts).count (a, b) := by
  rw [trigram_ofContexts, ← total_row_ofContexts, row_ofContexts, total_tally]
  exact Int.ofNat_le.2 List.count_le_length

/-- A bigram is counted no more often than its first tag comes before a context. -/
lemma bigram_le_count_previous :
    (ofContexts contexts).bigram b c ≤ (contexts.map fun c => c.previous).count b := by
  have hfst : (neighbours contexts).map Prod.fst = contexts.map fun c => c.previous := List.map_map
  have hle := List.count_le_count_map (l := neighbours contexts) (f := Prod.fst) (x := (b, c))
  rw [bigram_ofContexts, ← hfst]
  exact Int.ofNat_le.2 hle

/-- No tag is counted more often than all tags together. -/
lemma unigram_le_total : (ofContexts contexts).unigram c ≤ (ofContexts contexts).total := by
  have hlength : (tagsOf contexts).length = contexts.length := List.length_map _
  rw [unigram_ofContexts, total_ofContexts, ← hlength]
  exact Int.ofNat_le.2 List.count_le_length

/-- What is attested was counted in every table. -/
lemma one_le_of_attested (h : (a, b, c) ∈ contexts.map LabelledContext.trigram) :
    1 ≤ (ofContexts contexts).trigram a b c ∧ 1 ≤ (ofContexts contexts).bigram b c ∧
      1 ≤ (ofContexts contexts).unigram c := by
  obtain ⟨context, hcontext, heq⟩ := List.mem_map.1 h
  cases heq
  rw [trigram_ofContexts, bigram_ofContexts, unigram_ofContexts]
  refine ⟨Int.ofNat_le.2 (List.count_pos_iff.2 ?_), Int.ofNat_le.2 (List.count_pos_iff.2 ?_),
    Int.ofNat_le.2 (List.count_pos_iff.2 ?_)⟩
  · exact mem_under.2 (List.mem_map.2 ⟨context, hcontext, rfl⟩)
  · exact List.mem_map.2 ⟨context, hcontext, rfl⟩
  · exact List.mem_map.2 ⟨context, hcontext, rfl⟩

/-- The history of a trigram that occurs is a history. -/
lemma mem_histories_of_attested (h : (a, b, c) ∈ contexts.map LabelledContext.trigram) :
    (a, b) ∈ histories contexts := by
  obtain ⟨context, hcontext, heq⟩ := List.mem_map.1 h
  cases heq
  exact List.mem_map_of_mem hcontext

/-- The model has the share of a trigram among the contexts with its history. -/
lemma get?_trigrams_of_attested {P : Type u} [Probability P]
    (h : (a, b, c) ∈ contexts.map LabelledContext.trigram) :
    ((TrigramModel.ofContexts contexts : TrigramModel P).trigrams.getD (a, b) ∅).get? c =
      some (ratio ((ofContexts contexts).trigram a b c) ((histories contexts).count (a, b))) := by
  have hafter : c ∈ tagsAfterBoth contexts a b := by
    obtain ⟨context, hcontext, heq⟩ := List.mem_map.1 h
    cases heq
    exact mem_under.2 (List.mem_map.2 ⟨context, hcontext, rfl⟩)
  have hrow : (TrigramModel.ofContexts contexts : TrigramModel P).trigrams.getD (a, b) ∅ =
      relativeFrequencies (tally (tagsAfterBoth contexts a b)) := getD_conditionalFrequencies _ _
  rw [hrow, get?_relativeFrequencies, if_pos hafter, trigram_ofContexts, ← total_row_ofContexts,
    row_ofContexts, total_tally]

end Bounds

section Sentences

variable {sentences : List Sentence} {a b c : Tag}

/-- A pair of tags that is not two start symbols is a history no more often than it is a bigram. -/
lemma count_histories_le_bigram (h : (a, b) ≠ (start, start)) :
    ((histories (Tagger.contextsOf sentences)).count (a, b) : Int) ≤
      (ofContexts (Tagger.contextsOf sentences)).bigram a b := by
  have hcount := count_histories sentences (a, b)
  rw [if_neg (c := (start, start) = (a, b)) h.symm, Nat.zero_add] at hcount
  rw [bigram_ofContexts]
  omega

/-- A tag that is not the start symbol comes before contexts no more often than it is in them. -/
lemma count_previous_le_unigram (h : b ≠ start) :
    (((Tagger.contextsOf sentences).map fun c => c.previous).count b : Int) ≤
      (ofContexts (Tagger.contextsOf sentences)).unigram b := by
  have hcount := count_previous sentences b
  rw [if_neg (c := start = b) h.symm, Nat.zero_add] at hcount
  rw [unigram_ofContexts]
  omega

/-- The start symbol is not counted as a tag, and two of them are not counted as a bigram. -/
lemma counts_start (h : ∀ s ∈ sentences, start ∉ s.tags) :
    (ofContexts (Tagger.contextsOf sentences)).bigram a start = 0 ∧
      (ofContexts (Tagger.contextsOf sentences)).unigram start = 0 := by
  have hstart := start_not_mem_tagsOf h
  rw [bigram_ofContexts, unigram_ofContexts, List.count_eq_zero_of_not_mem hstart,
    List.count_eq_zero_of_not_mem]
  · exact ⟨rfl, rfl⟩
  · intro hmem
    obtain ⟨context, hcontext, heq⟩ := List.mem_map.1 hmem
    exact hstart (List.mem_map.2 ⟨context, hcontext, (Prod.mk.inj heq).2⟩)

/-- **Every estimate that training compares is a proper ratio.** Take any sentences without the
start symbol among their tags, and a trigram that occurs in their contexts. It occurs no more often
than its history does as a bigram, its last two tags no more often than the first of them, and its
last tag no more often than all tags, where a history with the start symbol at its end is not
counted at all. So all three estimates lie between zero and one. Nothing is assumed of quotients by
zero, and none is taken. -/
theorem estimates_mem_unitInterval {P : Type u} [Probability P] [UnitShares P]
    (h : ∀ s ∈ sentences, start ∉ s.tags)
    (hattested : (a, b, c) ∈ (Tagger.contextsOf sentences).map LabelledContext.trigram) :
    let counts := ofContexts (Tagger.contextsOf sentences)
    let e : ByHistory P := counts.estimates a b c (counts.trigram a b c)
    (1 ≤ counts.trigram a b c ∧
        ((a, b) ≠ (start, start) → counts.trigram a b c ≤ counts.bigram a b) ∧
        ((a, b) = (start, start) → counts.bigram a b = 0)) ∧
      (1 ≤ counts.bigram b c ∧ (b ≠ start → counts.bigram b c ≤ counts.unigram b) ∧
        (b = start → counts.unigram b = 0)) ∧
      (1 ≤ counts.unigram c ∧ counts.unigram c ≤ counts.total) ∧
      (0 ≤ e.trigram ∧ e.trigram ≤ 1) ∧ (0 ≤ e.bigram ∧ e.bigram ≤ 1) ∧
        0 ≤ e.unigram ∧ e.unigram ≤ 1 := by
  intro counts e
  obtain ⟨htri, hbi, huni⟩ := one_le_of_attested hattested
  have htri_le : (a, b) ≠ (start, start) → counts.trigram a b c ≤ counts.bigram a b := fun hne =>
    trigram_le_count_histories.trans (count_histories_le_bigram hne)
  have hbi_le : b ≠ start → counts.bigram b c ≤ counts.unigram b := fun hne =>
    bigram_le_count_previous.trans (count_previous_le_unigram hne)
  have htri_start : (a, b) = (start, start) → counts.bigram a b = 0 := by
    rintro ⟨rfl, rfl⟩
    exact (counts_start h).1
  have hbi_start : b = start → counts.unigram b = 0 := by
    rintro rfl
    exact (counts_start (a := start) h).2
  have huni_le : counts.unigram c ≤ counts.total := unigram_le_total
  refine ⟨⟨htri, htri_le, htri_start⟩, ⟨hbi, hbi_le, hbi_start⟩, ⟨huni, huni_le⟩,
    leaveOneOut_mem_unitInterval htri ?_, leaveOneOut_mem_unitInterval hbi ?_,
    leaveOneOut_mem_unitInterval huni (.inl huni_le)⟩
  · exact (em ((a, b) = (start, start))).symm.imp htri_le htri_start
  · exact (em (b = start)).symm.imp hbi_le hbi_start

/-- Two sentences, one of them empty and the other with a stop symbol for a tag, on floats. -/
theorem estimates_mem_unitInterval_dogs :
    let counts := ofContexts (Tagger.contextsOf [⟨["dogs"], [stop], rfl⟩, ⟨[], [], rfl⟩])
    let e : ByHistory Float := counts.estimates stop stop stop (counts.trigram stop stop stop)
    0 ≤ e.trigram ∧ e.trigram ≤ 1 :=
  (estimates_mem_unitInterval (by decide) (by decide)).2.2.2.1

/-! ### Histories that are bigrams -/

/-- **A history is counted as a bigram as often as it is a history**, unless it is the beginning of
a sentence. -/
lemma bigram_eq_count_histories (h : ∀ s ∈ sentences, stop ∉ s.tags) (hne : (a, b) ≠ (start, start))
    (hmem : (a, b) ∈ histories (Tagger.contextsOf sentences)) :
    (ofContexts (Tagger.contextsOf sentences)).bigram a b =
      (histories (Tagger.contextsOf sentences)).count (a, b) := by
  have hstop : (stop, stop) ≠ (a, b) := by
    rintro ⟨rfl, rfl⟩
    obtain ⟨context, hcontext, heq⟩ := List.mem_map.1 hmem
    obtain ⟨s, hs, hcontext⟩ := List.mem_flatMap.1 hcontext
    exact s.beforePrevious_ne_stop (h s hs) context hcontext (Prod.mk.inj heq).1
  have hcount := count_histories sentences (a, b)
  rw [if_neg hstop, if_neg hne.symm, Nat.zero_add, Nat.add_zero] at hcount
  rw [bigram_ofContexts, hcount]

/-- Every sentence has one beginning. -/
lemma count_histories_start (h : ∀ s ∈ sentences, start ∉ s.tags) :
    ((histories (Tagger.contextsOf sentences)).count (start, start) : Int) = sentences.length := by
  have hbigram := (counts_start (a := start) h).1
  have hcount := count_histories sentences (start, start)
  rw [if_neg (by decide), if_pos rfl, Nat.add_zero] at hcount
  rw [bigram_ofContexts] at hbigram
  omega

/-- **One occurrence is removed from the history it was counted in, except at the beginning of a
sentence.** Take any sentences without boundary symbols among their tags, and a trigram that occurs
in their contexts. The frequency of its last tag in the model is its share of the contexts with its
history. Unless the history is two start symbols, there are as many of these contexts as the bigram
has occurrences, so the estimate that training compares is that share with the trigram itself
removed from both counts. Two start symbols come once before every sentence, but are never counted
as a bigram: there the estimate is zero, however many sentences begin alike. -/
theorem trigram_estimate_eq {P : Type u} [Probability P]
    (h : ∀ s ∈ sentences, start ∉ s.tags ∧ stop ∉ s.tags)
    (hattested : (a, b, c) ∈ (Tagger.contextsOf sentences).map LabelledContext.trigram) :
    let contexts := Tagger.contextsOf sentences
    let counts := ofContexts contexts
    let model : TrigramModel P := .ofContexts contexts
    let n := counts.trigram a b c
    let whole : Int := (histories contexts).count (a, b)
    let e : ByHistory P := counts.estimates a b c n
    (whole = (counts.row a b).total ∧
        (model.trigrams.getD (a, b) ∅).get? c = some (ratio n whole)) ∧
      ((a, b) ≠ (start, start) →
        counts.bigram a b = whole ∧
          e.trigram = if whole = 1 then 0 else ratio (n - 1) (whole - 1)) ∧
      ((a, b) = (start, start) →
        whole = sentences.length ∧ counts.bigram a b = 0 ∧ e.trigram = 0) := by
  intro contexts counts model n whole e
  have hhistory : (a, b) ∈ histories contexts := mem_histories_of_attested hattested
  refine ⟨⟨(total_row_ofContexts contexts a b).symm, get?_trigrams_of_attested hattested⟩,
    fun hne => ?_, ?_⟩
  · have hbigram : counts.bigram a b = whole :=
      bigram_eq_count_histories (fun s hs => (h s hs).2) hne hhistory
    have hpos : 0 < whole := Int.natCast_pos.2 (List.count_pos_iff.2 hhistory)
    refine ⟨hbigram, ?_⟩
    show leaveOneOut n (counts.bigram a b) = _
    rw [hbigram, leaveOneOut_of_pos hpos]
  · rintro ⟨rfl, rfl⟩
    have hstart : ∀ s ∈ sentences, start ∉ s.tags := fun s hs => (h s hs).1
    have hbigram : counts.bigram start start = 0 := (counts_start hstart).1
    refine ⟨count_histories_start hstart, hbigram, ?_⟩
    show leaveOneOut n (counts.bigram start start) = _
    rw [hbigram]
    exact leaveOneOut_of_le_one (by omega)

/-- Three sentences that begin alike, on floats. Two start symbols are a history three times and a
bigram never, so the estimate of the first tag is zero. A start symbol and that tag are a history
three times as well: two sentences end there, and with one of these removed it is one of two. -/
theorem trigram_estimate_eq_dogs :
    let counts := ofContexts (Tagger.contextsOf
      [⟨["dogs"], ["NNS"], rfl⟩, ⟨["dogs"], ["NNS"], rfl⟩, ⟨["dogs", "bark"], ["NNS", "VBP"], rfl⟩])
    let first : ByHistory Float :=
      counts.estimates start start "NNS" (counts.trigram start start "NNS")
    let later : ByHistory Float :=
      counts.estimates start "NNS" stop (counts.trigram start "NNS" stop)
    (counts.bigram start start = 0 ∧ first.trigram = 0) ∧
      counts.bigram start "NNS" = 3 ∧ later.trigram = ratio 1 2 := by
  intro counts first later
  have hfirst : _ ∧ counts.bigram start start = 0 ∧ first.trigram = 0 :=
    (trigram_estimate_eq (by decide) (by decide)).2.2 rfl
  have hlater : counts.bigram start "NNS" = _ ∧ later.trigram = _ :=
    (trigram_estimate_eq (by decide) (by decide)).2.1 (by decide)
  exact ⟨hfirst.2, hlater⟩

/-- **The beginning of a sentence is an exception.** Where two sentences begin with the same tag and
one of them is removed, all that is left begins with it; but the estimate is zero. -/
theorem not_forall_trigram_estimate :
    ¬ ∀ (sentences : List Sentence) (a b c : Tag),
      (∀ s ∈ sentences, start ∉ s.tags ∧ stop ∉ s.tags) →
      (a, b, c) ∈ (Tagger.contextsOf sentences).map LabelledContext.trigram →
      let contexts := Tagger.contextsOf sentences
      let counts := ofContexts contexts
      let n := counts.trigram a b c
      let whole : Int := (histories contexts).count (a, b)
      let e : ByHistory Exact := counts.estimates a b c n
      e.trigram.value = if whole = 1 then 0 else ((n - 1 : Int) : ℚ) / ((whole - 1 : Int) : ℚ) := by
  intro h
  let dogs : List Sentence := [⟨["dogs"], ["NNS"], rfl⟩, ⟨["dogs"], ["NNS"], rfl⟩]
  have hestimate := h dogs start start "NNS" (by decide) (by decide)
  have hbigram : (ofContexts (Tagger.contextsOf dogs)).bigram start start = 0 := by decide
  have htrigram : (ofContexts (Tagger.contextsOf dogs)).trigram start start "NNS" = 2 := by decide
  have hwhole : (histories (Tagger.contextsOf dogs)).count (start, start) = 2 := by decide
  simp [estimates, hbigram, htrigram, hwhole, leaveOneOut] at hestimate

end Sentences

end TagCounts

end TrellisTagger

import TrellisTagger.Lexicon
import TrellisTagger.Proofs.Counting

/-!
# What a lexicon knows

Training counts the tags that occur with a word, and those of first occurrences for words that do
not occur. This file says which tags a trained lexicon lists for a word, and which of them are left
when the history is taken into account. Nothing here depends on how frequencies are computed.

## Main definitions

* `TrellisTagger.wordTags`, `TrellisTagger.tagsWith`, `TrellisTagger.firstTags` — the words with
  their tags, the tags of one word, and the tags of first occurrences.
* `TrellisTagger.evidence` — the tags from which the row of a word is counted.

## Main results

* `TrellisTagger.Lexicon.row_ofContexts` — a row holds the frequencies of the tags of the evidence.
* `TrellisTagger.Lexicon.mem_keys_row`, `TrellisTagger.evidence_ne_nil` — it lists just these tags,
  and there is always one after training.
* `TrellisTagger.Lexicon.keys_candidates_ne_nil` — restriction leaves a candidate.
-/

namespace TrellisTagger

universe u

/-! ### The evidence for a word -/

/-- The words of some contexts with their tags. -/
def wordTags (contexts : List LabelledContext) : List (Word × Tag) :=
  contexts.map fun c => (c.word, c.tag)

/-- The tags that occur with a word. -/
def tagsWith (contexts : List LabelledContext) (word : Word) : List Tag :=
  under word (wordTags contexts)

/-- The tags of the first occurrences of words. -/
def firstTags (contexts : List LabelledContext) : List Tag :=
  (distinctBy (fun c => c.word) contexts).map fun c => c.tag

/-- The tags that tell of a word: those that occur with it or, if it does not occur, those of the
first occurrences of words. -/
def evidence (contexts : List LabelledContext) (word : Word) : List Tag :=
  if word ∈ (wordTags contexts).map Prod.fst then tagsWith contexts word else firstTags contexts

/-- A tag occurs with a word just if the word occurs with the tag. -/
lemma mem_tagsWith {contexts : List LabelledContext} {word : Word} {tag : Tag} :
    tag ∈ tagsWith contexts word ↔ (word, tag) ∈ wordTags contexts := mem_under

/-- First occurrences are among all occurrences. -/
lemma exists_mem_wordTags_of_mem_firstTags {contexts : List LabelledContext} {tag : Tag}
    (h : tag ∈ firstTags contexts) : ∃ word, (word, tag) ∈ wordTags contexts := by
  obtain ⟨c, hc, rfl⟩ := List.mem_map.1 h
  exact ⟨c.word, List.mem_map.2 ⟨c, mem_of_mem_distinctBy hc, rfl⟩⟩

/-- Every tag that tells of a word occurs with some word. -/
lemma exists_mem_wordTags_of_mem_evidence {contexts : List LabelledContext} {word : Word}
    {tag : Tag} (h : tag ∈ evidence contexts word) : ∃ word', (word', tag) ∈ wordTags contexts := by
  unfold evidence at h
  split at h
  · exact ⟨word, mem_tagsWith.1 h⟩
  · exact exists_mem_wordTags_of_mem_firstTags h

/-- **After training there is evidence for every word**, whether it was seen or not. -/
lemma evidence_ne_nil {contexts : List LabelledContext} (h : contexts ≠ []) (word : Word) :
    evidence contexts word ≠ [] := by
  unfold evidence
  split
  · rename_i hword
    obtain ⟨⟨word, tag⟩, hmem, rfl⟩ := List.mem_map.1 hword
    exact List.ne_nil_of_mem (mem_tagsWith.2 hmem)
  · obtain ⟨c, rest, rfl⟩ := List.exists_cons_of_ne_nil h
    simp [firstTags, distinctBy]

namespace Lexicon

variable {P : Type u} [Probability P] {contexts : List LabelledContext}

/-! ### Rows -/

/-- A word is known just if it occurs. -/
lemma knows_ofContexts {word : Word} :
    (ofContexts contexts : Lexicon P).knows word = true ↔
      word ∈ (wordTags contexts).map Prod.fst := by
  rw [knows, Table.contains_iff, ofContexts, keys_conditionalFrequencies, mem_distinct]
  rfl

/-- **A row holds the frequencies of the tags that tell of its word.** -/
theorem row_ofContexts (contexts : List LabelledContext) (word : Word) :
    (ofContexts contexts : Lexicon P).row word =
      relativeFrequencies (tally (evidence contexts word)) := by
  rw [row, Table.getD, ofContexts, get?_conditionalFrequencies, evidence]
  show Option.getD (if word ∈ (wordTags contexts).map Prod.fst then _ else none) _ = _
  split <;> rfl

/-- A row lists the tags that tell of its word. -/
theorem mem_keys_row {word : Word} {tag : Tag} :
    tag ∈ ((ofContexts contexts : Lexicon P).row word).keys ↔ tag ∈ evidence contexts word := by
  rw [row_ofContexts, keys_relativeFrequencies, mem_distinct]

/-- Every word has a tag as soon as there is a context. -/
lemma keys_row_ne_nil (h : contexts ≠ []) (word : Word) :
    ((ofContexts contexts : Lexicon P).row word).keys ≠ [] := by
  rw [row_ofContexts, keys_relativeFrequencies, Ne, distinct_eq_nil_iff]
  exact evidence_ne_nil h word

/-! ### Candidates -/

omit [Probability P] in
/-- Candidates are tags of the word. -/
lemma keys_candidates_subset (m : Lexicon P) (restrict : Bool) (c : Context) :
    (m.candidates restrict c).keys ⊆ (m.row c.word).keys := by
  unfold candidates
  split
  · rw [Table.keys_filter]
    exact List.filter_sublist.subset
  · exact List.Subset.refl _

omit [Probability P] in
/-- **Restriction leaves a candidate** where there is one at all. -/
lemma keys_candidates_ne_nil {m : Lexicon P} {restrict : Bool} {c : Context}
    (h : (m.row c.word).keys ≠ []) : (m.candidates restrict c).keys ≠ [] := by
  unfold candidates
  split
  · rename_i hfits
    obtain ⟨tag, hmem, hfit⟩ := List.any_eq_true.1 ((Bool.and_eq_true _ _).mp hfits).2
    rw [Table.keys_filter]
    exact List.ne_nil_of_mem (List.mem_filter.2 ⟨hmem, hfit⟩)
  · exact h

omit [Probability P] in
/-- Without restriction all tags of the word are candidates. -/
lemma candidates_false (m : Lexicon P) (c : Context) : m.candidates false c = m.row c.word := rfl

end Lexicon

end TrellisTagger

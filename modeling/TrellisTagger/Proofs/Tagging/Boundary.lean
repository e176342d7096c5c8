import TrellisTagger.Proofs.Tagging.Shape
import TrellisTagger.Proofs.Training

/-!
# Boundary symbols among the tags found

Every sentence ends with the stop symbol, which counts as a word that is met for the first time with
itself for its tag. So the stop symbol is among the tags of words that training has not seen, and
such a word may be given it. No other word is, and the start symbol is given to none.

## Main results

* `TrellisTagger.mem_zip_of_mem_keys_logScores_train` — the tags that training offers a word.
* `TrellisTagger.Tagger.tag_boundary` — the tags that words are given, and which of them can be
  boundary symbols.
* `TrellisTagger.Tagger.not_forall_tag_ne_stop` — the stop symbol does occur among them.
-/

namespace TrellisTagger

universe u v

section

variable {P : Type u} [Probability P] {W : Type v} [LogWeight W] [Logarithm P W]

/-- A word is offered a tag that it has in training or, if training has not seen it, the stop symbol
or some tag of another word. -/
lemma mem_zip_of_mem_keys_logScores_train {s : Scorer P} {sentences : List Sentence} {c : Context}
    {tag : Tag} (hc : c.word ≠ Boundary.stop)
    (h : tag ∈ ((s.train (Tagger.contextsOf sentences)).logScores c : Table Tag W).keys) :
    (∃ seen ∈ sentences, (c.word, tag) ∈ seen.words.zip seen.tags) ∨
      (∀ seen ∈ sentences, c.word ∉ seen.words) ∧
        (tag = Boundary.stop ∨ ∃ seen ∈ sentences, tag ∈ seen.tags) := by
  have hrow := Scorer.keys_logScores_subset _ c h
  rw [(s.isModelOf_train _).lexicon_eq, Lexicon.mem_keys_row] at hrow
  unfold evidence at hrow
  split at hrow
  · left
    obtain ⟨seen, hseen, hmem | heq⟩ := mem_wordTags_contextsOf.1 (mem_tagsWith.1 hrow)
    · exact ⟨seen, hseen, hmem⟩
    · exact absurd (Prod.mk.inj heq).1 hc
  · rename_i hunseen
    right
    constructor
    · intro seen hseen hword
      have hzip : c.word ∈ (seen.words.zip seen.tags).map Prod.fst := by
        rwa [List.map_fst_zip (Nat.le_of_eq seen.length_eq)]
      obtain ⟨x, hx, hfst⟩ := List.mem_map.1 hzip
      exact hunseen (List.mem_map.2 ⟨x, mem_wordTags_contextsOf.2 ⟨seen, hseen, .inl hx⟩, hfst⟩)
    · obtain ⟨word, hword⟩ := exists_mem_wordTags_of_mem_firstTags hrow
      obtain ⟨seen, hseen, hmem | heq⟩ := mem_wordTags_contextsOf.1 hword
      · exact .inr ⟨seen, hseen, (List.of_mem_zip hmem).2⟩
      · exact .inl (Prod.mk.inj heq).2

namespace Tagger

/-- The tags found for words other than the stop symbol are among those that training offers
them. -/
lemma mem_zip_of_tag {t : Tagger P} {sentences : List Sentence} {words : List Word}
    {tags : List Tag} (hwords : Boundary.stop ∉ words)
    (h : (t.train sentences).tag words = .ok tags) :
    ∀ x ∈ words.zip tags, (∃ seen ∈ sentences, x ∈ seen.words.zip seen.tags) ∨
      (∀ seen ∈ sentences, x.1 ∉ seen.words) ∧
        (x.2 = Boundary.stop ∨ ∃ seen ∈ sentences, x.2 ∈ seen.tags) := by
  intro x hx
  obtain ⟨hlen, hsupported⟩ := isSupported_of_tagWords h
  obtain ⟨i, hi, rfl⟩ := List.mem_iff_getElem.1 hx
  rw [List.length_zip] at hi
  rw [List.getElem_zip]
  have hword : ∀ previous beforePrevious,
      (Context.mk words i previous beforePrevious).word = words[i] :=
    fun _ _ => atPosition_eq_getElem (l := words) (by omega)
  -- the word at the position is no stop symbol, so no stop position of training tells of it
  have hne : words[i] ≠ Boundary.stop := fun heq => hwords (heq ▸ List.getElem_mem _)
  have hkey := hsupported.atPosition_mem_keys (i := i) (by simp only; omega)
  rw [atPosition_eq_getElem (by simp only; omega)] at hkey
  have hoffer := mem_zip_of_mem_keys_logScores_train (by rwa [hword]) hkey
  rwa [hword] at hoffer

/-- **No word is given the start symbol, and only words that training has not seen are given the
stop symbol.** If no tag in training is a boundary symbol, and tags are found for words without the
stop symbol, then:

* there is one tag for each word, and none is the start symbol;
* a word that occurs in training is given one of the tags it has there, so no boundary symbol;
* any other word is given the stop symbol or a tag that occurs in training.

**Proof sketch.** Each tag found is scored at its position, so it is among the tags of the word,
which are those of its occurrences, or of the first occurrences of words where there are none. -/
theorem tag_boundary {t : Tagger P} {sentences : List Sentence}
    (htags : ∀ s ∈ sentences, Boundary.start ∉ s.tags ∧ Boundary.stop ∉ s.tags)
    {words : List Word} (hwords : Boundary.stop ∉ words) {tags : List Tag}
    (h : (t.train sentences).tag words = .ok tags) :
    tags.length = words.length ∧ Boundary.start ∉ tags ∧
      ∀ x ∈ words.zip tags,
        ((∃ seen ∈ sentences, x.1 ∈ seen.words) →
          x.2 ≠ Boundary.stop ∧ ∃ seen ∈ sentences, x ∈ seen.words.zip seen.tags) ∧
        ((∀ seen ∈ sentences, x.1 ∉ seen.words) →
          x.2 = Boundary.stop ∨ ∃ seen ∈ sentences, x.2 ∈ seen.tags) := by
  obtain ⟨hlen, -⟩ := isSupported_of_tagWords h
  have hoffers := mem_zip_of_tag hwords h
  refine ⟨hlen.symm, ?_, fun x hx => ⟨?_, ?_⟩⟩
  · intro hmem
    rw [← List.map_snd_zip (Nat.le_of_eq hlen.symm)] at hmem
    obtain ⟨x, hx, hstart⟩ := List.mem_map.1 hmem
    rcases hoffers x hx with ⟨seen, hseen, hzip⟩ | ⟨-, hstop | ⟨seen, hseen, htag⟩⟩
    · exact (htags seen hseen).1 (hstart ▸ (List.of_mem_zip hzip).2)
    · exact absurd (hstart.symm.trans hstop) (by decide)
    · exact (htags seen hseen).1 (hstart ▸ htag)
  · rintro ⟨seen, hseen, hword⟩
    rcases hoffers x hx with ⟨seen', hseen', hzip⟩ | ⟨hunseen, -⟩
    · refine ⟨fun hstop => ?_, seen', hseen', hzip⟩
      exact (htags seen' hseen').2 (hstop ▸ (List.of_mem_zip hzip).2)
    · exact absurd hword (hunseen seen hseen)
  · intro hunseen
    rcases hoffers x hx with ⟨seen, hseen, hzip⟩ | ⟨-, hoffer⟩
    · exact absurd (List.of_mem_zip hzip).1 (hunseen seen hseen)
    · exact hoffer

end Tagger

end

namespace Tagger

/-- After training on the one word "dogs" the only attested tag after it is the stop symbol, which
is also a tag of the unseen word "bark". -/
lemma tag_dogs_bark :
    (train ⟨.lexical ⟨true, .empty⟩, .viterbi⟩ [⟨["dogs"], ["NNS"], rfl⟩] : Tagger Float).tag
      ["dogs", "bark"] = .ok ["NNS", Boundary.stop] := rfl

/-- The word that was seen is given the tag that it has in training. -/
theorem tag_boundary_dogs :
    Boundary.start ∉ ["NNS", Boundary.stop] ∧ "NNS" ≠ Boundary.stop ∧
      ∃ seen ∈ [Sentence.mk ["dogs"] ["NNS"] rfl], ("dogs", "NNS") ∈ seen.words.zip seen.tags := by
  obtain ⟨-, hstart, hzip⟩ := tag_boundary (by decide) (by decide) tag_dogs_bark
  exact ⟨hstart, (hzip ("dogs", "NNS") (by decide)).1 ⟨_, List.mem_singleton.2 rfl, by decide⟩⟩

/-- **A word may be given the stop symbol as its tag**, although no tag in training is a boundary
symbol and no word is the stop symbol, neither in training nor among those to be tagged. -/
theorem not_forall_tag_ne_stop :
    ¬ ∀ (c : Config Float) (t : Tagger Float), ofConfig c = .ok t →
        ∀ sentences : List Sentence, sentences ≠ [] →
          (∀ s ∈ sentences, Boundary.start ∉ s.tags ∧ Boundary.stop ∉ s.tags ∧
            Boundary.stop ∉ s.words) →
          ∀ words : List Word, Boundary.stop ∉ words →
            ∀ tags, (t.train sentences).tag words = .ok tags →
              Boundary.start ∉ tags ∧ Boundary.stop ∉ tags := by
  intro h
  have hconfig : ofConfig (P := Float) ⟨"most_frequent", "viterbi", true, ⟨0, 0⟩, false⟩ =
      .ok ⟨.lexical ⟨true, .empty⟩, .viterbi⟩ := rfl
  have hnone := h _ _ hconfig _ (List.cons_ne_nil _ _) (by decide) _ (by decide) _ tag_dogs_bark
  exact absurd hnone.2 (by decide)

end Tagger

end TrellisTagger

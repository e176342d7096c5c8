import TrellisTagger.Proofs.Corpus.RoundTrip
import TrellisTagger.Proofs.Tagging.Shape
import TrellisTagger.Proofs.Training

/-!
# Files that a tagger writes

A tagger that has learned from a corpus finds no tags but those of the corpus and the stop symbol,
and these are tokens. So the sentences that it tags and writes are read back as they were, and with
the tags found for them. A sentence without tags is written with empty ones: reading with tags then
stops at its first line.

## Main results

* `TrellisTagger.Tagger.mem_tags_of_tag` — where the tags found come from.
* `TrellisTagger.Tagger.isWritable_tagged` — sentences that were read can be written with them.
* `TrellisTagger.Tagger.load_write` — what is read back.
-/

namespace TrellisTagger

universe u v

namespace Tagger

variable {P : Type u} [Probability P] {W : Type v} [LogWeight W] [Logarithm P W]
variable {t : Tagger P} {training : List Sentence} {words : List Word} {tags : List Tag}

/-! ### Tags found -/

omit [Logarithm P W] in
/-- Every tag found is scored in some context. -/
lemma exists_mem_keys_of_mem_tags {scores : Scores W} {d : Decoder}
    (h : tagWords scores d words = .ok tags) {tag : Tag} (htag : tag ∈ tags) :
    ∃ c, tag ∈ (scores c).keys := by
  obtain ⟨hlen, hsupported⟩ := isSupported_of_tagWords h
  obtain ⟨i, hi, rfl⟩ := List.mem_iff_getElem.1 htag
  have hkey := hsupported.atPosition_mem_keys (i := i) (by simp only; omega)
  rw [atPosition_eq_getElem hi] at hkey
  exact ⟨_, hkey⟩

/-- **Every tag found occurs in training, or is the stop symbol.** -/
theorem mem_tags_of_tag (h : (t.train training).tag words = .ok tags) {tag : Tag}
    (htag : tag ∈ tags) :
    tag = Boundary.stop ∨ ∃ seen ∈ training, tag ∈ seen.tags := by
  obtain ⟨c, hkey⟩ := exists_mem_keys_of_mem_tags h htag
  have hrow := Scorer.keys_logScores_subset _ c hkey
  rw [train, (t.scorer.isModelOf_train _).lexicon_eq, Lexicon.mem_keys_row] at hrow
  obtain ⟨word, hword⟩ := exists_mem_wordTags_of_mem_evidence hrow
  obtain ⟨seen, hseen, hzip | heq⟩ := mem_wordTags_contextsOf.1 hword
  · exact .inr ⟨seen, hseen, (List.of_mem_zip hzip).2⟩
  · exact .inl (Prod.mk.inj heq).2

/-- The tags found are tokens if those of the training are. -/
lemma isToken_of_tag (htraining : ∀ seen ∈ training, ∀ tag ∈ seen.tags, IsToken tag)
    (h : (t.train training).tag words = .ok tags) : ∀ tag ∈ tags, IsToken tag := by
  intro tag htag
  rcases mem_tags_of_tag h htag with rfl | ⟨seen, hseen, hmem⟩
  · exact isToken_stop
  · exact htraining seen hseen tag hmem

/-! ### Sentences with the tags found -/

section Tagged

variable {s : Sentence}

/-- Words for which tags are found are written with them. -/
lemma tagged_of_tag_eq_ok (h : t.tag s.words = .ok tags) : t.tagged s = s.words.zip tags := by
  rw [tagged, h]

/-- Words for which no tags are found are written with empty ones. -/
lemma tagged_of_tag_eq_error {e : DecodeFailure State} (h : t.tag s.words = .error e) :
    t.tagged s = s.words.map fun word => (word, "") := by
  rw [tagged, h, Sentence.size]
  induction s.words with
  | nil => rfl
  | cons word words ih => simpa [List.replicate_succ] using ih

/-- No word is lost on the way. -/
lemma map_fst_tagged (t : Tagger P) (s : Sentence) : (t.tagged s).map Prod.fst = s.words := by
  cases h : t.tag s.words with
  | ok tags =>
    obtain ⟨hlen, -⟩ := isSupported_of_tagWords h
    rw [tagged_of_tag_eq_ok h, List.map_fst_zip (Nat.le_of_eq hlen)]
  | error e =>
    rw [tagged_of_tag_eq_error h, List.map_map]
    exact List.map_id _

/-- As many words are written as the sentence has. -/
lemma length_tagged (t : Tagger P) (s : Sentence) : (t.tagged s).length = s.size := by
  rw [← List.length_map Prod.fst, map_fst_tagged, Sentence.size]

/-- The tags of a sentence for which tags are found are tokens. -/
lemma isToken_snd_of_mem_tagged (htraining : ∀ seen ∈ training, ∀ tag ∈ seen.tags, IsToken tag)
    (h : ∃ tags, (t.train training).tag s.words = .ok tags) {x : Word × Tag}
    (hx : x ∈ (t.train training).tagged s) : IsToken x.2 := by
  obtain ⟨tags, h⟩ := h
  rw [tagged_of_tag_eq_ok h] at hx
  exact isToken_of_tag htraining h x.2 (List.of_mem_zip hx).2

/-- **Sentences that were read can be written** by a tagger that has learned from what was read. -/
theorem isWritable_tagged (htraining : ∀ seen ∈ training, ∀ tag ∈ seen.tags, IsToken tag)
    (hne : s.words ≠ []) (hwords : ∀ word ∈ s.words, IsToken word) :
    Corpus.IsWritable ((t.train training).tagged s) where
  ne_nil hnil := by
    rw [← map_fst_tagged (t.train training) s, hnil] at hne
    exact hne rfl
  isToken_word x hx := by
    refine hwords x.1 ?_
    rw [← map_fst_tagged (t.train training) s]
    exact List.mem_map_of_mem hx
  isToken_tag x hx hempty := by
    cases h : (t.train training).tag s.words with
    | ok tags => exact isToken_snd_of_mem_tagged htraining ⟨tags, h⟩ hx
    | error e =>
      rw [tagged_of_tag_eq_error h] at hx
      obtain ⟨word, -, rfl⟩ := List.mem_map.1 hx
      exact absurd rfl hempty

end Tagged

/-! ### Reading back -/

section Reading

variable {sentences : List Sentence}

/-- Without the tags the sentences are read back as they were. -/
lemma parse_false_write (hwritable : ∀ l ∈ sentences.map t.tagged, Corpus.IsWritable l)
    (hblind : ∀ s ∈ sentences, s.tags = s.words.map fun _ => "") :
    Corpus.parse false (t.write sentences).toList = .ok sentences := by
  rw [write, Corpus.parse_false_render hwritable, List.map_map]
  congr 1
  conv_rhs => rw [← List.map_id sentences]
  refine List.map_congr_left fun s hs => ?_
  have hpairs : (t.tagged s).map (fun x => (x.1, "")) = s.words.zip s.tags := by
    rw [hblind s hs, List.zip_map_right, ← map_fst_tagged t s]
    simp [List.map_map, Function.comp_def, List.zip_map']
  rw [Function.comp_apply, hpairs, Sentence.ofPairs_zip s.length_eq]
  rfl

/-- With the tags the sentences are read back with the tags that were found. -/
lemma parse_true_write (hwritable : ∀ l ∈ sentences.map t.tagged, Corpus.IsWritable l)
    (htags : ∀ l ∈ sentences.map t.tagged, ∀ x ∈ l, x.2 ≠ "")
    (hfound : ∀ s ∈ sentences, ∃ tags, t.tag s.words = .ok tags) :
    ∃ found, Corpus.parse true (t.write sentences).toList = .ok found ∧
      List.Forall₂ (fun s r => r.words = s.words ∧ t.tag s.words = .ok r.tags) sentences found := by
  refine ⟨_, Corpus.parse_true_render hwritable htags, ?_⟩
  rw [List.map_map, List.forall₂_map_right_iff, List.forall₂_same]
  intro s hs
  obtain ⟨tags, h⟩ := hfound s hs
  obtain ⟨hlen, -⟩ := isSupported_of_tagWords h
  rw [Function.comp_apply, tagged_of_tag_eq_ok h, Sentence.ofPairs_zip hlen]
  exact ⟨rfl, h⟩

/-- The first line of the first sentence without tags is reported. -/
lemma parse_true_write_untagged {before after : List Sentence} {s : Sentence}
    {e : DecodeFailure State}
    (hwritable : ∀ l ∈ (before ++ s :: after).map t.tagged, Corpus.IsWritable l)
    (htags : ∀ l ∈ before.map t.tagged, ∀ x ∈ l, x.2 ≠ "") (h : t.tag s.words = .error e)
    (hne : s.words ≠ []) :
    Corpus.parse true (t.write (before ++ s :: after)).toList =
      .error ((before.map fun s' => s'.size + 1).sum + 1) := by
  obtain ⟨word, rest, hwords⟩ := List.exists_cons_of_ne_nil hne
  have hfailed : t.tagged s = (word, "") :: rest.map fun word => (word, "") := by
    rw [tagged_of_tag_eq_error h, hwords, List.map_cons]
  rw [List.map_append, List.map_cons, hfailed] at hwritable
  rw [write, List.map_append, List.map_cons, hfailed,
    Corpus.parse_true_render_untagged hwritable htags]
  simp only [List.map_map, Function.comp_def, length_tagged]

/-- **What a tagger writes is read back.** Let a tagger learn from the sentences of a tagged file,
whatever its settings are, and write the sentences of a blind file with the tags that it finds.

* The words that are written are those that were read: as a blind file, what is written has the
  sentences of the blind file, even where no tags were found.
* If tags are found for all sentences, then as a tagged file it has these sentences with these tags.
* If not, then as a tagged file it is refused for the first line of the first sentence without tags.
  The sentences before have taken a line for each word and a blank line each.

**Proof sketch.** What was read consists of tokens, so the tags found are tokens too and the written
lines have the fields that they should have. A sentence without tags has at least one word, and the
line of that word has one field only. -/
theorem load_write {trainingPath blindPath : String}
    {trainingFile blindFile : Except PathError ByteArray}
    (htraining : Corpus.load trainingPath trainingFile true = .ok training)
    (hblind : Corpus.load blindPath blindFile false = .ok sentences) (t : Tagger P)
    (path : String) :
    Corpus.load path (.ok ((t.train training).write sentences).toUTF8) false = .ok sentences ∧
      ((∀ s ∈ sentences, ∃ tags, (t.train training).tag s.words = .ok tags) →
        ∃ found, Corpus.load path (.ok ((t.train training).write sentences).toUTF8) true =
          .ok found ∧
          List.Forall₂ (fun s r => r.words = s.words ∧ (t.train training).tag s.words = .ok r.tags)
            sentences found) ∧
      ∀ before s after e, sentences = before ++ s :: after →
        (∀ s' ∈ before, ∃ tags, (t.train training).tag s'.words = .ok tags) →
        (t.train training).tag s.words = .error e →
        Corpus.load path (.ok ((t.train training).write sentences).toUTF8) true =
          .error (.untagged path ((before.map fun s' => s'.size + 1).sum + 1)) := by
  obtain ⟨trainingText, hread⟩ := Corpus.exists_parse_of_load htraining
  obtain ⟨blindText, hparse⟩ := Corpus.exists_parse_of_load hblind
  have htokens : ∀ seen ∈ training, ∀ tag ∈ seen.tags, IsToken tag :=
    fun seen hseen => Corpus.tags_of_parse_true hread hseen
  have hwritable : ∀ l ∈ sentences.map (t.train training).tagged, Corpus.IsWritable l := by
    intro l hl
    obtain ⟨s, hs, rfl⟩ := List.mem_map.1 hl
    obtain ⟨hne, hwords⟩ := Corpus.isToken_of_parse hparse hs
    exact isWritable_tagged htokens hne hwords
  have hnonempty : ∀ decoded : List Sentence,
      (∀ s ∈ decoded, ∃ tags, (t.train training).tag s.words = .ok tags) →
      ∀ l ∈ decoded.map (t.train training).tagged, ∀ x ∈ l, x.2 ≠ "" := by
    intro decoded hfound l hl x hx
    obtain ⟨s, hs, rfl⟩ := List.mem_map.1 hl
    exact (isToken_snd_of_mem_tagged htokens (hfound s hs) hx).ne_empty
  simp only [Corpus.load_toUTF8]
  refine ⟨?_, fun hfound => ?_, ?_⟩
  · rw [parse_false_write hwritable fun s hs => Corpus.tags_of_parse_false hparse hs]
  · obtain ⟨found, hparsed, hforall⟩ := parse_true_write hwritable (hnonempty _ hfound) hfound
    exact ⟨found, by rw [hparsed], hforall⟩
  · rintro before s after e rfl hbefore hfailed
    have hne : s.words ≠ [] :=
      (Corpus.isToken_of_parse hparse (List.mem_append_right _ List.mem_cons_self)).1
    rw [parse_true_write_untagged hwritable (hnonempty _ hbefore) hfailed hne]

end Reading

/-- Words and tags among which the stop symbol is a word like others, with a tag of its own. -/
def dogsThenStop : Sentence := ⟨["dogs", Boundary.stop], ["NNS", "SYM"], rfl⟩

/-- The same words and the word "dogs" alone, without tags. -/
def blindDogs : List Sentence := [⟨["dogs", Boundary.stop], ["", ""], rfl⟩, ⟨["dogs"], [""], rfl⟩]

/-- Under restriction the stop symbol can only have the tag that it has in training after "dogs". So
no tags are found for "dogs" alone. What is written has the words of both sentences, and is refused
for its fourth line when tags are asked for. -/
theorem load_write_dogs :
    Corpus.load "training" (.ok "dogs\tNNS\n</S>\tSYM\n".toUTF8) true = .ok [dogsThenStop] ∧
      Corpus.load "blind" (.ok "dogs\n</S>\n\n\n dogs".toUTF8) false = .ok blindDogs ∧
      Corpus.load "written" (.ok ((train ⟨.lexical ⟨true, .empty⟩, .viterbi⟩ [dogsThenStop] :
        Tagger Float).write blindDogs).toUTF8) false = .ok blindDogs ∧
      Corpus.load "written" (.ok ((train ⟨.lexical ⟨true, .empty⟩, .viterbi⟩ [dogsThenStop] :
        Tagger Float).write blindDogs).toUTF8) true = .error (.untagged "written" 4) := by
  have htraining : Corpus.load "training" (.ok "dogs\tNNS\n</S>\tSYM\n".toUTF8) true =
      .ok [dogsThenStop] := rfl
  have hblind : Corpus.load "blind" (.ok "dogs\n</S>\n\n\n dogs".toUTF8) false = .ok blindDogs :=
    rfl
  have hfound : (train ⟨.lexical ⟨true, .empty⟩, .viterbi⟩ [dogsThenStop] : Tagger Float).tag
      ["dogs", Boundary.stop] = .ok ["NNS", "SYM"] := rfl
  have hfailed : (train ⟨.lexical ⟨true, .empty⟩, .viterbi⟩ [dogsThenStop] : Tagger Float).tag
      ["dogs"] = .error (.unreachable State.start (State.stop 1)) := rfl
  obtain ⟨hwords, -, huntagged⟩ :=
    load_write htraining hblind (⟨.lexical ⟨true, .empty⟩, .viterbi⟩ : Tagger Float) "written"
  exact ⟨htraining, hblind, hwords,
    huntagged [⟨["dogs", Boundary.stop], ["", ""], rfl⟩] ⟨["dogs"], [""], rfl⟩ [] _ rfl
      (by simpa using ⟨_, hfound⟩) hfailed⟩

end Tagger

end TrellisTagger

import Mathlib.Data.List.Forall2
import TrellisTagger.Proofs.Corpus.RoundTrip
import TrellisTagger.Proofs.Text.Grammar

/-!
# The grammar of corpora

A corpus is a text of lines, a line is made up of fields and blanks, and the lines fall into
stretches of lines with fields, with lines without fields between them. This file says that reading
follows this grammar for every text: it fails where a line has its first field only and a tag is
wanted, and otherwise each stretch is a sentence.

## Main definitions

* `TrellisTagger.Corpus.HasLayout` — the fields of the lines of a text, and the stretches they fall
  into.
* `TrellisTagger.Corpus.IsFirstUntagged` — the number of the first line with a single field.
* `TrellisTagger.Corpus.IsReadFrom` — a sentence has the first fields of a stretch for its words.

## Main results

* `TrellisTagger.Corpus.hasLayout_iff` — every text has one layout.
* `TrellisTagger.Corpus.load_follows_grammar` — what is read of a file.

## Design

The layout is described by how text, lines and stretches are put together, without reference to how
they are cut. Fields and stretches are runs in the same sense, once of characters and once of lines.
-/

namespace TrellisTagger.Corpus

/-- The fields of the lines of a text, and the longest stretches of lines that have fields. -/
structure HasLayout (text : List Char) (rows : List (List (List Char)))
    (stretches : List (List (List (List Char)))) : Prop where
  /-- Each line is made up of its fields and blanks. -/
  lines : ∃ ls, HasLines text ls ∧ List.Forall₂ (HasRuns isBlank) ls rows
  /-- The lines are made up of the stretches and of lines without fields. -/
  stretches : HasRuns List.isEmpty rows stretches

/-- The number of the first line with a single field, lines being counted from one. -/
def IsFirstUntagged (rows : List (List (List Char))) (n : Nat) : Prop :=
  ∃ k row, n = k + 1 ∧ rows[k]? = some row ∧ row.length = 1 ∧
    ∀ j < k, ∀ earlier, rows[j]? = some earlier → earlier.length ≠ 1

/-- A sentence has the first fields of some lines for its words. Its tags are their second fields,
or empty where no tags are wanted. -/
structure IsReadFrom (tagged : Bool) (s : Sentence) (stretch : List (List (List Char))) : Prop where
  /-- The words are the first fields. -/
  words : s.words.map (fun word => some word.toList) = stretch.map fun fields => fields[0]?
  /-- The tags are the second fields, or empty. -/
  tags : s.tags.map (fun tag => some tag.toList) =
    stretch.map fun fields => if tagged then fields[1]? else some []

variable {text : List Char} {rows : List (List (List Char))}

/-- **Every text has one layout.** -/
theorem hasLayout_iff {stretches : List (List (List (List Char)))} :
    HasLayout text rows stretches ↔
      rows = fieldLines text ∧ stretches = runs List.isEmpty (fieldLines text) := by
  have hrows : ∀ ls : List (List Char),
      List.Forall₂ (HasRuns isBlank) ls rows ↔ rows = ls.map fields := by
    intro ls
    have hfields : HasRuns isBlank = fun line row => fields line = row := by
      funext line row
      exact propext (hasRuns_iff.trans eq_comm)
    rw [hfields, ← List.forall₂_map_left_iff (f := fields) (R := Eq), List.forall₂_eq_eq_eq,
      eq_comm]
  constructor
  · rintro ⟨⟨ls, hls, hfields⟩, hstretches⟩
    obtain rfl := hasLines_iff.1 hls
    obtain rfl := (hrows _).1 hfields
    exact ⟨rfl, hasRuns_iff.1 hstretches⟩
  · rintro ⟨rfl, rfl⟩
    exact ⟨⟨lines text, hasLines_iff.2 rfl, (hrows _).2 rfl⟩, hasRuns_iff.2 rfl⟩

/-- The line that is reported is the first one with a single field. -/
lemma untaggedLine?_eq_some_iff {n : Nat} :
    untaggedLine? rows = some n ↔ IsFirstUntagged rows n := by
  rw [untaggedLine?, Option.map_eq_some_iff]
  constructor
  · rintro ⟨k, hk, rfl⟩
    obtain ⟨hlt, hone, hearlier⟩ := List.findIdx?_eq_some_iff_getElem.1 hk
    refine ⟨k, rows[k], rfl, List.getElem?_eq_getElem hlt, by simpa using hone,
      fun j hj row hrow => ?_⟩
    obtain ⟨hjlt, rfl⟩ := List.getElem?_eq_some_iff.1 hrow
    simpa using hearlier j hj
  · rintro ⟨k, row, rfl, hrow, hone, hearlier⟩
    obtain ⟨hlt, rfl⟩ := List.getElem?_eq_some_iff.1 hrow
    refine ⟨k, List.findIdx?_eq_some_iff_getElem.2 ⟨hlt, by simpa using hone, fun j hj => ?_⟩, rfl⟩
    simpa using hearlier j hj _ (List.getElem?_eq_getElem _)

/-- A text without its tags is refused at the first line that lacks one. -/
lemma parse_eq_error_iff {tagged : Bool} {n : Nat} :
    parse tagged text = .error n ↔ tagged = true ∧ IsFirstUntagged (fieldLines text) n := by
  rw [← untaggedLine?_eq_some_iff]
  unfold parse
  dsimp only
  cases tagged with
  | false => simp
  | true =>
    rw [if_pos rfl]
    cases untaggedLine? (fieldLines text) <;> simp

/-- Any other text is read. -/
lemma parse_eq_ok_of_forall {tagged : Bool}
    (h : tagged = true → ∀ row ∈ fieldLines text, row.length ≠ 1) :
    parse tagged text = .ok (sentences tagged (fieldLines text)) := by
  cases hparse : parse tagged text with
  | ok found => rw [(parse_eq_ok hparse).1]
  | error n =>
    obtain ⟨htagged, k, row, -, hrow, hone, -⟩ := parse_eq_error_iff.1 hparse
    exact absurd hone (h htagged row (List.mem_of_getElem? hrow))

/-- The words and tags of a stretch are read off its fields, if none of its lines lacks a field. -/
lemma isReadFrom_ofPairs {tagged : Bool} {stretch : List (List (List Char))}
    (hfields : ∀ fields ∈ stretch, fields ≠ [] ∧ (tagged = true → fields.length ≠ 1)) :
    IsReadFrom tagged (.ofPairs (stretch.map (entry tagged))) stretch := by
  constructor
  · rw [Sentence.ofPairs, List.map_map, List.map_map]
    refine List.map_congr_left fun fields hmem => ?_
    obtain ⟨field, rest, rfl⟩ := List.exists_cons_of_ne_nil (hfields fields hmem).1
    simp [entry]
  · rw [Sentence.ofPairs, List.map_map, List.map_map]
    refine List.map_congr_left fun fields hmem => ?_
    obtain ⟨hne, hlength⟩ := hfields fields hmem
    cases tagged with
    | false => simp [entry]
    | true =>
      obtain ⟨word, rest, rfl⟩ := List.exists_cons_of_ne_nil hne
      cases rest with
      | nil => exact absurd rfl (hlength rfl)
      | cons tag rest => simp [entry]

/-- **Reading follows the grammar.** Take any text in a file, and read it with or without tags. The
text has one layout, and in terms of it:

* reading fails just if tags are wanted and a line has a single field, and reports the first such
  line;
* otherwise the sentences are, in order, the longest stretches of lines with fields, their words
  being the first fields and their tags the second fields, or empty;
* no sentence is empty, the words are not empty and hold no blank, and where tags are wanted so are
  they.

**Proof sketch.** Lines, fields and stretches are those that are cut out (`hasLayout_iff`). A
stretch has only lines with fields, and where none has a single one, the second field is there. -/
theorem load_follows_grammar (path text : String) (tagged : Bool) :
    ∃ rows stretches,
      (∀ rows' stretches', HasLayout text.toList rows' stretches' ↔
        rows' = rows ∧ stretches' = stretches) ∧
      (∀ e, load path (.ok text.toUTF8) tagged = .error e ↔
        tagged = true ∧ ∃ n, e = .untagged path n ∧ IsFirstUntagged rows n) ∧
      ((tagged = true → ∀ row ∈ rows, row.length ≠ 1) →
        ∃ sentences, load path (.ok text.toUTF8) tagged = .ok sentences ∧
          List.Forall₂ (IsReadFrom tagged) sentences stretches ∧
          ∀ s ∈ sentences, s.words ≠ [] ∧ (∀ word ∈ s.words, IsToken word) ∧
            (tagged = true → ∀ tag ∈ s.tags, IsToken tag)) := by
  refine ⟨fieldLines text.toList, runs List.isEmpty (fieldLines text.toList),
    fun _ _ => hasLayout_iff, fun e => ?_, fun htags => ?_⟩
  · rw [load_toUTF8]
    constructor
    · intro herr
      split at herr
      · rename_i n hparse
        obtain ⟨htagged, hfirst⟩ := parse_eq_error_iff.1 hparse
        exact ⟨htagged, n, (Except.error.inj herr).symm, hfirst⟩
      · cases herr
    · rintro ⟨htagged, n, rfl, hfirst⟩
      rw [parse_eq_error_iff.2 ⟨htagged, hfirst⟩]
  · have hparse := parse_eq_ok_of_forall htags
    refine ⟨sentences tagged (fieldLines text.toList), by rw [load_toUTF8, hparse], ?_,
      fun s hs => ?_⟩
    · rw [sentences, List.forall₂_map_left_iff, List.forall₂_same]
      intro stretch hstretch
      obtain ⟨-, hfields⟩ := mem_runs hstretch
      refine isReadFrom_ofPairs fun row hrow => ⟨by simpa using hfields row hrow, fun htagged => ?_⟩
      exact htags htagged row (mem_of_mem_runs hstretch hrow)
    · obtain ⟨hne, hwords⟩ := isToken_of_parse hparse hs
      refine ⟨hne, hwords, ?_⟩
      rintro rfl
      exact tags_of_parse_true hparse hs

end TrellisTagger.Corpus

import Mathlib.Data.List.Basic
import Mathlib.Data.List.Induction
import Mathlib.Data.List.Pairwise
import Mathlib.Tactic.Lemma
import TrellisTagger.Evaluation.Alignment
import TrellisTagger.Proofs.Corpus.RoundTrip

/-!
# Tags above their words

The three lines of an alignment grow together: each word begins where all of them have ended, and so
do its tags, if they are shown. This file says where everything stands in the end. What was written
once is never moved or written over, because lines only grow, and what comes later begins further to
the right.

## Main definitions

* `TrellisTagger.Alignment.Shows` — a line has texts at given columns, and spaces around them.
* `TrellisTagger.Alignment.Cell` — a word with its two tags and the column at which they are
  written.
* `TrellisTagger.Alignment.IsLaidOut` — the three lines hold some cells, one to the right of the
  other.

## Main results

* `TrellisTagger.Alignment.IsLaidOut.push` — one more word is written to the right of all that is
  there.
* `TrellisTagger.Alignment.exists_isLaidOut` — the lines of any words hold all of them.
* `TrellisTagger.Alignment.text_linesUp` — the lines as one text.

## Design

What a line shows is said character by character, and holds of the line while it grows
(`Shows.append`, `Shows.appendSpaces`). Only `IsLaidOut.push` looks at all three lines together.
-/

namespace TrellisTagger.Alignment

/-! ### A line -/

/-- A line begins with a heading, has some texts at their columns, and nothing but spaces
elsewhere. -/
structure Shows (heading : List Char) (texts : List (Nat × List Char)) (line : List Char) :
    Prop where
  /-- The line begins with the heading. -/
  begins : heading <+: line
  /-- Each text stands at its column. -/
  stands : ∀ x ∈ texts, x.2 <+: line.drop x.1
  /-- A character after the heading that is part of no text is a space. -/
  spaces : ∀ p c, getElem? line p = some c → heading.length ≤ p →
    (∀ x ∈ texts, p < x.1 ∨ x.1 + x.2.length ≤ p) → c = ' '

/-- A text of some characters: there is one at least, and no blank among them. -/
def IsSolid (text : List Char) : Prop := text ≠ [] ∧ ∀ c ∈ text, isBlank c = false

/-- A token is a text of some characters, with no blank among them. -/
lemma isSolid_toList {text : String} (h : IsToken text) : IsSolid text.toList :=
  ⟨h.toList_ne_nil, h.not_isBlank⟩

/-- What stands in a line stands there when the line has grown. -/
lemma prefix_drop_append {text line : List Char} {n : Nat} (h : text <+: line.drop n)
    (rest : List Char) :
    text <+: (line ++ rest).drop n := by
  rw [List.drop_append]
  exact h.trans (List.prefix_append _ _)

/-- The first character of what stands at a column is the one there. -/
lemma getElem?_of_prefix_drop {text line : List Char} {n p : Nat} {c : Char}
    (h : text <+: line.drop n) (hn : n ≤ p) (hp : p < n + text.length)
    (hc : getElem? line p = some c) : c ∈ text := by
  obtain ⟨rest, hrest⟩ := h
  have hfound : (text ++ rest)[p - n]? = some c := by
    rw [hrest, List.getElem?_drop, Nat.add_sub_cancel' hn, hc]
  rw [List.getElem?_append_left (by omega)] at hfound
  exact List.mem_of_getElem? hfound

namespace Shows

variable {heading line : List Char} {texts : List (Nat × List Char)}

/-- A heading alone shows nothing else. -/
lemma ofHeading (heading : List Char) (n : Nat) :
    Shows heading [] (heading ++ List.replicate n ' ') := by
  refine ⟨List.prefix_append _ _, by simp, fun p c hc hp _ => ?_⟩
  rw [List.getElem?_append_right hp] at hc
  exact List.eq_of_mem_replicate (List.mem_of_getElem? hc)

/-- Spaces at the end of a line change nothing. -/
lemma appendSpaces (h : Shows heading texts line) (n : Nat) :
    Shows heading texts (line ++ List.replicate n ' ') := by
  refine ⟨h.begins.trans (List.prefix_append _ _), fun x hx => prefix_drop_append (h.stands x hx) _,
    fun p c hc hp hfree => ?_⟩
  by_cases hlt : p < line.length
  · rw [List.getElem?_append_left hlt] at hc
    exact h.spaces p c hc hp hfree
  · rw [List.getElem?_append_right (by omega)] at hc
    exact List.eq_of_mem_replicate (List.mem_of_getElem? hc)

/-- A text at the end of a line stands at the column where the line ended. -/
lemma append (h : Shows heading texts line) (text : List Char) :
    Shows heading (texts ++ [(line.length, text)]) (line ++ text) := by
  refine ⟨h.begins.trans (List.prefix_append _ _), fun x hx => ?_, fun p c hc hp hfree => ?_⟩
  · rcases List.mem_append.1 hx with hx | hx
    · exact prefix_drop_append (h.stands x hx) text
    · obtain rfl := List.mem_singleton.1 hx
      simp
  · rw [List.forall_mem_append] at hfree
    by_cases hlt : p < line.length
    · rw [List.getElem?_append_left hlt] at hc
      exact h.spaces p c hc hp hfree.1
    · -- the text itself has this character
      have hend : p < (line ++ text).length := (List.getElem?_eq_some_iff.1 hc).1
      have hout := hfree.2 _ (List.mem_singleton.2 rfl)
      rw [List.length_append] at hend
      simp only at hout
      omega

/-- A line without blanks in its texts has no blanks but spaces. -/
lemma eq_space_of_isBlank (h : Shows heading texts line)
    (hheading : heading.all fun c => !isBlank c || c == ' ')
    (htexts : ∀ x ∈ texts, ∀ c ∈ x.2, isBlank c = false) {c : Char} (hc : c ∈ line)
    (hblank : isBlank c = true) : c = ' ' := by
  obtain ⟨p, hp⟩ := List.mem_iff_getElem?.1 hc
  by_cases hlt : p < heading.length
  · have hmem := getElem?_of_prefix_drop (n := 0) h.begins (Nat.zero_le p) (by omega) hp
    simpa [hblank] using List.all_eq_true.1 hheading c hmem
  · refine h.spaces p c hp (by omega) fun x hx => ?_
    by_contra hcovered
    have hmem := getElem?_of_prefix_drop (h.stands x hx) (by omega) (by omega) hp
    rw [htexts x hx c hmem] at hblank
    cases hblank

/-- Nothing but spaces stands at a column that is part of no text. -/
lemma not_stands (h : Shows heading texts line) {n : Nat} (hn : heading.length ≤ n)
    (hfree : ∀ x ∈ texts, n < x.1 ∨ x.1 + x.2.length ≤ n) {text : List Char}
    (hsolid : IsSolid text) :
    ¬ text <+: line.drop n := by
  rintro ⟨rest, hrest⟩
  obtain ⟨c, text, rfl⟩ := List.exists_cons_of_ne_nil hsolid.1
  have hc : getElem? line n = some c := by
    rw [← Nat.add_zero n, ← List.getElem?_drop, ← hrest]
    rfl
  obtain rfl := h.spaces n c hc hn hfree
  exact absurd (hsolid.2 ' ' List.mem_cons_self) (by decide)

end Shows

/-! ### Cells -/

/-- A word with its correct tag and the tag found for it, and the column at which they are
written. -/
structure Cell where
  /-- The column. -/
  column : Nat
  /-- The word. -/
  word : List Char
  /-- The correct tag. -/
  correct : List Char
  /-- The tag found. -/
  found : List Char

namespace Cell

/-- The word and the tags without their column. -/
def item (c : Cell) : List Char × List Char × List Char := (c.word, c.correct, c.found)

/-- The tags of a cell are shown if they differ, or else if equal tags are not left out. -/
def IsShown (suppress : Bool) (c : Cell) : Prop := c.correct ≠ c.found ∨ suppress = false

/-- It can be decided whether the tags of a cell are shown. -/
instance instDecidablePredIsShown (suppress : Bool) : DecidablePred (IsShown suppress) :=
  fun c => inferInstanceAs (Decidable (c.correct ≠ c.found ∨ suppress = false))

/-- What is written of a cell ends by a column: the word before it, and the tags, if they are shown,
no later than there. -/
structure EndsBy (suppress : Bool) (c : Cell) (n : Nat) : Prop where
  /-- The word ends at least one column earlier. -/
  word : c.column + c.word.length < n
  /-- The correct tag ends no later. -/
  correct : c.IsShown suppress → c.column + c.correct.length ≤ n
  /-- The tag found ends no later. -/
  found : c.IsShown suppress → c.column + c.found.length ≤ n

/-- What ends by a column ends by every later one. -/
lemma EndsBy.mono {suppress : Bool} {c : Cell} {n n' : Nat} (h : c.EndsBy suppress n)
    (hle : n ≤ n') :
    c.EndsBy suppress n' := by
  refine ⟨?_, fun hshown => ?_, fun hshown => ?_⟩
  · have := h.word
    omega
  · have := h.correct hshown
    omega
  · have := h.found hshown
    omega

end Cell

/-- The texts of some cells with their columns. -/
def placed (text : Cell → List Char) (cells : List Cell) : List (Nat × List Char) :=
  cells.map fun c => (c.column, text c)

/-- The tags that are shown of some cells, with their columns. -/
def placedTags (suppress : Bool) (tag : Cell → List Char) (cells : List Cell) :
    List (Nat × List Char) :=
  placed tag (cells.filter fun c => c.IsShown suppress)

/-- The lines of an alignment hold some cells: each begins where those before it have ended, the
first one where the headings end. After the last word there is one space. -/
structure IsLaidOut (suppress : Bool) (cells : List Cell) (a : Alignment) : Prop where
  /-- The first line shows the correct tags. -/
  correct : Shows "Gold Tags:".toList (placedTags suppress Cell.correct cells) a.correct
  /-- The second line shows the tags found. -/
  found : Shows "Guessed Tags:".toList (placedTags suppress Cell.found cells) a.found
  /-- The third line shows the words, and has a space at its end. -/
  words : ∃ line, a.words = line ++ [' '] ∧ Shows "Words:".toList (placed Cell.word cells) line ∧
    ∀ c ∈ line.getLast?, isBlank c = false
  /-- Each cell ends where a later one begins. -/
  apart : cells.Pairwise fun c d => c.EndsBy suppress d.column
  /-- All cells end by the end of the longest line. -/
  ends : ∀ c ∈ cells, c.EndsBy suppress a.width
  /-- The first cell begins where the headings end. -/
  first : (cells.head?.map Cell.column).getD a.width = headings.width

variable {suppress : Bool} {cells : List Cell} {a : Alignment}

/-! ### One more word -/

/-- A line that is filled up to a width has this width. -/
lemma length_filled {n : Nat} {line : List Char} (h : line.length ≤ n) :
    (filled n line).length = n := by
  rw [filled, List.length_append, List.length_replicate]
  omega

/-- No line is longer than the width of the alignment. -/
lemma length_le_width (a : Alignment) :
    a.correct.length ≤ a.width ∧ a.found.length ≤ a.width ∧ a.words.length ≤ a.width := by
  unfold width
  omega

/-- A word is written with its tags above it, if they are shown. -/
lemma push_eq (a : Alignment) (suppress : Bool) (c : Cell) :
    a.push suppress c.word c.correct c.found =
      { correct := filled a.width a.correct ++ if c.IsShown suppress then c.correct else []
        found := filled a.width a.found ++ if c.IsShown suppress then c.found else []
        words := filled a.width a.words ++ c.word ++ [' '] } := by
  have hshown : (!(suppress && c.correct == c.found)) = decide (c.IsShown suppress) := by
    rw [Bool.eq_iff_iff]
    cases suppress <;> simp [Cell.IsShown]
  unfold push
  simp only [hshown, decide_eq_true_eq]

/-- A line of tags shows one tag more, or none more. -/
lemma Shows.pushTag {heading line : List Char} {tag : Cell → List Char} {c : Cell}
    (h : Shows heading (placedTags suppress tag cells) line) (hlength : line.length ≤ c.column) :
    Shows heading (placedTags suppress tag (cells ++ [c]))
      (filled c.column line ++ if c.IsShown suppress then tag c else []) := by
  have hfilled := h.appendSpaces (c.column - line.length)
  rw [← filled] at hfilled
  rw [placedTags, placed, List.filter_append, List.map_append, ← placed, ← placedTags]
  by_cases hshown : c.IsShown suppress
  · have happend := hfilled.append (tag c)
    rw [length_filled hlength] at happend
    simpa [hshown] using happend
  · simpa [hshown] using hfilled

/-- The line of the words shows one word more, and a space after it. -/
lemma IsLaidOut.pushWord (h : IsLaidOut suppress cells a) {c : Cell} (hcolumn : c.column = a.width)
    (hsolid : IsSolid c.word) :
    ∃ line, (a.push suppress c.word c.correct c.found).words = line ++ [' '] ∧
      Shows "Words:".toList (placed Cell.word (cells ++ [c])) line ∧
      ∀ ch ∈ line.getLast?, isBlank ch = false := by
  obtain ⟨-, -, hwords⟩ := length_le_width a
  obtain ⟨line, hline, hshows, -⟩ := h.words
  -- the space after the last word becomes one of those before the new one
  have hspaces : filled a.width a.words = line ++ List.replicate (a.width - line.length) ' ' := by
    rw [hline, List.length_append, List.length_singleton] at hwords
    have hone : a.width - line.length = a.width - (line.length + 1) + 1 := by omega
    rw [filled, hline, hone, List.replicate_succ, List.length_append, List.length_singleton,
      List.append_assoc, List.singleton_append]
  refine ⟨filled a.width a.words ++ c.word, by rw [push_eq], ?_, ?_⟩
  · have happend := (hshows.appendSpaces (a.width - line.length)).append c.word
    rw [← hspaces, length_filled hwords] at happend
    rw [placed, List.map_append, ← placed, List.map_singleton, hcolumn]
    exact happend
  · intro ch hch
    rw [List.getLast?_append_of_ne_nil _ hsolid.1] at hch
    exact hsolid.2 ch (List.mem_of_mem_getLast? hch)

/-- What is written of a new cell ends by the end of the longest line. -/
lemma endsBy_width_push (a : Alignment) {c : Cell} (hcolumn : c.column = a.width) :
    c.EndsBy suppress (a.push suppress c.word c.correct c.found).width := by
  obtain ⟨hcorrect, hfound, hwords⟩ := length_le_width a
  have hgrown := length_le_width (a.push suppress c.word c.correct c.found)
  generalize (a.push suppress c.word c.correct c.found).width = n at hgrown ⊢
  simp only [push_eq, List.length_append, length_filled hcorrect, length_filled hfound,
    length_filled hwords, List.length_singleton] at hgrown
  obtain ⟨hcorrect', hfound', hwords'⟩ := hgrown
  refine ⟨by omega, fun hshown => ?_, fun hshown => ?_⟩
  · rw [if_pos hshown] at hcorrect'
    omega
  · rw [if_pos hshown] at hfound'
    omega

/-- **One more word is written to the right of all that is there**, and its tags above it. -/
theorem IsLaidOut.push (h : IsLaidOut suppress cells a) {c : Cell} (hcolumn : c.column = a.width)
    (hsolid : IsSolid c.word) :
    IsLaidOut suppress (cells ++ [c]) (a.push suppress c.word c.correct c.found) := by
  obtain ⟨hcorrect, hfound, -⟩ := length_le_width a
  have hends : c.EndsBy suppress (a.push suppress c.word c.correct c.found).width :=
    endsBy_width_push a hcolumn
  have hwidth : a.width < (a.push suppress c.word c.correct c.found).width := by
    have := hends.word
    omega
  refine ⟨?_, ?_, ?_, ?_, ?_, ?_⟩
  · rw [push_eq, ← hcolumn]
    exact h.correct.pushTag (hcolumn ▸ hcorrect)
  · rw [push_eq, ← hcolumn]
    exact h.found.pushTag (hcolumn ▸ hfound)
  · exact h.pushWord hcolumn hsolid
  · refine List.pairwise_append.2 ⟨h.apart, List.pairwise_singleton _ _, fun d hd e he => ?_⟩
    obtain rfl := List.mem_singleton.1 he
    rw [hcolumn]
    exact h.ends d hd
  · intro d hd
    rcases List.mem_append.1 hd with hd | hd
    · exact (h.ends d hd).mono (Nat.le_of_lt hwidth)
    · obtain rfl := List.mem_singleton.1 hd
      exact hends
  · have hfirst := h.first
    cases cells with
    | nil =>
      rw [List.nil_append]
      exact hcolumn.trans hfirst
    | cons d cells => exact hfirst

/-! ### All words -/

/-- The headings alone are laid out, with no cells. -/
lemma isLaidOut_headings (suppress : Bool) : IsLaidOut suppress [] headings where
  correct := Shows.ofHeading _ 1
  found := Shows.ofHeading _ 1
  words := by
    refine ⟨_, rfl, Shows.ofHeading _ 0, fun c hc => ?_⟩
    obtain rfl : ':' = c := Option.some.inj hc
    decide
  apart := .nil
  ends := by simp
  first := rfl

/-- **The lines of any words hold all of them**, in order. -/
theorem exists_isLaidOut (suppress : Bool) {items : List (List Char × List Char × List Char)}
    (hitems : ∀ x ∈ items, IsSolid x.1) :
    ∃ cells, cells.map Cell.item = items ∧ IsLaidOut suppress cells (ofItems suppress items) := by
  induction items using List.reverseRecOn with
  | nil => exact ⟨[], rfl, isLaidOut_headings suppress⟩
  | append_singleton items x ih =>
    rw [List.forall_mem_append] at hitems
    obtain ⟨cells, hcells, hlaid⟩ := ih hitems.1
    refine ⟨cells ++ [⟨(ofItems suppress items).width, x.1, x.2.1, x.2.2⟩], ?_, ?_⟩
    · rw [List.map_append, hcells]
      rfl
    · have hstep : ofItems suppress (items ++ [x]) =
          (ofItems suppress items).push suppress x.1 x.2.1 x.2.2 := List.foldl_concat _ _ _ _
      rw [hstep]
      exact hlaid.push rfl (hitems.2 x (List.mem_singleton.2 rfl))

/-! ### What can be read off the lines -/

namespace IsLaidOut

variable (h : IsLaidOut suppress cells a)
include h

/-- The first cell begins where the longest heading ends. -/
lemma column_head? {c : Cell} (hc : c ∈ cells.head?) : c.column = 14 := by
  have hfirst := h.first
  rw [Option.mem_def.1 hc] at hfirst
  exact hfirst

/-- No cell begins before the end of the longest heading. -/
lemma le_column {c : Cell} (hc : c ∈ cells) : 14 ≤ c.column := by
  have hfirst := fun d => h.column_head? (c := d)
  have hapart := h.apart
  cases cells with
  | nil => cases hc
  | cons d cells =>
    have hd : d.column = 14 := hfirst d rfl
    rcases List.mem_cons.1 hc with rfl | hc
    · omega
    · have := ((List.pairwise_cons.1 hapart).1 c hc).word
      omega

/-- Of two different cells, one ends where the other begins. -/
lemma endsBy_or_endsBy {c d : Cell} (hc : c ∈ cells) (hd : d ∈ cells) (hne : c ≠ d) :
    c.EndsBy suppress d.column ∨ d.EndsBy suppress c.column := by
  have hsymmetric : Std.Symm fun c d : Cell =>
      c.EndsBy suppress d.column ∨ d.EndsBy suppress c.column := ⟨fun _ _ => Or.symm⟩
  have hapart : cells.Pairwise fun c d =>
      c.EndsBy suppress d.column ∨ d.EndsBy suppress c.column := h.apart.imp Or.inl
  exact hapart.forall hc hd hne

/-- **A tag stands at its column just if it is shown.** Where it is not, no tag of another cell
reaches. -/
lemma stands_iff {heading line : List Char} {tag : Cell → List Char}
    (hshows : Shows heading (placedTags suppress tag cells) line) (hheading : heading.length ≤ 14)
    (htag : ∀ c n, c.EndsBy suppress n → c.IsShown suppress → c.column + (tag c).length ≤ n)
    {c : Cell} (hc : c ∈ cells) (hsolid : IsSolid (tag c)) :
    tag c <+: line.drop c.column ↔ c.IsShown suppress := by
  constructor
  · intro hstands
    by_contra hhidden
    have hcolumn := h.le_column hc
    refine hshows.not_stands (by omega) (fun x hx => ?_) hsolid hstands
    obtain ⟨d, hd, rfl⟩ := List.mem_map.1 hx
    obtain ⟨hd, hshown⟩ := List.mem_filter.1 hd
    have hshown : d.IsShown suppress := of_decide_eq_true hshown
    have hdifferent : c ≠ d := by
      rintro rfl
      exact hhidden hshown
    rcases h.endsBy_or_endsBy hc hd hdifferent with hends | hends
    · have := hends.word
      exact .inl (by omega)
    · exact .inr (htag d _ hends hshown)
  · intro hshown
    refine hshows.stands (c.column, tag c) (List.mem_map.2 ⟨c, List.mem_filter.2 ⟨hc, ?_⟩, rfl⟩)
    exact decide_eq_true hshown

end IsLaidOut

/-- A space at the end of a line that ends in no blank is all that is taken off. -/
lemma stripRight_append_space {line : List Char} (h : ∀ c ∈ line.getLast?, isBlank c = false) :
    stripRight (line ++ [' ']) = line := by
  rw [stripRight, List.reverse_append, List.reverse_singleton, List.singleton_append,
    List.dropWhile_cons_of_pos (by decide)]
  rw [← List.head?_reverse] at h
  cases hreverse : line.reverse with
  | nil => rw [List.dropWhile_nil, List.reverse_nil, ← List.reverse_eq_nil_iff.1 hreverse]
  | cons c rest =>
    rw [hreverse] at h
    rw [List.dropWhile_cons_of_neg (by simpa using h c rfl), ← hreverse, List.reverse_reverse]

/-- Tokens are written character by character. -/
lemma isSolid_of_mem_items {words correct found : List String} (hwords : ∀ w ∈ words, IsToken w)
    (hcorrect : ∀ t ∈ correct, IsToken t) (hfound : ∀ t ∈ found, IsToken t)
    {x : List Char × List Char × List Char}
    (hx : x ∈ (words.zip (correct.zip found)).map fun x =>
      (x.1.toList, x.2.1.toList, x.2.2.toList)) :
    IsSolid x.1 ∧ IsSolid x.2.1 ∧ IsSolid x.2.2 := by
  obtain ⟨⟨w, t, t'⟩, hmem, rfl⟩ := List.mem_map.1 hx
  obtain ⟨hw, htags⟩ := List.of_mem_zip hmem
  obtain ⟨ht, ht'⟩ := List.of_mem_zip htags
  exact ⟨isSolid_toList (hwords w hw), isSolid_toList (hcorrect t ht),
    isSolid_toList (hfound t' ht')⟩

/-- What no text of some cells has, none of the placed ones has. -/
lemma not_isBlank_of_mem_placed {text : Cell → List Char} (h : ∀ c ∈ cells, IsSolid (text c)) :
    ∀ x ∈ placed text cells, ∀ ch ∈ x.2, isBlank ch = false := by
  intro x hx
  obtain ⟨c, hc, rfl⟩ := List.mem_map.1 hx
  exact (h c hc).2

/-- **Tags stand above their words.** Take words, correct tags and tags found, all of them not empty
and without blanks, and show equal tags or leave them out. Their alignment is made up of three
lines:

* no line has any blanks but spaces, and the line of the words ends in none;
* there is a cell for each word that has both tags, with a column, the first of which is number 14,
  and the columns increase; a word ends at least one column before the next, and tags that are shown
  no later;
* each word stands at its column, and a tag does just if it is shown, which it is if the two tags
  differ or if equal tags are not left out;
* but for their headings and these words and tags the lines have only spaces.

**Proof sketch.** A word is written where the longest line ends, so it does not meet what is there,
and what is there stays (`IsLaidOut.push`). A tag that is left out does not stand at its column,
because a space stands there, or nothing. -/
theorem text_linesUp (suppress : Bool) {words correct found : List String}
    (hwords : ∀ w ∈ words, IsToken w) (hcorrect : ∀ t ∈ correct, IsToken t)
    (hfound : ∀ t ∈ found, IsToken t) :
    ∃ correctLine foundLine wordLine : List Char,
      (text suppress words correct found).toList =
        correctLine ++ '\n' :: (foundLine ++ '\n' :: wordLine) ∧
      (∀ line ∈ [correctLine, foundLine, wordLine], ∀ c ∈ line, isBlank c = true → c = ' ') ∧
      wordLine.getLast? ≠ some ' ' ∧
      ∃ cells : List Cell,
        cells.map Cell.item = (words.zip (correct.zip found)).map (fun x =>
          (x.1.toList, x.2.1.toList, x.2.2.toList)) ∧
        (∀ c ∈ cells.head?, c.column = 14) ∧
        cells.Pairwise (fun c d => c.column < d.column ∧ c.EndsBy suppress d.column) ∧
        (∀ c ∈ cells, (c.correct <+: correctLine.drop c.column ↔ c.IsShown suppress) ∧
          (c.found <+: foundLine.drop c.column ↔ c.IsShown suppress)) ∧
        Shows "Gold Tags:".toList (placedTags suppress Cell.correct cells) correctLine ∧
        Shows "Guessed Tags:".toList (placedTags suppress Cell.found cells) foundLine ∧
        Shows "Words:".toList (placed Cell.word cells) wordLine := by
  have hitems := fun x => isSolid_of_mem_items (x := x) hwords hcorrect hfound
  obtain ⟨cells, hcells, hlaid⟩ := exists_isLaidOut suppress fun x hx => (hitems x hx).1
  obtain ⟨wordLine, hline, hshows, hlast⟩ := hlaid.words
  have hsolid : ∀ c ∈ cells, IsSolid c.word ∧ IsSolid c.correct ∧ IsSolid c.found := by
    intro c hc
    exact hitems c.item (hcells ▸ List.mem_map_of_mem hc)
  have htags : ∀ tag : Cell → List Char, (∀ c ∈ cells, IsSolid (tag c)) →
      ∀ x ∈ placedTags suppress tag cells, ∀ ch ∈ x.2, isBlank ch = false :=
    fun tag htag => not_isBlank_of_mem_placed fun c hc => htag c (List.mem_filter.1 hc).1
  refine ⟨_, _, wordLine, ?_, ?_, ?_, cells, hcells, fun c hc => hlaid.column_head? hc, ?_,
    fun c hc => ?_, hlaid.correct, hlaid.found, hshows⟩
  · rw [text, String.toList_ofList, render, hline, stripRight_append_space hlast]
  · simp only [List.forall_mem_cons]
    refine ⟨?_, ?_, ?_, by simp⟩
    · intro c hc
      exact hlaid.correct.eq_space_of_isBlank (by decide) (htags _ fun c hc => (hsolid c hc).2.1) hc
    · intro c hc
      exact hlaid.found.eq_space_of_isBlank (by decide) (htags _ fun c hc => (hsolid c hc).2.2) hc
    · intro c hc
      exact hshows.eq_space_of_isBlank (by decide)
        (not_isBlank_of_mem_placed fun c hc => (hsolid c hc).1) hc
  · intro hspace
    exact absurd (hlast ' ' hspace) (by decide)
  · refine hlaid.apart.imp fun hends => ⟨?_, hends⟩
    have := hends.word
    omega
  · obtain ⟨-, hcorrect, hfound⟩ := hsolid c hc
    exact ⟨hlaid.stands_iff hlaid.correct (by decide) (fun c n hends => hends.correct) hc hcorrect,
      hlaid.stands_iff hlaid.found (by decide) (fun c n hends => hends.found) hc hfound⟩

/-- In the alignment of three words, of which the second has the wrong tag, both tags of this word
stand above it, and nothing stands above the first one. -/
theorem text_linesUp_dog :
    ∃ correctLine foundLine wordLine : List Char,
      (text true ["the", "dog", "runs"] ["DT", "NN", "VB"] ["DT", "VB", "VB"]).toList =
        correctLine ++ '\n' :: (foundLine ++ '\n' :: wordLine) ∧
      ¬ "DT".toList <+: correctLine.drop 14 ∧
      ∃ column > 14, "NN".toList <+: correctLine.drop column ∧
        "VB".toList <+: foundLine.drop column ∧
        "dog".toList <+: wordLine.drop column := by
  have htokens : ∀ l : List String, (l.all fun t => t ≠ "" && t.toList.all fun c => !isBlank c) →
      ∀ t ∈ l, IsToken t := by
    intro l hall t ht
    have htoken := List.all_eq_true.1 hall t ht
    simp only [Bool.and_eq_true, decide_eq_true_eq, List.all_eq_true, Bool.not_eq_true'] at htoken
    exact ⟨htoken.1, htoken.2⟩
  obtain ⟨correctLine, foundLine, wordLine, htext, -, -, cells, hcells, hfirst, hapart, hstands,
    -, -,
      hshows⟩ :=
    text_linesUp true (htokens ["the", "dog", "runs"] (by decide))
      (htokens ["DT", "NN", "VB"] (by decide))
      (htokens ["DT", "VB", "VB"] (by decide))
  obtain ⟨the, cells, rfl, hthe, hcells⟩ := List.map_eq_cons_iff.1 hcells
  obtain ⟨dog, cells, rfl, hdog, -⟩ := List.map_eq_cons_iff.1 hcells
  simp only [Cell.item, Prod.mk.injEq] at hthe hdog
  have hcolumn : the.column = 14 := hfirst the rfl
  have hafter := ((List.pairwise_cons.1 hapart).1 dog List.mem_cons_self).1
  have hhidden := (hstands the List.mem_cons_self).1
  have hshown := hstands dog (List.mem_cons_of_mem _ List.mem_cons_self)
  have hword := hshows.stands (dog.column, dog.word) (List.mem_map.2 ⟨dog, by simp, rfl⟩)
  rw [Cell.IsShown, hthe.2.1, hthe.2.2, hcolumn] at hhidden
  rw [Cell.IsShown, hdog.2.1, hdog.2.2] at hshown
  rw [hdog.1] at hword
  exact ⟨correctLine, foundLine, wordLine, htext, fun h => absurd (hhidden.1 h) (by decide),
    dog.column, by omega, hshown.1.2 (by decide), hshown.2.2 (by decide), hword⟩

end TrellisTagger.Alignment

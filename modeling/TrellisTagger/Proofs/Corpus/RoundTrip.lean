import Mathlib.Algebra.GroupWithZero.Nat
import TrellisTagger.Corpus
import TrellisTagger.Proofs.Text.Fields

/-!
# Corpora that are written are read back

A corpus is written with a line for each word and a blank line after each sentence. If the words are
not empty and hold no blank, and the same goes for the tags, each line has a word and its tag for
its fields, and the sentences end where they did. Where the tag is empty the line has the word
alone. This file also says that what was read from a corpus is fit to be written.

## Main definitions

* `TrellisTagger.IsToken` — a text that can be a field of a line.
* `TrellisTagger.Corpus.IsWritable` — tagged words that can be read back, with or without the tags.
* `TrellisTagger.Corpus.row` — the fields of the line of a word and its tag.

## Main results

* `TrellisTagger.Corpus.isToken_of_parse`, `TrellisTagger.Corpus.tags_of_parse_true`,
  `TrellisTagger.Corpus.tags_of_parse_false` — what sentences that were read consist of.
* `TrellisTagger.Corpus.parse_false_render`, `TrellisTagger.Corpus.parse_true_render`,
  `TrellisTagger.Corpus.parse_true_render_untagged` — reading what was written.

## Design

Reading and writing meet in the rows of fields. What is said about characters is said about one
line; the sentences are cut out of the rows in the same way as the fields are cut out of a line.
-/

namespace TrellisTagger

/-- A text that can be a field of a line: it is not empty and holds no blank. -/
structure IsToken (text : String) : Prop where
  /-- It is not empty. -/
  ne_empty : text ≠ ""
  /-- It holds no blank. -/
  not_isBlank : ∀ c ∈ text.toList, isBlank c = false

namespace IsToken

variable {text : String}

/-- A token has characters. -/
lemma toList_ne_nil (h : IsToken text) : text.toList ≠ [] := by
  rw [Ne, String.toList_eq_nil_iff]
  exact h.ne_empty

/-- The fields of a line are tokens. -/
lemma of_mem_fields {line field : List Char} (h : field ∈ fields line) :
    IsToken (String.ofList field) := by
  obtain ⟨hne, hblank⟩ := mem_runs h
  refine ⟨fun hempty => hne ?_, ?_⟩
  · rw [← String.toList_ofList (l := field), hempty, String.toList_empty]
  · rwa [String.toList_ofList]

end IsToken

/-- The stop symbol is a token. -/
lemma isToken_stop : IsToken Boundary.stop where
  ne_empty := by decide
  not_isBlank c hc := by
    have hall : Boundary.stop.toList.all (fun c => !isBlank c) = true := by decide
    simpa using List.all_eq_true.1 hall c hc

namespace Corpus

/-! ### Sentences that were read -/

section Reading

variable {tagged : Bool} {text : List Char} {sentences : List Sentence} {s : Sentence}

/-- The fields of all lines of a text are tokens. -/
lemma isToken_of_mem_fieldLines {fields : List (List Char)} (h : fields ∈ fieldLines text) :
    ∀ field ∈ fields, IsToken (String.ofList field) := by
  obtain ⟨line, -, rfl⟩ := List.mem_map.1 h
  exact fun field hfield => .of_mem_fields hfield

/-- A text that is read has the sentences of its fields, and in a tagged text no line has a word
alone. -/
lemma parse_eq_ok (h : parse tagged text = .ok sentences) :
    sentences = Corpus.sentences tagged (fieldLines text) ∧
      (tagged = true → ∀ fields ∈ fieldLines text, fields.length ≠ 1) := by
  unfold parse at h
  dsimp only at h
  split at h
  · cases h
  · rename_i huntagged
    refine ⟨(Except.ok.inj h).symm, ?_⟩
    rintro rfl fields hfields
    rw [if_pos rfl, untaggedLine?, Option.map_eq_none_iff, List.findIdx?_eq_none_iff] at huntagged
    simpa using huntagged fields hfields

/-- A sentence that was read is made of some lines of the text that have fields. -/
lemma exists_lines_of_parse (h : parse tagged text = .ok sentences) (hs : s ∈ sentences) :
    ∃ run, run ≠ [] ∧ (∀ fields ∈ run, fields ≠ [] ∧ fields ∈ fieldLines text) ∧
      s = .ofPairs (run.map (entry tagged)) := by
  rw [(parse_eq_ok h).1] at hs
  obtain ⟨run, hrun, rfl⟩ := List.mem_map.1 hs
  obtain ⟨hne, hfields⟩ := mem_runs hrun
  refine ⟨run, hne, fun fields hmem => ⟨?_, mem_of_mem_runs hrun hmem⟩, rfl⟩
  simpa using hfields fields hmem

/-- **Sentences that were read have words, and their words are tokens.** -/
theorem isToken_of_parse (h : parse tagged text = .ok sentences) (hs : s ∈ sentences) :
    s.words ≠ [] ∧ ∀ word ∈ s.words, IsToken word := by
  obtain ⟨run, hne, hrun, rfl⟩ := exists_lines_of_parse h hs
  refine ⟨by simpa [Sentence.ofPairs] using hne, fun word hword => ?_⟩
  simp only [Sentence.ofPairs, List.map_map, List.mem_map, Function.comp_apply] at hword
  obtain ⟨fields, hfields, rfl⟩ := hword
  obtain ⟨hcons, hline⟩ := hrun fields hfields
  obtain ⟨field, rest, rfl⟩ := List.exists_cons_of_ne_nil hcons
  exact isToken_of_mem_fieldLines hline field List.mem_cons_self

/-- **The tags of a tagged text are tokens.** -/
theorem tags_of_parse_true (h : parse true text = .ok sentences) (hs : s ∈ sentences) :
    ∀ tag ∈ s.tags, IsToken tag := by
  obtain ⟨run, -, hrun, rfl⟩ := exists_lines_of_parse h hs
  intro tag htag
  simp only [Sentence.ofPairs, List.map_map, List.mem_map, Function.comp_apply] at htag
  obtain ⟨fields, hfields, rfl⟩ := htag
  obtain ⟨hcons, hline⟩ := hrun fields hfields
  have htwo := (parse_eq_ok h).2 rfl fields hline
  match fields, hcons, htwo with
  | field :: tag :: rest, _, _ =>
    exact isToken_of_mem_fieldLines hline tag (List.mem_cons_of_mem _ List.mem_cons_self)

/-- **The tags of blind text are empty.** -/
theorem tags_of_parse_false (h : parse false text = .ok sentences) (hs : s ∈ sentences) :
    s.tags = s.words.map fun _ => "" := by
  obtain ⟨run, -, -, rfl⟩ := exists_lines_of_parse h hs
  simp [Sentence.ofPairs, entry]

end Reading

/-! ### Sentences that are written -/

section Writing

variable {l : List (Word × Tag)} {ls : List (List (Word × Tag))}

/-- Tagged words that can be read back: there are some, the words are tokens, and so are the tags
unless they are empty. -/
structure IsWritable (l : List (Word × Tag)) : Prop where
  /-- There are words. -/
  ne_nil : l ≠ []
  /-- Each word is a token. -/
  isToken_word : ∀ x ∈ l, IsToken x.1
  /-- Each tag is empty or a token. -/
  isToken_tag : ∀ x ∈ l, x.2 ≠ "" → IsToken x.2

/-- The line of a word and its tag, without its end. -/
def line (x : Word × Tag) : List Char := x.1.toList ++ '\t' :: x.2.toList

/-- The fields of the line of a word and its tag. -/
def row (x : Word × Tag) : List (List Char) := x.1.toList :: if x.2 = "" then [] else [x.2.toList]

/-- The text that is written consists of the lines of each sentence and one empty line after
these. -/
lemma toList_render (ls : List (List (Word × Tag))) :
    (render ls).toList = (ls.flatMap fun l => l.map line ++ [[]]).flatMap (· ++ ['\n']) := by
  have hsentence : ∀ l, (renderSentence l).toList = (l.map line ++ [[]]).flatMap (· ++ ['\n']) := by
    intro l
    simp [renderSentence, line, String.toList_join, List.flatMap_map]
  simp only [render, String.toList_join, List.flatMap_map, List.flatMap_assoc, hsentence]

/-- The fields of a line that is written are the word and its tag, unless that is empty. -/
lemma IsWritable.fields_line (h : IsWritable l) {x : Word × Tag} (hx : x ∈ l) :
    fields (line x) = row x := by
  have hword := h.isToken_word x hx
  have htag : ∀ c ∈ x.2.toList, isBlank c = false := by
    by_cases hempty : x.2 = ""
    · simp [hempty]
    · exact (h.isToken_tag x hx hempty).not_isBlank
  rw [line, fields_append_cons (by decide) hword.not_isBlank htag, if_neg hword.toList_ne_nil, row]
  simp only [String.toList_eq_nil_iff]
  rfl

/-- No character of a line ends it: line ends are blanks. -/
lemma IsWritable.not_mem_line (h : IsWritable l) {x : Word × Tag} (hx : x ∈ l) {c : Char}
    (hc : isBlank c = true) (htab : c ≠ '\t') : c ∉ line x := by
  have hword := (h.isToken_word x hx).not_isBlank
  intro hmem
  rcases List.mem_append.1 hmem with hmem | hmem
  · rw [hword c hmem] at hc
    cases hc
  · rcases List.mem_cons.1 hmem with rfl | hmem
    · exact htab rfl
    · have hne : x.2 ≠ "" := by
        intro hempty
        simp [hempty] at hmem
      rw [(h.isToken_tag x hx hne).not_isBlank c hmem] at hc
      cases hc

/-- **The fields of the lines of a text that was written** are the words with their tags, and after
each sentence comes a line without fields. -/
theorem fieldLines_render (h : ∀ l ∈ ls, IsWritable l) :
    fieldLines (render ls).toList = (ls.map (·.map row)).flatMap (· ++ [[]]) := by
  have hlines : lines (render ls).toList = ls.flatMap fun l => l.map line ++ [[]] := by
    rw [toList_render]
    refine lines_flatMap fun text htext => ?_
    obtain ⟨l, hl, htext⟩ := List.mem_flatMap.1 htext
    rcases List.mem_append.1 htext with htext | htext
    · obtain ⟨x, hx, rfl⟩ := List.mem_map.1 htext
      have hwritable := h l hl
      exact ⟨hwritable.not_mem_line hx (by decide) (by decide),
        hwritable.not_mem_line hx (by decide) (by decide)⟩
    · obtain rfl := List.mem_singleton.1 htext
      simp
  rw [fieldLines, hlines, List.map_flatMap, List.flatMap_map]
  refine List.flatMap_congr fun l hl => ?_
  rw [List.map_append, List.map_map]
  congr 1
  exact List.map_congr_left fun x hx => (h l hl).fields_line hx

/-- The sentences are cut out of their rows again. -/
lemma sentences_rows (tagged : Bool) (h : ∀ l ∈ ls, IsWritable l) :
    sentences tagged ((ls.map (·.map row)).flatMap (· ++ [[]])) =
      ls.map fun l => .ofPairs (l.map fun x => (x.1, if tagged then x.2 else "")) := by
  have hruns : runs List.isEmpty ((ls.map (·.map row)).flatMap (· ++ [[]])) =
      ls.map (·.map row) := by
    refine runs_flatMap_append rfl fun rows hrows => ?_
    obtain ⟨l, hl, rfl⟩ := List.mem_map.1 hrows
    refine ⟨by simpa using (h l hl).ne_nil, fun fields hfields => ?_⟩
    obtain ⟨x, -, rfl⟩ := List.mem_map.1 hfields
    rfl
  have hentry : ∀ x, entry tagged (row x) = (x.1, if tagged then x.2 else "") := by
    intro x
    by_cases hempty : x.2 = ""
    · simp [entry, row, hempty]
    · simp [entry, row, hempty]
  rw [sentences, hruns, List.map_map]
  refine List.map_congr_left fun l _ => ?_
  rw [Function.comp_apply, List.map_map]
  exact congrArg Sentence.ofPairs (List.map_congr_left fun x _ => hentry x)

/-- **Without their tags the sentences are read back**, whatever the tags are. -/
theorem parse_false_render (h : ∀ l ∈ ls, IsWritable l) :
    parse false (render ls).toList = .ok (ls.map fun l => .ofPairs (l.map fun x => (x.1, ""))) := by
  simp [parse, fieldLines_render h, sentences_rows false h]

/-- A line has a single field where the tag is empty. -/
lemma length_row_eq_one_iff {x : Word × Tag} : (row x).length = 1 ↔ x.2 = "" := by
  by_cases hempty : x.2 = ""
  · simp [row, hempty]
  · simp [row, hempty]

/-- Where no tag is empty, no line lacks its tag. -/
lemma findIdx?_rows_eq_none (htags : ∀ l ∈ ls, ∀ x ∈ l, x.2 ≠ "") :
    ((ls.map (·.map row)).flatMap (· ++ [[]])).findIdx? (fun fields => fields.length == 1) =
      none := by
  rw [List.findIdx?_eq_none_iff]
  intro fields hfields
  obtain ⟨rows, hrows, hfields⟩ := List.mem_flatMap.1 hfields
  obtain ⟨l, hl, rfl⟩ := List.mem_map.1 hrows
  rcases List.mem_append.1 hfields with hfields | hfields
  · obtain ⟨x, hx, rfl⟩ := List.mem_map.1 hfields
    simpa using fun hlength => htags l hl x hx (length_row_eq_one_iff.1 hlength)
  · obtain rfl := List.mem_singleton.1 hfields
    rfl

/-- **With their tags the sentences are read back**, if no tag is empty. -/
theorem parse_true_render (h : ∀ l ∈ ls, IsWritable l) (htags : ∀ l ∈ ls, ∀ x ∈ l, x.2 ≠ "") :
    parse true (render ls).toList = .ok (ls.map .ofPairs) := by
  have huntagged : untaggedLine? (fieldLines (render ls).toList) = none := by
    rw [untaggedLine?, fieldLines_render h, findIdx?_rows_eq_none htags]
    rfl
  simp only [parse, if_pos, huntagged]
  rw [fieldLines_render h, sentences_rows true h]
  simp

/-- **The first line without a tag is reported.** If it is the first one of a sentence, each
sentence before it has taken as many lines as words, and one more. -/
theorem parse_true_render_untagged {before after : List (List (Word × Tag))} {word : Word}
    {rest : List (Word × Tag)} (h : ∀ l ∈ before ++ ((word, "") :: rest) :: after, IsWritable l)
    (htags : ∀ l ∈ before, ∀ x ∈ l, x.2 ≠ "") :
    parse true (render (before ++ ((word, "") :: rest) :: after)).toList =
      .error ((before.map fun l => l.length + 1).sum + 1) := by
  have hbefore := findIdx?_rows_eq_none htags
  have hlength : ((before.map (·.map row)).flatMap (· ++ [[]])).length =
      (before.map fun l => l.length + 1).sum := by
    simp [List.length_flatMap, List.map_map, Function.comp_def]
  have huntagged :
      untaggedLine? (fieldLines (render (before ++ ((word, "") :: rest) :: after)).toList) =
      some ((before.map fun l => l.length + 1).sum + 1) := by
    rw [untaggedLine?, fieldLines_render h, List.map_append, List.flatMap_append,
      List.findIdx?_append, hbefore, hlength]
    -- the first row after the sentences before is that of a word alone
    simp [row, List.findIdx?_cons]
  simp only [parse, if_pos, huntagged]

end Writing

/-! ### Files -/

/-- The text of a file is what was written to it. -/
lemma load_toUTF8 (path : String) (text : String) (tagged : Bool) :
    load path (.ok text.toUTF8) tagged = match parse tagged text.toList with
      | .error line => .error (.untagged path line)
      | .ok sentences => .ok sentences := by
  have htext : String.fromUTF8? text.toUTF8 = some text := by
    rw [String.fromUTF8?, String.toUTF8_eq_toByteArray, dif_pos text.isValidUTF8]
    rfl
  cases hparse : parse tagged text.toList <;> simp only [load, htext, hparse]

/-- A file from which sentences are read has a text with these sentences. -/
lemma exists_parse_of_load {path : String} {content : Except PathError ByteArray} {tagged : Bool}
    {sentences : List Sentence} (h : load path content tagged = .ok sentences) :
    ∃ text, parse tagged text = .ok sentences := by
  unfold load at h
  split at h
  · cases h
  split at h
  · dsimp only at h
    split at h
    all_goals cases h
  · split at h
    · cases h
    · rename_i text _ sentences' hparse
      obtain rfl := Except.ok.inj h
      exact ⟨_, hparse⟩

end Corpus

end TrellisTagger

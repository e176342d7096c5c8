import TrellisTagger.Path
import TrellisTagger.Sentence
import TrellisTagger.Tally
import TrellisTagger.Text.Blank
import TrellisTagger.Text.Lines
import TrellisTagger.Text.Utf8

/-!
# Corpora

A corpus is a text with a word and its tag on each line and a line without fields between sentences.
Blind text, which is to be tagged, has only the words.

## Main definitions

* `TrellisTagger.Corpus.parse` — the sentences of a text.
* `TrellisTagger.Corpus.load` — the sentences of a file, with the reasons for which there may be
  none.
* `TrellisTagger.Corpus.render` — the text of tagged words.
* `TrellisTagger.Corpus.vocabulary` — the words that occur.

## Design

Lines are turned into lists of fields first. An untagged line is then a list of exactly one field,
and the sentences are the longest runs of lines with fields.
-/

namespace TrellisTagger.Corpus

/-- The lines of a text, each as its fields. -/
def fieldLines (text : List Char) : List (List (List Char)) := (lines text).map fields

/-- The number of the first line that has a word and no tag; lines are counted from one. -/
def untaggedLine? (rows : List (List (List Char))) : Option Nat :=
  (rows.findIdx? fun fields => fields.length == 1).map (· + 1)

/-- The word and the tag of a line with fields. In blind text the tag is empty. -/
def entry (tagged : Bool) (fields : List (List Char)) : Word × Tag :=
  (String.ofList (fields.headD []), if tagged then String.ofList (fields.getD 1 []) else "")

/-- The sentences of lines that all have what they need. -/
def sentences (tagged : Bool) (rows : List (List (List Char))) : List Sentence :=
  (runs List.isEmpty rows).map fun run => .ofPairs (run.map (entry tagged))

/-- The sentences of a text, or the number of the first line that lacks its tag. -/
def parse (tagged : Bool) (text : List Char) : Except Nat (List Sentence) :=
  let rows := fieldLines text
  match if tagged then untaggedLine? rows else none with
  | some line => .error line
  | none => .ok (sentences tagged rows)

/-- The reasons for which a file gives no sentences. -/
inductive LoadError where
  /-- There is no file at the path. -/
  | noFile (path : String) (e : PathError)
  /-- The bytes of the file are no text. -/
  | notText (path : String)
  /-- A line has no tag. -/
  | untagged (path : String) (line : Nat)
  deriving DecidableEq

/-- The number of bytes of a file that are read at a time. -/
def blockSize : Nat := 8192

/-- The text that has been read of a file when its bytes turn out to be no text: that of the blocks
before the one with the fault. -/
def textBeforeFault (bytes : List UInt8) : List Char :=
  Utf8.wholeText <|
    match Utf8.faultIndex? [] bytes with
    | some i => bytes.take (i / blockSize * blockSize)
    | none => bytes

/-- The sentences of the file at a path, given its bytes or why there are none. The lines are looked
at while the file is read, so an untagged line in the part before a fault is found first. -/
def load (path : String) (content : Except PathError ByteArray) (tagged : Bool) :
    Except LoadError (List Sentence) :=
  match content with
  | .error e => .error (.noFile path e)
  | .ok bytes =>
    match String.fromUTF8? bytes with
    | none =>
      let rows := (endedLines (textBeforeFault bytes.toList)).map fields
      match if tagged then untaggedLine? rows else none with
      | some line => .error (.untagged path line)
      | none => .error (.notText path)
    | some text =>
      match parse tagged text.toList with
      | .error line => .error (.untagged path line)
      | .ok sentences => .ok sentences

/-- The lines of a tagged sentence, with the blank line that ends it. -/
def renderSentence (l : List (Word × Tag)) : String :=
  String.join (l.map fun (word, tag) => word ++ "\t" ++ tag ++ "\n") ++ "\n"

/-- The text of tagged sentences. -/
def render (sentences : List (List (Word × Tag))) : String :=
  String.join (sentences.map renderSentence)

/-- The words of some sentences, in order of first occurrence. -/
def vocabulary (sentences : List Sentence) : List Word :=
  distinct (sentences.flatMap Sentence.words)

end TrellisTagger.Corpus

import TrellisTagger.Decoder
import TrellisTagger.SentenceTrellis

/-!
# Tagging sentences

Finding tags for words, and weighing tags that are given, both under an arbitrary scoring of the
tags of a context.

## Main definitions

* `TrellisTagger.innerTags` — the tags of a path without those of the boundary symbols.
* `TrellisTagger.tagWords` — the tags on the path that a decoder finds.
* `TrellisTagger.taggingWeight` — the log weight of the tags of a sentence.
-/

namespace TrellisTagger

universe u

variable {W : Type u} [LogWeight W]

/-- The tags along a path, without the two before the first word and the two after the last. -/
def innerTags (path : List State) : List Tag := ((State.tags path).drop 2).dropLast.dropLast

/-- The tags that a decoder finds for a sequence of words. -/
def tagWords (scores : Scores W) (decoder : Decoder) (words : List Word) :
    Except (DecodeFailure State) (List Tag) :=
  (decoder.decode (sentenceTrellis scores words)).map innerTags

/-- The log weight of a labelled context: impossible where its tag is not scored at all. -/
def contextWeight (scores : Scores W) (c : LabelledContext) : W :=
  (scores c.toContext).getD c.tag impossible

/-- The log weight of a tagged sentence: the sum over its labelled contexts, from left to right. -/
def taggingWeight (scores : Scores W) (s : Sentence) : W :=
  s.contexts.foldl (fun total c => total + contextWeight scores c) 0

end TrellisTagger

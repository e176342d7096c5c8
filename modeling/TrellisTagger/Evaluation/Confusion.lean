import TrellisTagger.Evaluation.Average

/-!
# Confusion matrices

For each correct tag and each tag found, how often they meet; and a picture of these numbers. A
session asks its world for a picture, and any picture would do; this is the one that the worlds of
this library draw.

## Main definitions

* `TrellisTagger.Confusion.count` — how often two tags meet.
* `TrellisTagger.Confusion.figure` — a picture in which darker fields stand for more frequent pairs.
-/

namespace TrellisTagger.Confusion

/-- How often a tag was found where another is correct. -/
def count (pairs : List (Tag × Tag)) (correct found : Tag) : Nat :=
  pairs.countP fun p => p.1 == correct && p.2 == found

/-- A text in which the characters that mean something in a picture are written as names. -/
def escaped (s : String) : String :=
  String.join (s.toList.map fun c =>
    if c = '<' then "&lt;" else if c = '>' then "&gt;" else if c = '&' then "&amp;"
    else String.singleton c)

/-- The size of a field. -/
def unit : Nat := 20

/-- A field of the picture at a row and a column. -/
def field (row column shade : Nat) : String :=
  "<rect x=\"" ++ toString (unit * (column + 4)) ++ "\" y=\"" ++ toString (unit * row) ++
    "\" width=\"" ++ toString unit ++ "\" height=\"" ++ toString unit ++
    "\" fill=\"rgb(" ++ toString (255 - shade) ++ ",255," ++ toString (255 - shade) ++ ")\"/>\n"

/-- A tag at a row, or below a column. -/
def label (x y : Nat) (tag : Tag) : String :=
  "<text x=\"" ++ toString x ++ "\" y=\"" ++ toString y ++ "\" font-size=\"8\">" ++ escaped tag ++
    "</text>\n"

/-- A picture of the confusion matrix of pairs of correct tag and tag found. -/
def figure (pairs : List (Tag × Tag)) : String :=
  let tags := occurringTags pairs
  let most := (tags.map fun a => (tags.map (count pairs a)).foldl max 1).foldl max 1
  let rows := tags.mapIdx fun i a =>
    String.join (tags.mapIdx fun j b => field i j (255 * count pairs a b / most)) ++
      label 0 (unit * (i + 1) - 6) a
  let columns := tags.mapIdx fun j b => label (unit * (j + 4)) (unit * (tags.length + 1)) b
  let side := toString (unit * (tags.length + 5))
  "<svg xmlns=\"http://www.w3.org/2000/svg\" width=\"" ++ side ++ "\" height=\"" ++ side ++
    "\">\n" ++
    String.join rows ++ String.join columns ++ "</svg>\n"

end TrellisTagger.Confusion

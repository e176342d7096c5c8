import TrellisTagger.Grid
import TrellisTagger.Grid.Column
import TrellisTagger.Ranking
import TrellisTagger.Text.Duration
import TrellisTagger.Text.Wrap

/-!
# The report of a grid search

A boxed table with a row for each point of the grid, the most accurate first.

## Main definitions

* `TrellisTagger.GridResult` — a point with the figures that its tagger reached.
* `TrellisTagger.GridResult.ranked` — the results in the order of the report.
* `TrellisTagger.ReportError` — the reasons for which there is no report.
* `TrellisTagger.GridResult.report` — the lines of the table.
-/

namespace TrellisTagger

/-- A point of a grid with the figures that its tagger reached. -/
structure GridResult where
  /-- The point. -/
  point : Point
  /-- The share of tokens with the correct tag. -/
  accuracy : Float
  /-- The share of unknown tokens with the correct tag. -/
  unknownAccuracy : Float
  /-- The share of sentences with correct tags throughout. -/
  sentenceAccuracy : Float
  /-- The number of sentences whose correct tags weigh more than those found. -/
  suboptimalities : Int
  /-- The seconds that it took. -/
  seconds : Float

/-- A share as a percentage with two places. -/
def percent (x : Float) : String := Decimal.fixed 2 (100 * x) ++ "%"

/-- The reasons for which there is no report. -/
inductive ReportError where
  /-- The value of a setting has too many levels. -/
  | tooDeep
  /-- What a tagger took is no duration. -/
  | duration (e : Duration.Failure)
  /-- There are rules and no rows. -/
  | onlyRules
  /-- A whole number among fractions exceeds all floats. -/
  | range (e : Binary64.RangeError)
  deriving DecidableEq

/-- The wording of an error. -/
def ReportError.message : ReportError → String
  | tooDeep => "maximum recursion depth exceeded"
  | duration e => e.message
  | onlyRules => "list index out of range"
  | range e => e.message

namespace GridResult

/-- The results with the most accurate first; those of equal accuracy keep their order. -/
def ranked (results : List GridResult) : List GridResult :=
  (sortBy (fun a b => decide (a.accuracy < b.accuracy)) results.reverse).reverse

/-- The settings of a point other than the names of scorer and decoder, with their values. -/
def parameters (p : Point) : String :=
  ", ".intercalate ((Setting.all.drop 2).map fun s => s.name ++ "=" ++ (p.value s).text)

/-- The greatest width of the parameters. -/
def parameterWidth : Nat := 80

/-- The settings of a point in lines of the greatest width. -/
def wrappedParameters (p : Point) : String :=
  String.ofList (['\n'].intercalate (wrap parameterWidth (parameters p).toList))

/-- The headings of the report, each with the value that a result, and the seconds that it took,
have below it. -/
def columns : List (String × (GridResult → Int → Value)) :=
  [("Scorer", fun r _ => r.point.value .scorer),
    ("Decoder", fun r _ => r.point.value .decoder),
    ("Parameters", fun r _ => .ofString (wrappedParameters r.point)),
    ("Token accuracy", fun r _ => .ofString (percent r.accuracy)),
    ("Unknown accuracy", fun r _ => .ofString (percent r.unknownAccuracy)),
    ("Sentence accuracy", fun r _ => .ofString (percent r.sentenceAccuracy)),
    ("Suboptimal", fun r _ => .int r.suboptimalities),
    ("Time", fun _ seconds => .ofString (Duration.text seconds))]

/-- The greatest number of levels that the value of a setting can have. -/
def mostLevels : Nat := 988

/-- The cells of a result. -/
def row (r : GridResult) : Except ReportError (List Value) :=
  if Setting.all.any fun s => mostLevels < (r.point.value s).levels then .error .tooDeep
  else
    match Duration.ofSeconds r.seconds with
    | .ok seconds => .ok (columns.map fun (_, value) => value r seconds)
    | .error e => .error (.duration e)

/-- Whether a value is the mark of a rule. -/
def isRuleMark : Value → Bool
  | .string s => strip s.text.toList == [Box.ruleMark]
  | _ => false

/-- Whether a row is a rule: one of its first two cells is the mark. -/
def isRule (row : List Value) : Bool := (row.take 2).any isRuleMark

/-- The lines of the report. -/
def report (results : List GridResult) : Except ReportError (List String) := do
  let all ← (ranked results).mapM row
  let rows := all.filter fun row => !isRule row
  if rows.isEmpty && !all.isEmpty then throw .onlyRules
  let headings := columns.map fun (heading, _) => heading
  let layout := Box.Layout.ofTexts ((headings ++ rows.flatten.map Value.text).map String.toList)
  let drawn ← (headings.mapIdx fun i heading => (i, heading)).mapM fun (i, heading) =>
    let cells := rows.map fun row => row.getD i .null
    (Box.Column.ofValues layout.coloured heading cells).mapError .range
  return (Box.draw layout drawn (all.map isRule)).map String.ofList

end GridResult

end TrellisTagger

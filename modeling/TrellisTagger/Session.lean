import TrellisTagger.CommandLine.Command
import TrellisTagger.Corpus
import TrellisTagger.Evaluation
import TrellisTagger.Formula
import TrellisTagger.Grid.Report
import TrellisTagger.Split
import TrellisTagger.Tagger

/-!
# Sessions

Carrying out a command: reading the sentences, training, evaluating, writing what is asked for, and
reporting all of it. What a session needs from the world around it is an interface, so that the same
session runs on real files and on a list of texts.

## Main definitions

* `TrellisTagger.World` — reading, writing, printing, a clock, a source of seeds, an order of
  sentences for each seed, and the drawing of pictures.
* `TrellisTagger.RunError` — the reasons for which a session ends early.
* `TrellisTagger.Session.train`, `TrellisTagger.Session.search` — the two commands.
* `TrellisTagger.Session.run` — a command with its options.

## Design

Which sentences are held out and what a picture looks like is not for a session to say: it asks its
world. Of an order of sentences it knows that it is one of the same sentences, and of a picture
nothing.
-/

namespace TrellisTagger

/-- What a session needs from the world around it. -/
structure World (m : Type → Type) where
  /-- The bytes of the file at a path, or why there is none. -/
  read : String → m (Except PathError ByteArray)
  /-- Begin a file at a path; the answer says why that is impossible, if it is. -/
  create : String → m (Except PathError Unit)
  /-- Fill the file at a path. -/
  write : String → String → m Unit
  /-- Print lines. -/
  print : String → m Unit
  /-- The present time in seconds. -/
  clock : m Float
  /-- A seed. -/
  draw : m Int
  /-- Sentences in an order that depends on a seed. None is lost, and none is repeated. -/
  shuffle : Int → (sentences : List Sentence) → m { order : List Sentence // order.Perm sentences }
  /-- A picture of how often the tags of pairs of correct tag and tag found meet. -/
  picture : List (Tag × Tag) → m String

/-- The reasons for which a session ends early. -/
inductive RunError where
  /-- The sentences of a file cannot be read. -/
  | load (e : Corpus.LoadError)
  /-- A file cannot be written. -/
  | notWritable (path : String) (e : PathError)
  /-- What stands for a path is none. -/
  | noPath (v : Value)
  /-- The sentences cannot be split. -/
  | split (e : Split.SplitError)
  /-- The part to hold out is no number. -/
  | unfitFraction (v : Value)
  /-- The seed is no whole number. -/
  | unfitSeed (v : Value)
  /-- The settings make no tagger. -/
  | point (e : PointError)
  /-- The grid names what is no setting. -/
  | setting (e : UnknownSetting)
  /-- The grid is not an object. -/
  | noGrid
  /-- The values to try for a setting are not listed. -/
  | noChoices (v : Value)
  /-- There is no tag for a confusion matrix. -/
  | nothingToDraw
  /-- A tag cannot be a label of a confusion matrix. -/
  | label (e : Formula.LabelError)
  /-- There is no report of a grid search. -/
  | report (e : ReportError)

namespace RunError

/-- The wording of the error of a file. -/
def loadMessage : Corpus.LoadError → String
  | .noFile path e => e.message path
  | .notText path => path ++ " is not encoded in UTF-8."
  | .untagged path line => "Line " ++ toString line ++ " of " ++ path ++ " has no tag."

/-- The wording of an error about the part to hold out. -/
def fractionMessage (fraction : String) : String :=
  "The 'test_size' parameter of train_test_split must be a float in the range (0.0, 1.0), " ++
    "an int in the range [1, inf) or None. Got " ++ fraction ++ " instead."

/-- The wording of an error about a seed. -/
def seedMessage (seed : String) : String :=
  "The 'random_state' parameter of train_test_split must be an int in the range " ++
    "[0, 4294967295], an instance of 'numpy.random.mtrand.RandomState' or None. Got " ++ seed ++
    " instead."

/-- The wording of an impossible split. -/
def splitMessage : Split.SplitError → String
  | .badFraction fraction => fractionMessage (Decimal.plain fraction)
  | .badSeed seed => seedMessage (toString seed)
  | .nothingLeft count fraction =>
    "With n_samples=" ++ toString count ++ ", test_size=" ++ Decimal.plain fraction ++
      " and train_size=None, the resulting train set will be empty. " ++
      "Adjust any of the aforementioned parameters."

/-- The wording of an error. -/
def message : RunError → String
  | load e => loadMessage e
  | notWritable path e => e.message path
  | noPath v => "expected str, bytes or os.PathLike object, not " ++ v.kind
  | split e => splitMessage e
  | unfitFraction v => fractionMessage v.text
  | unfitSeed v => seedMessage v.text
  | point e => e.message
  | setting e => e.message
  | noGrid => "The hyperparameters must be an object of lists."
  | noChoices v => quoted v.kind ++ " object is not iterable"
  | nothingToDraw =>
    "Found empty input array (e.g., `y_true` or `y_pred`) while a minimum of 1 sample is required."
  | label e => e.message
  | report e => e.message

end RunError

/-- What the confusion matrix is written to. -/
def confusionPath : String := "confusion_matrix.svg"

/-- What tagged sentences are written to where nothing else is said. -/
def taggedPath : String := "test.tagged"

namespace Session

variable {m : Type → Type} [Monad m]

/-- A part of a session, which may end early. -/
abbrev Part (m : Type → Type) (α : Type) := ExceptT RunError m α

/-- Report events on the console. -/
def report (world : World m) (events : List Event) : Part m Unit :=
  events.forM fun e => world.print e.console

/-- An answer of the library, an error of which ends the session. -/
def orElse {ε α : Type} (error : ε → RunError) : Except ε α → Part m α
  | .ok a => pure a
  | .error e => throw (error e)

/-- A value as a path. -/
def path : Value → Except RunError String
  | .string s => .ok s.text
  | v => .error (.noPath v)

/-- Read the sentences of a file. -/
def load (world : World m) (value : Value) (tagged : Bool) : Part m (List Sentence) := do
  let path ← orElse id (path value)
  let content ← world.read path
  let sentences ← orElse .load (Corpus.load path content tagged)
  report world [.corpusRead sentences.length path]
  return sentences

/-- Split sentences at random, and tell the seed. A bad part to hold out is worse than a bad
seed. -/
def split (world : World m) (data : CommandLine.DataOptions) (sentences : List Sentence) :
    Part m (List Sentence × List Sentence × Option Int) := do
  let seed ← match data.seed with
    | some seed => pure seed
    | none => Value.int <$> world.draw
  report world [.seedChosen seed]
  match data.fraction, seed with
  | .float fraction, .int seed => do
    let (kept, _) ← orElse .split (Split.plan sentences.length fraction seed)
    let ⟨order, _⟩ ← world.shuffle seed sentences
    return (order.take kept, order.drop kept, some seed)
  | .float fraction, v =>
    throw (if Split.isPart fraction then .unfitSeed v else .split (.badFraction fraction))
  | v, _ => throw (.unfitFraction v)

/-- The sentences for training and those for evaluation, with the seed. -/
def sentences (world : World m) (data : CommandLine.DataOptions) :
    Part m (List Sentence × List Sentence × Option Int) := do
  let all ← load world data.training true
  match data.development with
  | none => split world data all
  | some path => return (all, ← load world path true, data.seed.bind Value.int?)

/-- Write text to a file. -/
def save (world : World m) (path : String) (text : Part m String) : Part m Unit := do
  orElse (.notWritable path) (← world.create path)
  world.write path (← text)

/-- Draw the confusion matrix of an evaluation. -/
def drawConfusion (world : World m) (e : Evaluation) : Part m Unit := do
  let pairs := e.truth.flatten.zip e.predicted.flatten
  if pairs.isEmpty then throw .nothingToDraw
  if let some e := (occurringTags pairs).findSome? Formula.labelError? then throw (.label e)
  save world confusionPath (world.picture pairs)
  report world [.confusionDrawn confusionPath]

/-- Tag sentences and write them to a file. -/
def writeTagged (world : World m) (tagger : Tagger Float) (path : String)
    (sentences : List Sentence) : Part m Unit := do
  let events := tagger.writeEvents path sentences
  save world path do
    report world events.dropLast
    return tagger.write sentences
  report world (events.drop (events.length - 1))

/-- The lines that sum up an evaluation. -/
def summary (s : Stats Float) : List String :=
  ["Sentence-level results:",
    "\tAccuracy: " ++ percent s.sentenceAccuracy,
    "",
    "Word-level results:",
    "\tAccuracy " ++ percent s.accuracy,
    "\tUnknown word accuracy " ++ percent s.unknownAccuracy,
    "\tPrecision (weighted) " ++ percent s.precisionScore,
    "\tRecall (weighted) " ++ percent s.recallScore,
    "\tF1 score (weighted) " ++ percent s.f1Score,
    "",
    "Decoder suboptimalities detected: " ++ toString s.suboptimalities,
    "Sentences skipped: " ++ toString s.skipped]

/-- Train a tagger, evaluate it, and do with it what the options say. -/
def train (world : World m) (data : CommandLine.DataOptions)
    (options : CommandLine.TrainOptions) : Part m Unit := do
  let (training, evaluation, seed) ← sentences world data
  let blind ← match options.blind with
    | none => pure []
    | some path => load world path false
  report world
    [.trainingSentences training.length, .evaluationSentences evaluation.length]
  let untrained ← orElse .point options.point.tagger
  report world (.trainingBegins untrained.text :: untrained.trainEvents training)
  let tagger := untrained.train training
  report world [.evaluationBegins]
  let e := evaluate tagger.scorer.logScores tagger.decoder evaluation
  report world (e.events options.verbose)
  if options.confusion then drawConfusion world e
  if !blind.isEmpty then
    let path ← match options.output with
      | some v => if v.isTrue then orElse id (path v) else pure taggedPath
      | none => pure taggedPath
    writeTagged world tagger path blind
  (summary (e.stats (Corpus.vocabulary training) seed)).forM fun line => world.print line

/-- The points of a grid that is given as a JSON value. -/
def points (v : Value) : Except RunError (List Point) :=
  match v with
  | .object members => do
    let lists ← members.mapM fun (name, v) =>
      match v.choices? with
      | some choices => .ok (name.text, choices)
      | none => .error (.noChoices v)
    match Grid.points (Table.ofList lists) with
    | .ok points => .ok points
    | .error e => .error (.setting e)
  | _ => .error .noGrid

/-- Train and evaluate the tagger of a point. Only warnings are reported. -/
def tryPoint (world : World m) (training evaluation : List Sentence) (seed : Option Int)
    (point : Point) : Part m GridResult := do
  let begun ← world.clock
  let untrained ← orElse .point point.tagger
  let warnings (events : List Event) : List Event := events.filter fun e => e.level = .warning
  report world (warnings (untrained.trainEvents training))
  let tagger := untrained.train training
  let e := evaluate tagger.scorer.logScores tagger.decoder evaluation
  report world (warnings (e.events false))
  let s : Stats Float := e.stats (Corpus.vocabulary training) seed
  return {
    point
    accuracy := s.accuracy
    unknownAccuracy := s.unknownAccuracy
    sentenceAccuracy := s.sentenceAccuracy
    suboptimalities := s.suboptimalities
    seconds := (← world.clock) - begun }

/-- Train and evaluate the taggers of a grid, and report how they rank. -/
def search (world : World m) (data : CommandLine.DataOptions) (grid : Value) : Part m Unit := do
  let points ← orElse id (points grid)
  let (training, evaluation, seed) ← sentences world data
  report world [.gridBegins points.length]
  let results ← points.mapM (tryPoint world training evaluation seed)
  let lines ← orElse .report (GridResult.report results)
  lines.forM fun line => world.print line

/-- Carry out a command. -/
def run (world : World m) : CommandLine.Command → Part m Unit
  | .train data options => train world data options
  | .search data grid => search world data grid

end Session

end TrellisTagger

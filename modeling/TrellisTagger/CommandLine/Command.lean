import TrellisTagger.CommandLine.Rule
import TrellisTagger.Grid

/-!
# Commands

The two commands of the program with their options: one trains and evaluates a tagger, the other
searches a grid of configurations.

## Main definitions

* `TrellisTagger.CommandLine.Command` — a command with its options.
* `TrellisTagger.CommandLine.Usage` — what the arguments ask for.
* `TrellisTagger.CommandLine.usage` — the meaning of the arguments.
-/

namespace TrellisTagger.CommandLine

/-- Where the sentences come from. Any of these can be an empty list, which stands for no value. -/
structure DataOptions where
  /-- The path of the training sentences. -/
  training : Value
  /-- The path of the evaluation sentences; without it a part of the training sentences is held
  out. -/
  development : Option Value
  /-- The part that is held out. -/
  fraction : Value
  /-- The seed for choosing it. -/
  seed : Option Value

/-- What is to be done with a trained tagger. -/
structure TrainOptions where
  /-- The settings of the tagger. -/
  point : Point
  /-- The path of untagged sentences. -/
  blind : Option Value
  /-- The path for the tagged sentences. -/
  output : Option Value
  /-- Whether a confusion matrix is drawn. -/
  confusion : Bool
  /-- Whether the taggings of all evaluation sentences are shown. -/
  verbose : Bool

/-- A command with its options. -/
inductive Command where
  /-- Train a tagger and evaluate it. -/
  | train (data : DataOptions) (options : TrainOptions)
  /-- Train and evaluate a tagger for each point of a grid. -/
  | search (data : DataOptions) (grid : Value)

/-- What the arguments ask for. -/
inductive Usage where
  /-- A command is to be carried out. -/
  | run (command : Command)
  /-- Help is asked for. -/
  | help
  /-- There is no command. -/
  | nothing
  /-- The arguments make no sense; the text says why. -/
  | misuse (text : String)
  /-- The value of an option cannot be read at all. -/
  | unreadable (e : Value.JsonError)

/-- The name of the program. -/
def programName : String := "train.py"

/-! ### Readers of option values -/

/-- Any text. -/
def readString (s : String) : Except Unfit Value := .ok (.ofString s)

/-- A number. -/
def readFloat (s : String) : Except Unfit Value :=
  match Numeral.float? s with
  | some x => .ok (.float x)
  | none => .error (.complaint ("invalid float value: " ++ quoted s))

/-- A whole number. -/
def readInt (s : String) : Except Unfit Value :=
  match Numeral.int? s with
  | some i => .ok (.int i)
  | none => .error (.complaint ("invalid int value: " ++ quoted s))

/-- A JSON value. -/
def readJson (s : String) : Except Unfit Value :=
  match Value.ofJson s with
  | .ok v => .ok v
  | .error .malformed => .error (.complaint ("invalid loads value: " ++ quoted s))
  | .error e => .error (.unreadable e)

/-- The complaint about a text that is none of some texts. -/
def noChoice (choices : List String) (s : String) : String :=
  "invalid choice: " ++ quoted s ++ " (choose from " ++ ", ".intercalate (choices.map quoted) ++ ")"

/-- One of some texts. -/
def readChoice (choices : List String) (s : String) : Except Unfit Value :=
  if choices.contains s then .ok (.ofString s) else .error (.complaint (noChoice choices s))

/-! ### The options of the commands -/

/-- The option that asks for help. -/
def helpRule : Rule := { names := ["-h", "--help"], action := .help }

/-- The options that say where sentences come from. -/
def dataRules : List Rule :=
  [helpRule,
    { names := ["--train"], action := .store readString, required := true },
    { names := ["--dev"], action := .store readString },
    { names := ["--split"], action := .store readFloat },
    { names := ["--seed"], action := .store readInt },
    { names := ["-v"], action := .flag }]

/-- The options of training. -/
def trainRules : List Rule :=
  dataRules ++
    [{ names := ["--scorer"], action := .store (readChoice ["most_frequent", "trigram_hmm"]) },
      { names := ["--decoder"], action := .store (readChoice ["greedy", "viterbi"]) },
      { names := ["--no-restrict-trigrams"], action := .flag },
      { names := ["--lambda1"], action := .store readFloat },
      { names := ["--lambda2"], action := .store readFloat },
      { names := ["--no-deleted-interpolation"], action := .flag },
      { names := ["--blind"], action := .store readString },
      { names := ["--output"], action := .store readString },
      { names := ["--confusion"], action := .flag }]

/-- The options of grid search. -/
def searchRules : List Rule :=
  dataRules ++ [{ names := ["--hyperparameters"], action := .store readJson, required := true }]

namespace Rule.Gathered

/-- Where the sentences come from. -/
def data (g : Gathered) : DataOptions where
  training := (g.last? "--train").getD .null
  development := g.last? "--dev"
  fraction := (g.last? "--split").getD (.float 0.2)
  seed := g.last? "--seed"

/-- Change a setting of a point to the value that an option was given. -/
def choose (g : Gathered) (p : Point) (setting : Setting) (name : String) : Point :=
  (g.last? name).elim p (p.set setting)

/-- Switch a setting of a point off if an option was given. -/
def switchOff (g : Gathered) (p : Point) (setting : Setting) (name : String) : Point :=
  if g.count name = 0 then p else p.set setting (.bool false)

/-- The settings of the tagger. -/
def point (g : Gathered) : Point :=
  let p := g.choose .standard .scorer "--scorer"
  let p := g.choose p .decoder "--decoder"
  let p := g.switchOff p .restrict "--no-restrict-trigrams"
  let p := g.choose p .trigramWeight "--lambda1"
  let p := g.choose p .bigramWeight "--lambda2"
  g.switchOff p .estimate "--no-deleted-interpolation"

/-- The command for training. -/
def train (g : Gathered) : Command :=
  .train g.data {
    point := g.point
    blind := g.last? "--blind"
    output := g.last? "--output"
    confusion := g.count "--confusion" != 0
    verbose := decide (1 < g.count "-v") }

/-- The command for grid search. -/
def search (g : Gathered) : Command :=
  .search g.data ((g.last? "--hyperparameters").getD .null)

end Rule.Gathered

/-! ### Reading the arguments -/

/-- The line that ends a complaint. -/
def misuse (command text : String) : Usage :=
  .misuse (" ".intercalate (programName :: (if command.isEmpty then [] else [command])) ++
    ": error: " ++ text)

/-- The complaint about arguments that nothing takes. -/
def unrecognized (left : List String) : Usage :=
  misuse "" ("unrecognized arguments: " ++ " ".intercalate left)

/-- Read the arguments of a command. Those that it does not take are an error together with those
left over before. -/
def usageOf (name : String) (rules : List Rule) (command : Rule.Gathered → Command)
    (left arguments : List String) : Usage :=
  match Rule.parse rules arguments with
  | .error .help => .help
  | .error (.complaint text) => misuse name text
  | .error (.unreadable e) => .unreadable e
  | .ok g =>
    let left := left ++ g.left
    if left.isEmpty then .run (command g) else unrecognized left

/-- Read the name of a command and its arguments. -/
def usageFrom (left : List String) (name : String) (arguments : List String) : Usage :=
  match name with
  | "train" => usageOf name trainRules Rule.Gathered.train left arguments
  | "gridsearch" => usageOf name searchRules Rule.Gathered.search left arguments
  | _ => misuse "" ("argument command: " ++ noChoice ["train", "gridsearch"] name)

/-- Look for the name of the command. What comes before it can only be options of the program
itself. -/
def seekCommand (left : List String) : List String → Usage
  | [] => if left.isEmpty then .nothing else unrecognized left
  | s :: rest =>
    match s, rest with
    | "--", [] => unrecognized (left ++ [s])
    | "--", _ => usageFrom left s rest
    | _, _ =>
      match Rule.classify [helpRule] s with
      | .ok (.option r name attached) =>
        match Rule.unpack [helpRule] r name attached with
        | .error (.complaint text) => misuse "" text
        | _ => .help
      | .ok (.plain _) => usageFrom left s rest
      | .error (.complaint text) => misuse "" text
      | _ => seekCommand (left ++ [s]) rest

/-- The meaning of the arguments. -/
def usage (arguments : List String) : Usage := seekCommand [] arguments

end TrellisTagger.CommandLine

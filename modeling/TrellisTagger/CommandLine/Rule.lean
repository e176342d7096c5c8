import TrellisTagger.Grid.Reader

/-!
# Option rules

How a list of arguments is read under a list of option rules. An argument that begins with a dash is
an option if a rule has its name, or if its name can only be completed to one of a rule; the value
of an option follows an equals sign or is the next argument; short options can share a dash.

## Main definitions

* `TrellisTagger.CommandLine.Rule` — the names of an option, and what it does.
* `TrellisTagger.CommandLine.Argument` — what an argument turns out to be.
* `TrellisTagger.CommandLine.Rule.sort` — tell the arguments apart.
* `TrellisTagger.CommandLine.Rule.parse` — the values that the options are given, and the arguments
  left over.

## Design

Complaints have an order: an ambiguous name anywhere comes first, then what is wrong with an option,
in the order of the arguments, then options that are missing. Arguments that fit no rule are no
complaint here; they are handed back.
-/

namespace TrellisTagger.CommandLine

/-- What can be wrong with the text of a value. -/
inductive Unfit where
  /-- It is no value for the option; the text complains about it. -/
  | complaint (text : String)
  /-- It cannot be read at all. -/
  | unreadable (e : Value.JsonError)

/-- What an option does. -/
inductive Action where
  /-- Asks for help. -/
  | help
  /-- Is there or not. -/
  | flag
  /-- Takes a value, which is read. -/
  | store (read : String → Except Unfit Value)

/-- An option. -/
structure Rule where
  /-- The names, each with its dashes. -/
  names : List String
  /-- What the option does. -/
  action : Action
  /-- Whether the option must be given. -/
  required : Bool := false

/-- What an argument turns out to be. -/
inductive Argument where
  /-- An argument that is no option. -/
  | plain (s : String)
  /-- Two dashes: nothing after them is an option. -/
  | separator
  /-- An option without a rule. -/
  | stray (s : String)
  /-- An option with its rule, its name, and what is attached to it. -/
  | option (rule : Rule) (name : String) (attached : Option String)

/-- Why the reading of arguments ends early. -/
inductive Halt where
  /-- Help is asked for. -/
  | help
  /-- Something is wrong. -/
  | complaint (text : String)
  /-- The value of an option cannot be read at all. -/
  | unreadable (e : Value.JsonError)
  deriving DecidableEq

namespace Rule

/-- The names of a rule as they are shown. -/
def shown (r : Rule) : String := "/".intercalate r.names

/-- A complaint about an option. -/
def complaint (r : Rule) (text : String) : Halt :=
  .complaint ("argument " ++ r.shown ++ ": " ++ text)

/-- Whether an option takes a value. -/
def takesValue (r : Rule) : Bool :=
  match r.action with
  | .store _ => true
  | _ => false

/-- The rule with a name. -/
def find? (rules : List Rule) (name : String) : Option Rule :=
  List.find? (fun r => r.names.contains name) rules

/-- A text before and after its first equals sign, if it has one. -/
def splitEquals (s : String) : String × Option String :=
  let l := s.toList
  match l.dropWhile (· != '=') with
  | [] => (s, none)
  | _ :: value => (String.ofList (l.takeWhile (· != '=')), some (String.ofList value))

/-- The options that an argument of two dashes abbreviates. -/
def completions (rules : List Rule) (s : String) : List (Rule × String × Option String) :=
  let (name, value) := splitEquals s
  rules.flatMap fun r =>
    (r.names.filter fun full => name.toList.isPrefixOf full.toList).map fun full => (r, full, value)

/-- The options that an argument of one dash can mean: a short option with something attached, or
the beginning of a name. -/
def shortReadings (rules : List Rule) (s : String) : List (Rule × String × Option String) :=
  let short := String.ofList (s.toList.take 2)
  rules.flatMap fun r =>
    r.names.filterMap fun full =>
      if full = short then some (r, full, some (String.ofList (s.toList.drop 2)))
      else if s.toList.isPrefixOf full.toList then some (r, full, none)
      else none

/-- A text without the line feed at its end, if there is one. -/
def withoutLineFeed (l : List Char) : List Char :=
  if l.getLast? = some '\n' then l.dropLast else l

/-- Whether an argument is a negative number. A line feed at its end does not matter. -/
def isNegativeNumber (s : String) : Bool :=
  match withoutLineFeed s.toList with
  | '-' :: l =>
    let allDigits (ds : List Char) : Bool := ds.all fun c => (digitValue? c).isSome
    let whole := l.takeWhile (· != '.')
    match l.dropWhile (· != '.') with
    | [] => !whole.isEmpty && allDigits whole
    | _ :: fraction => allDigits whole && !fraction.isEmpty && allDigits fraction
  | _ => false

/-- What an argument is on its own. -/
def classify (rules : List Rule) (s : String) : Except Halt Argument :=
  match s.toList with
  | '-' :: second :: _ =>
    let (name, value) := splitEquals s
    match find? rules s, if value.isSome then find? rules name else none with
    | some r, _ => .ok (.option r s none)
    | none, some r => .ok (.option r name value)
    | none, none =>
      match if second = '-' then completions rules s else shortReadings rules s with
      | [(r, full, value)] => .ok (.option r full value)
      | [] => .ok (if isNegativeNumber s || s.toList.contains ' ' then .plain s else .stray s)
      | several =>
        .error (.complaint ("ambiguous option: " ++ s ++ " could match " ++
          ", ".intercalate (several.map fun (_, full, _) => full)))
  | _ => .ok (.plain s)

/-- Tell the arguments apart. -/
def sort (rules : List Rule) : List String → Except Halt (List Argument)
  | [] => .ok []
  | "--" :: rest => .ok (.separator :: rest.map .plain)
  | s :: rest => do
    let t ← classify rules s
    return t :: (← sort rules rest)

/-- The options that share one dash: those before the last one, the last one, and what is attached
to it. -/
def spread (rules : List Rule) (r : Rule) :
    List Char → Except Halt (List Rule × Rule × Option String)
  | [] => .ok ([], r, none)
  | c :: l =>
    if r.takesValue then .ok ([], r, some (String.ofList (c :: l)))
    else
      match find? rules (String.ofList ['-', c]) with
      | some r' => (spread rules r' l).map fun (before, last, value) => (r :: before, last, value)
      | none =>
        .error (r.complaint ("ignored explicit argument " ++ quoted (String.ofList (c :: l))))

/-- The options that an argument with an attachment stands for. -/
def unpack (rules : List Rule) (r : Rule) (name : String) (attached : Option String) :
    Except Halt (List Rule × Rule × Option String) :=
  match attached with
  | none => .ok ([], r, none)
  | some value =>
    if r.takesValue then .ok ([], r, some value)
    else if "--".toList.isPrefixOf name.toList || value.isEmpty then
      .error (r.complaint ("ignored explicit argument " ++ quoted value))
    else spread rules r value.toList

/-- What an option does with its value. Two dashes stand for no value, which is an empty list and is
not read. -/
def perform (r : Rule) (value : String) : Except Halt (String × Value) :=
  let key := r.names.headD ""
  match r.action with
  | .help => .error .help
  | .flag => .ok (key, .bool true)
  | .store read =>
    match if value = "--" then .ok (.list []) else read value with
    | .ok v => .ok (key, v)
    | .error (.complaint text) => .error (r.complaint text)
    | .error (.unreadable e) => .error (.unreadable e)

/-- What is gathered from some arguments. -/
structure Gathered where
  /-- The first name of each option given, with its value, in order. -/
  values : List (String × Value) := []
  /-- The arguments that fit no rule. -/
  left : List String := []
  /-- An option that waits for its value, with the options that share its dash. -/
  waiting : Option (List Rule × Rule) := none

namespace Gathered

/-- Set aside an argument that fits no rule. -/
def leave (g : Gathered) (s : String) : Gathered := { g with left := g.left ++ [s] }

/-- Carry out options that share a dash, of which the last one may have a value. -/
def carryOut (g : Gathered) (before : List Rule) (last : Rule) (value : String) :
    Except Halt Gathered := do
  let flags ← before.mapM fun r => perform r ""
  let final ← perform last value
  return { g with values := g.values ++ flags ++ [final], waiting := none }

/-- Read one argument. -/
def step (rules : List Rule) (g : Gathered) (t : Argument) : Except Halt Gathered :=
  match g.waiting, t with
  | some (before, last), .plain value => g.carryOut before last value
  | some (_, last), _ => .error (last.complaint "expected one argument")
  | none, .plain s => .ok (g.leave s)
  | none, .stray s => .ok (g.leave s)
  | none, .separator => .ok (g.leave "--")
  | none, .option r name attached =>
    match unpack rules r name attached with
    | .error e => .error e
    | .ok (before, last, some value) => g.carryOut before last value
    | .ok (before, last, none) =>
      if last.takesValue then .ok { g with waiting := some (before, last) }
      else g.carryOut before last ""

/-- Nothing may wait for a value at the end, and no option that is required may be missing. -/
def finish (rules : List Rule) (g : Gathered) : Except Halt Gathered :=
  match g.waiting with
  | some (_, last) => .error (last.complaint "expected one argument")
  | none =>
    let missing := rules.filter fun r =>
      r.required && !r.names.any fun name => g.values.any fun v => v.1 == name
    if missing.isEmpty then .ok g
    else
      .error (.complaint ("the following arguments are required: " ++
        ", ".intercalate (missing.map shown)))

/-- The value that an option was given last. -/
def last? (g : Gathered) (name : String) : Option Value := g.values.reverse.lookup name

/-- How often an option was given. -/
def count (g : Gathered) (name : String) : Nat := g.values.countP fun v => v.1 == name

end Gathered

/-- Read arguments under some rules. -/
def parse (rules : List Rule) (arguments : List String) : Except Halt Gathered := do
  let sorted ← sort rules arguments
  let g ← sorted.foldlM (Gathered.step rules) {}
  g.finish rules

end Rule

end TrellisTagger.CommandLine

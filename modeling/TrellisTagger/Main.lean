import TrellisTagger.Evaluation.Confusion
import TrellisTagger.Session
import TrellisTagger.Shuffle

/-!
# The program

Reads the arguments and carries out the command on real files.

## Main definitions

* `TrellisTagger.realWorld` — files, the console, a clock, random seeds, an order of sentences for
  each seed, and the drawing of pictures.
* `main` — the entry point.
-/

namespace TrellisTagger

/-- The number that the system has for an error about a path. Some of its calls give the negative
number. -/
def errorNumber? : IO.Error → Option Nat
  | .noFileOrDirectory _ n _ | .inappropriateType _ n _ | .invalidArgument _ n _ =>
    some (min n (0 - n)).toNat
  | _ => none

/-- What an error of the system says about a path, if that is what it is about. -/
def pathError? (e : IO.Error) : Option PathError := do
  let number ← errorNumber? e
  PathError.all.find? fun e => e.systemText?.any fun text => text.1 = number

/-- Do something with the file at a path. Errors that are not about the path are passed on. -/
def atPath {α : Type} (path : String) (action : IO α) : IO (Except PathError α) := do
  if path.contains '\x00' then return .error .nul
  try
    return .ok (← action)
  catch e =>
    match pathError? e with
    | some e => return .error e
    | none => throw e

/-- Files, the console, a clock, random seeds, an order of sentences for each seed, and the drawing
of pictures. -/
def realWorld : World IO where
  read path := atPath path (IO.FS.readBinFile path)
  create path := atPath path (IO.FS.writeFile path "")
  write path text := IO.FS.writeFile path text
  print line := IO.println line
  clock := return Float.ofNat (← IO.monoMsNow) / 1000
  draw := return (← IO.rand 0 1000000000)
  shuffle seed sentences :=
    return ⟨Shuffle.shuffle seed sentences, Shuffle.shuffle_perm seed sentences⟩
  picture pairs := return Confusion.figure pairs

/-- How the program is called. -/
def help : String :=
  "usage: " ++ CommandLine.programName ++
    " (train | gridsearch) --train FILE [--dev FILE] [--split PART] [--seed N] [-v]\n" ++
    "  train:      [--scorer NAME] [--decoder NAME] [--no-restrict-trigrams] [--lambda1 X]\n" ++
    "              [--lambda2 X] [--no-deleted-interpolation] [--blind FILE] [--output FILE]\n" ++
    "              [--confusion]\n" ++
    "  gridsearch: --hyperparameters JSON"

end TrellisTagger

/-- Carry out the command that the arguments ask for. -/
def main (arguments : List String) : IO UInt32 := do
  match TrellisTagger.CommandLine.usage arguments with
  | .help =>
    IO.println TrellisTagger.help
    return 0
  | .nothing =>
    IO.eprintln TrellisTagger.help
    return 1
  | .misuse text =>
    IO.eprintln text
    return 2
  | .unreadable e =>
    IO.eprintln e.message
    return 1
  | .run command =>
    match ← (TrellisTagger.Session.run TrellisTagger.realWorld command).run with
    | .ok () => return 0
    | .error e =>
      IO.eprintln e.message
      return 1

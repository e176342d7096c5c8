import TrellisTagger.Evaluation.Confusion
import TrellisTagger.Folder
import TrellisTagger.Session
import TrellisTagger.Shuffle

/-!
# Transcripts

A session without a machine around it: it works on a folder in memory, the clock stands still, the
seed is known, and what is printed is kept. So a session is a function from folders to transcripts.

## Main definitions

* `TrellisTagger.Transcript` — a folder with what has been printed.
* `TrellisTagger.Transcript.world` — the world of such sessions.
* `TrellisTagger.Transcript.session` — the outcome of a command.
-/

namespace TrellisTagger

/-- A folder with what has been printed while working on it. -/
structure Transcript where
  /-- The files. -/
  folder : Folder
  /-- The seed that is drawn. -/
  seed : Int := 0
  /-- What has been printed, the last of it first. -/
  printed : List String := []

namespace Transcript

/-- The world in which a transcript is all there is. -/
def world : World (StateM Transcript) where
  read path := return (← get).folder.read path
  create path := do
    match (← get).folder.create path with
    | .error e => return .error e
    | .ok folder =>
      modify fun t => { t with folder }
      return .ok ()
  write path text := modify fun t => { t with folder := t.folder.write path text }
  print lines := modify fun t => { t with printed := lines :: t.printed }
  clock := return 0
  draw := return (← get).seed
  shuffle seed sentences :=
    return ⟨Shuffle.shuffle seed sentences, Shuffle.shuffle_perm seed sentences⟩
  picture pairs := return Confusion.figure pairs

/-- Carry out a command on a folder. -/
def session (folder : Folder) (command : CommandLine.Command) : Except RunError Unit × Transcript :=
  (Session.run world command).run.run { folder }

/-- All that has been printed, a line feed after each part. -/
def output (t : Transcript) : String := String.join (t.printed.reverse.map (· ++ "\n"))

end Transcript

end TrellisTagger

import TrellisTagger.Text.Quoted

/-!
# Paths

What may be wrong with a path at which a file is to be read or written.

## Main definitions

* `TrellisTagger.PathError` — the reasons for which a path leads to no file.
* `TrellisTagger.PathError.message` — their wording.
-/

namespace TrellisTagger

/-- The reasons for which a path leads to no file. -/
inductive PathError where
  /-- There is nothing at the path. -/
  | missing
  /-- There is a directory at the path. -/
  | directory
  /-- The path goes on behind a file. -/
  | notDirectory
  /-- The path, or a name in it, is too long. -/
  | tooLong
  /-- The path has the one character that no path may have. -/
  | nul
  deriving DecidableEq

namespace PathError

/-- All the reasons. -/
def all : List PathError := [missing, directory, notDirectory, tooLong, nul]

/-- The number and the text that the system has for an error; none where it is not even asked. -/
def systemText? : PathError → Option (Nat × String)
  | missing => some (2, "No such file or directory")
  | directory => some (21, "Is a directory")
  | notDirectory => some (20, "Not a directory")
  | tooLong => some (36, "File name too long")
  | nul => none

/-- The wording of an error at a path. -/
def message (path : String) (e : PathError) : String :=
  match e.systemText? with
  | some (number, text) => "[Errno " ++ toString number ++ "] " ++ text ++ ": " ++ quoted path
  | none => "embedded null byte"

end PathError

end TrellisTagger

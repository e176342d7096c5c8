import TrellisTagger.Path

/-!
# Folders

A folder in memory: some files, found by the names on the way to them. Paths are followed as on a
disk. A name leads from a directory to what it holds, a dot stays, two dots lead to the directory
above, and slashes in a row count as one. What lies outside the folder is not known, except that
every directory above it is there, that there are some directories at the top, and that one of them
has a file which is always empty.

## Main definitions

* `TrellisTagger.Folder` — the files, with those that have been written.
* `TrellisTagger.Folder.locate` — where a path leads.
* `TrellisTagger.Folder.read`, `TrellisTagger.Folder.create`, `TrellisTagger.Folder.write` — the
  files at paths.
-/

namespace TrellisTagger

/-- The names on the way from a folder to a file or directory. Outside the folder the way begins
with two dots for each step upwards, or with a slash where it begins at the top. -/
abbrev Way := List String

namespace Way

/-- Whether a way leads only upwards. -/
def isUpwards (way : Way) : Bool := way.all fun name => name = ".." || name = "/"

/-- The way to the directory above. At the top there is none. -/
def up (way : Way) : Way :=
  if way = ["/"] then way else if way.isUpwards then way ++ [".."] else way.dropLast

/-- The names of directories at the top. -/
def topNames : List String :=
  ["bin", "boot", "dev", "etc", "home", "lib", "media", "mnt", "opt", "root", "run", "sbin", "srv",
    "tmp", "usr", "var"]

/-- Whether a way leads to one of the directories at the top. -/
def isAtTop (way : Way) : Bool :=
  match way with
  | ["/", name] => topNames.contains name
  | _ => false

/-- The way to the file that is always empty: what is written to it vanishes. -/
def void : Way := ["/", "dev", "null"]

end Way

/-- A folder with the files that it had at first and those that have been written since. -/
structure Folder where
  /-- The files at first. -/
  given : List (Way × ByteArray)
  /-- The files that have been written, the last one first. -/
  written : List (Way × String) := []

namespace Folder

/-- The greatest number of bytes of a name. -/
def longestName : Nat := 255

/-- The greatest number of bytes of a path. -/
def longestPath : Nat := 4095

variable (folder : Folder)

/-- The bytes of the file at the end of a way. -/
def content? (way : Way) : Option ByteArray :=
  if way = Way.void then some .empty
  else
    match folder.written.lookup way with
    | some text => some text.toUTF8
    | none => folder.given.lookup way

/-- Whether a way leads to a directory: upwards, at the top, or on the way to a file. -/
def isDirectory (way : Way) : Bool :=
  let holds (file : Way) : Bool := way.isPrefixOf file && way.length < file.length
  way.isUpwards || way.isAtTop || folder.given.any (holds ·.1) || folder.written.any (holds ·.1)

/-- Follow a name from a directory to a directory. -/
def enter (way : Way) (name : String) : Except PathError Way :=
  if name = "." then .ok way
  else if name = ".." then .ok way.up
  else if name.utf8ByteSize > longestName then .error .tooLong
  else
    let way := way ++ [name]
    if folder.isDirectory way then .ok way
    else .error (if (folder.content? way).isSome then .notDirectory else .missing)

/-- The names on a path. -/
def names (path : String) : List String := (path.splitOn "/").filter (· ≠ "")

/-- The directory in which the last name of a path stands, and that name. The path that is only
slashes has no name. -/
def parent (path : String) : Except PathError (Way × Option String) := do
  if path.contains '\x00' then throw .nul
  if path.isEmpty then throw .missing
  if path.utf8ByteSize > longestPath then throw .tooLong
  let way ← (names path).dropLast.foldlM folder.enter (if path.startsWith "/" then ["/"] else [])
  return (way, (names path).getLast?)

/-- The way to the file at a path, whether or not there is one. To create it, the path must not end
in a slash; to read it, the slash is wrong only behind a file. -/
def locate (creating : Bool) (path : String) : Except PathError Way := do
  let (way, some name) ← folder.parent path | throw .directory
  if name = "." ∨ name = ".." then throw .directory
  let slash := path.endsWith "/"
  if creating ∧ slash then throw .directory
  if name.utf8ByteSize > longestName then throw .tooLong
  let way := way ++ [name]
  if folder.isDirectory way then throw .directory
  if slash ∧ (folder.content? way).isSome then throw .notDirectory
  return way

/-- The bytes of the file at a path. -/
def read (path : String) : Except PathError ByteArray := do
  match folder.content? (← folder.locate false path) with
  | some bytes => return bytes
  | none => throw .missing

/-- Put a text at the end of a way. -/
def put (way : Way) (text : String) : Folder :=
  { folder with written := (way, text) :: folder.written.filter fun file => file.1 ≠ way }

/-- Begin the file at a path. -/
def create (path : String) : Except PathError Folder := do
  return folder.put (← folder.locate true path) ""

/-- Fill the file at a path. A path at which there can be no file changes nothing. -/
def write (path text : String) : Folder :=
  match folder.locate true path with
  | .ok way => folder.put way text
  | .error _ => folder

/-- The files inside the folder that were not there at first, in the order in which they were
written. -/
def added : List (Way × String) :=
  folder.written.reverse.filter fun file =>
    !Way.isUpwards (file.1.take 1) && (folder.given.lookup file.1).isNone

/-- A file that has been put somewhere is found there, unless it has vanished. -/
theorem content?_put {way : Way} (h : way ≠ Way.void) (text : String) :
    (folder.put way text).content? way = some text.toUTF8 := by
  simp [put, content?, h]

end Folder

end TrellisTagger

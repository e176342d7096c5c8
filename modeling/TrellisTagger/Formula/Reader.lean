import TrellisTagger.Formula.Name

/-!
# Reading formulas

A formula is a row of characters, named symbols, groups in braces and commands with arguments, each
of which may have an index below or above. A reader takes the characters that are left and returns
those that it leaves, or says why it cannot go on. It may be that another reader can; but once a
command is recognized, what is wrong with its arguments is a fault of the whole formula.

## Main definitions

* `TrellisTagger.Formula.Complaint` — what can be wrong with a formula.
* `TrellisTagger.Formula.Failure` — why a reader cannot go on.
* `TrellisTagger.Formula.token` — one part of a formula.
* `TrellisTagger.Formula.read` — a whole formula.

## Implementation notes

The readers of parts call one another, with a bound on the depth of the calls. Every character takes
only a few calls, so a multiple of the length of the formula suffices.
-/

namespace TrellisTagger.Formula

/-- What can be wrong with a formula. -/
inductive Complaint where
  /-- Something other than what can stand there. -/
  | unexpected
  /-- Something other than an opening brace. -/
  | noOpening
  /-- Something other than the closing brace of a group. -/
  | noClosing
  /-- The formula ends inside a group. -/
  | unclosed
  /-- The arguments of a command do not follow it. -/
  | noArguments (usage : String)
  /-- No delimiter. -/
  | noDelimiter
  /-- No closing delimiter. -/
  | noRight
  /-- A name that stands for nothing. -/
  | unknownName (name : List Char)
  /-- Two indices below one another's place. -/
  | twoBelow
  /-- Two indices above one another's place. -/
  | twoAbove
  deriving DecidableEq

/-- A fault of a whole formula. -/
structure Fault where
  /-- What is wrong. -/
  complaint : Complaint
  /-- The characters from the fault on, if it has a place. -/
  rest : Option (List Char)
  /-- Whether the fault lies behind a command that has been recognized. -/
  committed : Bool
  deriving DecidableEq

/-- Why a reader cannot go on. -/
inductive Failure where
  /-- It is the wrong one for the characters at some place. -/
  | mismatch (complaint : Complaint) (rest : List Char)
  /-- The whole formula is at fault. -/
  | fault (f : Fault)

/-- A reader of the characters that are left. -/
abbrev Reader := List Char → Except Failure (List Char)

namespace Reader

/-- Read with another reader where the first is the wrong one. -/
def orElse (first second : Reader) : Reader := fun l =>
  match first l with
  | .error (.mismatch _ _) => second l
  | outcome => outcome

/-- Read if possible. -/
def optional (r : Reader) : Reader := r.orElse .ok

/-- Take what is wrong for a fault of the whole formula. -/
def commit (r : Reader) : Reader := fun l =>
  match r l with
  | .error (.mismatch complaint rest) => .error (.fault ⟨complaint, some rest, true⟩)
  | .error (.fault f) => .error (.fault { f with committed := true })
  | outcome => outcome

/-- Read one reader after another. -/
def andThen (first second : Reader) : Reader := fun l => do second (← first l)

/-- Read, or else complain about the place where reading begins. -/
def orComplain (r : Reader) (complaint : Complaint) : Reader := fun l =>
  match r l with
  | .error (.mismatch _ _) => .error (.fault ⟨complaint, some l, true⟩)
  | outcome => outcome

end Reader

/-- The wrong reader for what is there. -/
def mismatch : Reader := fun l => .error (.mismatch .unexpected l)

/-- Read a text. -/
def literal (s : String) (complaint : Complaint := .unexpected) : Reader := fun l =>
  if s.toList.isPrefixOf l then .ok (l.drop s.length) else .error (.mismatch complaint l)

/-- Read the longest of some texts. -/
def oneOf (texts : List (List Char)) : Reader := fun l =>
  let fitting := texts.filter fun s => s.isPrefixOf l
  match (fitting.map List.length).foldl max 0 with
  | 0 => mismatch l
  | n => .ok (l.drop n)

/-- Whether a character is a letter of ASCII. -/
def isNameLetter (c : Char) : Bool := c.isAlpha

/-- Read a backslash and one of some names, behind which no letter stands. -/
def name (names : List (List Char)) : Reader := fun l =>
  match l with
  | '\\' :: r => if names.contains (r.takeWhile isNameLetter) then .ok (r.dropWhile isNameLetter)
    else mismatch l
  | _ => mismatch l

/-- Whether a character stands for itself. -/
def isPlain (c : Char) : Bool :=
  c.isAlphanum || " +-*/<>=:,.;!?&'@()[]|".toList.contains c ||
    (0x80 ≤ c.toNat && c.toNat ≤ 0x1FFFF)

/-- Read a character, or the name of one. -/
def symbol : Reader := fun l =>
  match l with
  | '\\' :: '#' :: r => if r.head?.any isNameLetter then mismatch l else .ok r
  | '\\' :: c :: r =>
    if ['%', '$', '\x7b', '\x7d', '[', ']', '_', '|'].contains c then .ok r else name Name.symbols l
  | c :: r => if isPlain c then .ok r else mismatch l
  | [] => mismatch l

/-- Read the name of an accent. -/
def accent : Reader := fun l =>
  match l with
  | '\\' :: c :: r => if Name.accentSigns.contains c then .ok r else name Name.accents l
  | _ => mismatch l

/-- Read a number. -/
def number : Reader := fun l =>
  let unsigned := match l with
    | '-' :: r | '+' :: r => r
    | _ => l
  let whole := unsigned.takeWhile Char.isDigit
  let r := unsigned.drop whole.length
  match r with
  | '.' :: s =>
    if whole.isEmpty && !s.head?.any Char.isDigit then mismatch l
    else .ok (s.dropWhile Char.isDigit)
  | _ => if whole.isEmpty then mismatch l else .ok r

/-- What is left behind the closing brace of a text, in which a backslash and the character behind
it stand together. -/
def afterBrace : List Char → Option (List Char)
  | '\x7d' :: r => some r
  | '\\' :: _ :: r => afterBrace r
  | '\\' :: [] => none
  | _ :: r => afterBrace r
  | [] => none

/-- Read a text in braces. -/
def bracedText : Reader := fun l =>
  match l with
  | '\x7b' :: r => (afterBrace r).elim (mismatch l) .ok
  | _ => mismatch l

/-- Read an opening brace. -/
def opening : Reader := literal "\x7b" .noOpening

/-- Read a closing brace. -/
def closing : Reader := literal "\x7d" .noClosing

/-- Read what opens a group: a brace, before which a font may be named. -/
def groupOpening : Reader :=
  Reader.andThen (Reader.optional (Reader.andThen (literal "\\math") (oneOf Name.fonts))) opening

/-- Read a command and its arguments. -/
def command (name usage : String) (arguments : Reader) : Reader :=
  Reader.andThen (literal name) (arguments.orComplain (.noArguments (name ++ usage))).commit

/-- Read a delimiter. -/
def delimiter : Reader := (oneOf Name.delimiters).orComplain .noDelimiter

/-- Read a part as often as possible, at most a number of times. -/
def many (part : Reader) : Nat → Reader
  | 0, l => .ok l
  | bound + 1, l =>
    match part l with
    | .ok rest => if rest.length < l.length then many part bound rest else .ok rest
    | .error (.mismatch _ _) => .ok l
    | .error (.fault f) => .error (.fault f)

/-- Read a part as often as possible, and at least once. -/
def many1 (part : Reader) : Reader := fun l => do many part l.length (← part l)

/-- Read one argument after another. -/
def sequence (parts : List Reader) : Reader := fun l => parts.foldlM (fun l part => part l) l

/-- Read something in braces. -/
def braced (inside : Reader) : Reader := sequence [literal "\x7b", inside, literal "\x7d"]

/-- Read a space, or the command for one. -/
def space : Reader :=
  (oneOf Name.spaces).orElse (command "\\hspace" "\x7bspace\x7d" (braced number))

/-- The complaint about the first mark of a second index at one place, given the places that are
taken. -/
def secondIndex? (below above : Bool) : List Char → Option Complaint
  | '_' :: rest => if below then some .twoBelow else secondIndex? true above rest
  | _ :: rest => if above then some .twoAbove else secondIndex? below true rest
  | [] => none

/-- Complain about two indices at one place, if there are. -/
def checkIndices (marks : List Char) : Except Failure Unit :=
  match secondIndex? false false marks with
  | some complaint => .error (.fault ⟨complaint, none, false⟩)
  | none => .ok ()

/-- Read indices, at most a number of them: the marks before them, and what is left. -/
def indices (place : Reader) : Nat → List Char → Except Failure (List Char × List Char)
  | 0, l => .ok ([], l)
  | bound + 1, l =>
    match l with
    | '_' :: r => do
      let (marks, rest) ← indices place bound (← place.commit r)
      return ('_' :: marks, rest)
    | '^' :: r => do
      let (marks, rest) ← indices place bound (← place.commit r)
      return ('^' :: marks, rest)
    | _ => .ok ([], l)

/-- Read something with its indices and primes, or indices and primes on their own. -/
def withIndices (place : Reader) : Reader := fun l =>
  let isMark (l : List Char) : Bool := l.head?.any fun c => c == '_' || c == '^'
  let isPrime (c : Char) : Bool := c == '\''
  match place l with
  | .error (.fault f) => .error (.fault f)
  | .error (.mismatch complaint rest) =>
    if isMark l then do
      let (marks, rest) ← indices place l.length l
      checkIndices marks
      return rest.dropWhile isPrime
    else .error (.mismatch complaint rest)
  | .ok rest =>
    if isMark rest then do
      let (marks, rest) ← indices place rest.length rest
      checkIndices marks
      return rest.dropWhile isPrime
    else .ok ((if l.head?.any isPrime then l else rest).dropWhile isPrime)

/-- Give a fault without a place the place where a reader began, unless it lies behind a command. -/
def placed (r : Reader) : Reader := fun l =>
  match r l with
  | .error (.fault ⟨complaint, none, false⟩) => .error (.fault ⟨complaint, some l, false⟩)
  | outcome => outcome

/-- Read a name that stands for nothing, which is a fault. -/
def unknownName : Reader := fun l =>
  match l with
  | '\\' :: r =>
    if r.head?.any isNameLetter then
      .error (.fault ⟨.unknownName ('\\' :: r.takeWhile isNameLetter), some l, false⟩)
    else mismatch l
  | _ => mismatch l

/-- Read a group that is not closed, which is a fault. -/
def unclosedGroup (inside : Reader) : Reader := fun l => do
  let rest ← inside (← groupOpening l)
  if rest.isEmpty then throw (.fault ⟨.unclosed, some [], false⟩) else mismatch rest

mutual

/-- Read a part of a formula that can have indices. -/
def place : Nat → Reader
  | 0, l => mismatch l
  | depth + 1, l =>
    let simples := many (simple depth) l.length
    let tokens := many (token depth) l.length
    let filled := braced (many1 (token depth))
    let row := braced tokens
    let group := sequence [groupOpening, tokens, closing]
    let root := sequence [literal "[", many1 (fun l =>
      if l.head? = some ']' then mismatch l else token depth l), literal "]"]
    let others := (Reader.andThen accent (place depth).commit)
      |>.orElse symbol
      |>.orElse (name Name.functions)
      |>.orElse (command "\\operatorname" "\x7bname\x7d" (braced simples))
      |>.orElse (command "\\frac" "\x7bnum\x7d\x7bden\x7d" (sequence [filled, filled]))
      |>.orElse (command "\\dfrac" "\x7bnum\x7d\x7bden\x7d" (sequence [filled, filled]))
      |>.orElse (command "\\binom" "\x7bnum\x7d\x7bden\x7d" (sequence [filled, filled]))
      |>.orElse (command "\\genfrac"
        ("\x7bldelim\x7d\x7brdelim\x7d\x7brulesize\x7d" ++ "\x7bstyle\x7d\x7bnum\x7d\x7bden\x7d")
        (sequence [braced (Reader.optional (oneOf Name.delimiters)),
          braced (Reader.optional (oneOf Name.delimiters)), braced number,
          braced (Reader.optional (oneOf [['0'], ['1'], ['2'], ['3']])), filled, filled]))
      |>.orElse (command "\\overset" "\x7bannotation\x7d\x7bbody\x7d" (sequence [row, row]))
      |>.orElse (command "\\underset" "\x7bannotation\x7d\x7bbody\x7d" (sequence [row, row]))
      |>.orElse (command "\\sqrt" "\x7bvalue\x7d" (sequence [Reader.optional root, filled]))
      |>.orElse (command "\\overline" "\x7bbody\x7d" filled)
      |>.orElse (command "\\text" "" bracedText)
      |>.orElse (command "\\boldsymbol" "\x7bvalue\x7d" (braced simples))
      |>.orElse (command "\\substack" "\x7bparts\x7d" (braced (many (Reader.andThen
        (many1 (token depth)) (many (literal "\\\\") l.length)) l.length)))
    match group l with
    | .error (.mismatch complaint rest) =>
      match others l with
      | .error (.mismatch _ _) =>
        .error
          (if rest.length < l.length then .mismatch complaint rest else .mismatch .unexpected l)
      | outcome => outcome
    | outcome => outcome

/-- Read a part of a formula other than a delimited one. -/
def simple : Nat → Reader
  | 0, l => mismatch l
  | depth + 1, l =>
    (space.orElse ((name Name.fonts).orElse (withIndices (place depth)))) l

/-- Read a part of a formula between delimiters. -/
def delimited : Nat → Reader
  | 0, l => mismatch l
  | depth + 1, l =>
    let middle := Reader.andThen (literal "\\middle") delimiter
    let inside := (simple depth).orElse ((delimited depth).orElse middle)
    (Reader.andThen (literal "\\left") (Reader.commit (sequence
      [delimiter, many inside l.length, literal "\\right" .noRight, delimiter]))) l

/-- Read a part of a formula. -/
def token : Nat → Reader
  | 0, l => mismatch l
  | depth + 1, l =>
    placed ((simple depth).orElse ((delimited depth).orElse
      ((unclosedGroup (many (token depth) l.length)).orElse unknownName))) l

end

/-- Read a whole formula: at least one part, and nothing behind the last one. -/
def read (l : List Char) : Except Failure Unit := do
  let rest ← many1 (token (4 * l.length + 4)) l
  if rest.isEmpty then return () else throw (.mismatch .unexpected rest)

end TrellisTagger.Formula

import TrellisTagger.Formula.Reader
import TrellisTagger.Text.Quoted

/-!
# Labels with formulas

A label of a picture can have formulas between dollar signs. A dollar sign behind a backslash is one
that is shown. Only a label with an even number of other dollar signs, of which there is at least
one, is taken to have formulas; any other is shown as it is.

## Main definitions

* `TrellisTagger.Formula.isIn` — whether a label has formulas.
* `TrellisTagger.Formula.LabelError` — what is wrong with a label, and where.
* `TrellisTagger.Formula.labelError?` — the first error of a label, if there is one.
-/

namespace TrellisTagger.Formula

/-- The number of dollar signs that bound formulas. -/
def boundCount : List Char → Nat
  | '\\' :: '$' :: l => boundCount l
  | '$' :: l => boundCount l + 1
  | _ :: l => boundCount l
  | [] => 0

/-- Whether a label has formulas. -/
def isIn (label : List Char) : Bool := boundCount label != 0 && boundCount label % 2 == 0

/-- What is left of a label behind the text before its next formula. -/
def afterText : List Char → List Char
  | '\\' :: '$' :: l => afterText l
  | '$' :: l => '$' :: l
  | _ :: l => afterText l
  | [] => []

/-- The characters of a formula up to the dollar sign that ends it, and what is left of the label. A
backslash and the character behind it stand together. -/
def untilBound : List Char → Option (List Char × List Char)
  | '$' :: l => some ([], l)
  | '\\' :: c :: l => (untilBound l).map fun (inside, rest) => ('\\' :: c :: inside, rest)
  | ['\\'] => none
  | c :: l => (untilBound l).map fun (inside, rest) => (c :: inside, rest)
  | [] => none

/-- What is wrong with a label, and where. -/
structure LabelError where
  /-- The name of the kind of error. -/
  kind : String
  /-- The wording of what is wrong. -/
  wording : String
  /-- The text in which something is wrong: the label, a formula of it, or nothing. -/
  text : List Char
  /-- The place in the text. -/
  place : Nat
  deriving DecidableEq

namespace Complaint

/-- The wording of a complaint. -/
def wording : Complaint → String
  | unexpected =>
    "Expected \x7baccent | symbol | function | operatorname | group | frac | dfrac | binom | " ++
      "genfrac | overset | underset | sqrt | overline | text | boldsymbol | substack\x7d"
  | noOpening => "Expected '\x7b'"
  | noClosing => "Expected end_group"
  | unclosed => "Expected '\x7d'"
  | noArguments usage => "Expected " ++ usage
  | noDelimiter => "Expected a delimiter"
  | noRight => "Expected '\\\\right'"
  | unknownName name => "Unknown symbol: " ++ String.ofList name
  | twoBelow => "Double subscript"
  | twoAbove => "Double superscript"

end Complaint

/-- A fault of a formula as the error of its label. A fault without a place shows no text. -/
def Fault.labelError (f : Fault) (formula : List Char) : LabelError where
  kind := if f.committed then "ParseSyntaxException" else "ParseFatalException"
  wording := f.complaint.wording
  text := if f.rest.isSome then formula else []
  place := f.rest.elim 0 fun rest => formula.length - rest.length

namespace LabelError

/-- The greatest length of a word that is shown. -/
def longestWord : Nat := 16

/-- What is found where something is wrong: a word of letters and digits, or one other character. -/
def found (e : LabelError) : String :=
  let rest := e.text.drop e.place
  let word := (rest.takeWhile Char.isAlphanum).take longestWord
  if e.text.isEmpty then ""
  else if rest.isEmpty then ", found end of text"
  else
    let shown := quoted (String.ofList (if word.isEmpty then rest.take 1 else word))
    ", found " ++ shown.replace "\\\\" "\\"

/-- The text of an error: the label or formula, a mark below the place, and what is wrong. -/
def message (e : LabelError) : String :=
  "\n" ++ String.ofList e.text ++ "\n" ++ "".pushn ' ' e.place ++ "^\n" ++ e.kind ++ ": " ++
    e.wording ++
    e.found ++ "  (at char " ++ toString e.place ++ "), (line:1, col:" ++
    toString (e.place + 1) ++ ")"

end LabelError

/-- The first error of a label that has formulas, given what is left of it and a bound on the number
of formulas. -/
def errorFrom (label : List Char) : Nat → List Char → Option LabelError
  | 0, _ => none
  | bound + 1, l =>
    let rest := afterText l
    let notRead : LabelError :=
      ⟨"ParseException", "Expected end of text", label, label.length - rest.length⟩
    match rest with
    | [] => none
    | _ :: r =>
      match untilBound r with
      | none => some notRead
      | some (formula, after) =>
        match read formula with
        | .ok () => errorFrom label bound after
        | .error (.mismatch _ _) => some notRead
        | .error (.fault f) => some (f.labelError formula)

/-- The first error of a label, if there is one. -/
def labelError? (label : String) : Option LabelError :=
  let l := label.toList
  if isIn l then errorFrom l (l.length + 1) l else none

end TrellisTagger.Formula

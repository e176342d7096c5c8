/-!
# Texts of code points

A character outside the basic plane is written in JSON as a pair of code units, and nothing forbids
half of a pair on its own. So a text that comes from JSON is a list of code points, of which some
may be no characters.

## Main definitions

* `TrellisTagger.CodePoints` — the type of such texts.
* `TrellisTagger.CodePoints.ofString` — a text of characters as code points.
* `TrellisTagger.CodePoints.text` — the characters of a text.

## Main results

* `TrellisTagger.CodePoints.text_ofString` — a text of characters keeps its characters.
-/

namespace TrellisTagger

/-- A text of code points, some of which may be halves of pairs. -/
structure CodePoints where
  /-- The code points. -/
  points : List Nat
  deriving DecidableEq

namespace CodePoints

/-- Whether a code point is half of a pair. -/
def isHalf (n : Nat) : Bool := 0xD800 ≤ n && n < 0xE000

/-- A text of characters. -/
def ofString (s : String) : CodePoints := ⟨s.toList.map Char.toNat⟩

/-- The character of a code point, the replacement character for half of a pair. -/
def character (n : Nat) : Char := if isHalf n then '\uFFFD' else Char.ofNat n

/-- The characters of a text, with the replacement character for every half of a pair. -/
def text (s : CodePoints) : String := String.ofList (s.points.map character)

/-- The character of the code point of a character is that character. -/
theorem character_toNat (c : Char) : character c.toNat = c := by
  have h : isHalf c.toNat = false := by
    simp only [isHalf, Bool.and_eq_false_imp, decide_eq_true_eq, decide_eq_false_iff_not]
    rcases c.valid with hc | ⟨hc, _⟩ <;> simp only [Char.toNat] <;> omega
  rw [character, h]
  exact Char.ofNat_toNat c

/-- **A text of characters keeps its characters** when it is taken for a text of code points. -/
theorem text_ofString (s : String) : (ofString s).text = s := by
  have h : character ∘ Char.toNat = id := funext character_toNat
  rw [text, ofString, List.map_map, h, List.map_id, String.ofList_toList]

end CodePoints

end TrellisTagger

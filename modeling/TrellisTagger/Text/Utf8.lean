/-!
# Bytes as text

Text is kept as bytes in UTF-8. The bytes are read from the left, and after each of them it is known
which ones may come next in a text. So bytes that are no text have a first byte at which that shows,
or they end inside a character.

## Main definitions

* `TrellisTagger.Utf8.Missing` — what a character that has begun still lacks.
* `TrellisTagger.Utf8.next?` — reading one more byte.
* `TrellisTagger.Utf8.faultIndex?` — the first byte with which no text goes on.
* `TrellisTagger.Utf8.wholeText` — the characters of bytes that may end inside a character.

## Main results

* `TrellisTagger.Utf8.faultIndex?_lt_length` — the byte at fault is one of those read.
* `TrellisTagger.Utf8.faultIndex?_take` — there is no fault before it.
-/

namespace TrellisTagger.Utf8

/-- The bytes that a character still lacks, each as the range in which it has to lie. Between
characters nothing is missing. -/
abbrev Missing := List (UInt8 × UInt8)

/-- The range of a byte inside a character, where nothing else is known. -/
def inner : UInt8 × UInt8 := (0x80, 0xBF)

/-- The bytes that have to follow the first one of a character. No character begins with a byte of
the inner range, with one that would waste a byte, or with one that leads beyond the last code
point. -/
def following? (b : UInt8) : Option Missing :=
  if b ≤ 0x7F then some []
  else if b ≤ 0xC1 then none
  else if b ≤ 0xDF then some [inner]
  else if b = 0xE0 then some [(0xA0, 0xBF), inner]
  else if b = 0xED then some [(0x80, 0x9F), inner]
  else if b ≤ 0xEF then some [inner, inner]
  else if b = 0xF0 then some [(0x90, 0xBF), inner, inner]
  else if b ≤ 0xF3 then some [inner, inner, inner]
  else if b = 0xF4 then some [(0x80, 0x8F), inner, inner]
  else none

/-- What is missing after one more byte, if a text may go on with it. -/
def next? : Missing → UInt8 → Option Missing
  | [], b => following? b
  | (low, high) :: rest, b => if low ≤ b && b ≤ high then some rest else none

/-- The index of the first byte with which no text goes on, given what is missing before the
bytes. -/
def faultIndex? (missing : Missing) : List UInt8 → Option Nat
  | [] => none
  | b :: rest =>
    match next? missing b with
    | none => some 0
    | some missing => (faultIndex? missing rest).map (· + 1)

/-- A fault is found at one of the bytes. -/
theorem faultIndex?_lt_length {missing : Missing} {bytes : List UInt8} {i : Nat}
    (h : faultIndex? missing bytes = some i) : i < bytes.length := by
  induction bytes generalizing missing i with
  | nil => cases h
  | cons b rest ih =>
    rw [faultIndex?] at h
    cases hn : next? missing b with
    | none =>
      rw [hn] at h
      cases h
      simp
    | some missing =>
      rw [hn] at h
      obtain ⟨j, hj, rfl⟩ := Option.map_eq_some_iff.1 h
      simpa using ih hj

/-- **The fault that is found is the first one**: the bytes before it have none. -/
theorem faultIndex?_take {missing : Missing} {bytes : List UInt8} {i : Nat}
    (h : faultIndex? missing bytes = some i) : faultIndex? missing (bytes.take i) = none := by
  induction bytes generalizing missing i with
  | nil => cases h
  | cons b rest ih =>
    rw [faultIndex?] at h
    cases hn : next? missing b with
    | none =>
      rw [hn] at h
      cases h
      rfl
    | some missing =>
      rw [hn] at h
      obtain ⟨j, hj, rfl⟩ := Option.map_eq_some_iff.1 h
      simp [faultIndex?, hn, ih hj]

/-- The characters of bytes without a fault. The last character may have begun and not ended; it has
at most three bytes then, which are left out. -/
def wholeText (bytes : List UInt8) : List Char :=
  let text? (leftOut : Nat) : Option String :=
    String.fromUTF8? ⟨(bytes.take (bytes.length - leftOut)).toArray⟩
  (((List.range 4).findSome? text?).getD "").toList

end TrellisTagger.Utf8

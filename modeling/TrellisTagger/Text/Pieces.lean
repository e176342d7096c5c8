/-!
# Cutting lists at separators

Lines, fields and sentences are all cut in the same way: at every element that is a separator. Where
several separators in a row count as one, the empty pieces between them are dropped.

## Main definitions

* `TrellisTagger.pieces` — the pieces between the separators, empty ones included.
* `TrellisTagger.runs` — the pieces that are not empty.

## Main results

* `TrellisTagger.pieces_cons` — a separator begins a new piece, any other element joins the first.
* `TrellisTagger.not_of_mem_pieces` — no piece holds a separator.
-/

namespace TrellisTagger

universe u

variable {α : Type u} (isSeparator : α → Bool)

/-- Put an element before a list of pieces: a separator opens an empty piece, anything else joins
the first piece. -/
def cut (a : α) (pieces : List (List α)) : List (List α) :=
  if isSeparator a then [] :: pieces else (a :: pieces.headD []) :: pieces.tail

/-- The pieces between the separators of a list. There is one more than there are separators. -/
def pieces (l : List α) : List (List α) := l.foldr (cut isSeparator) [[]]

/-- The longest stretches of a list without separators. -/
def runs (l : List α) : List (List α) := (pieces isSeparator l).filter fun piece => !piece.isEmpty

/-- Nothing is one empty piece. -/
@[simp] theorem pieces_nil : pieces isSeparator ([] : List α) = [[]] := rfl

/-- An element in front of a list is put into its first piece, or separates it from an empty one. -/
theorem pieces_cons (a : α) (l : List α) :
    pieces isSeparator (a :: l) = cut isSeparator a (pieces isSeparator l) := rfl

/-- There is always a piece. -/
theorem pieces_ne_nil (l : List α) : pieces isSeparator l ≠ [] := by
  cases l with
  | nil => simp
  | cons a l =>
    rw [pieces_cons, cut]
    split <;> simp

/-- No piece holds a separator. -/
theorem not_of_mem_pieces {l piece : List α} {a : α} (h : piece ∈ pieces isSeparator l)
    (ha : a ∈ piece) : isSeparator a = false := by
  induction l generalizing piece with
  | nil =>
    obtain rfl : piece = [] := by simpa using h
    cases ha
  | cons b l ih =>
    rw [pieces_cons] at h
    cases hp : pieces isSeparator l with
    | nil => exact absurd hp (pieces_ne_nil isSeparator l)
    | cons first rest =>
      rw [hp] at ih h
      by_cases hb : isSeparator b
      · rw [cut, if_pos hb] at h
        rcases List.mem_cons.1 h with rfl | h
        · cases ha
        · exact ih h ha
      · rw [cut, if_neg hb] at h
        rcases List.mem_cons.1 h with rfl | h
        · rcases List.mem_cons.1 ha with rfl | ha
          · simpa using hb
          · exact ih List.mem_cons_self ha
        · exact ih (List.mem_cons_of_mem _ h) ha

end TrellisTagger

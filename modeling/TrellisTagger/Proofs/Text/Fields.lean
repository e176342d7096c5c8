import Mathlib.Data.List.Basic
import Mathlib.Tactic.Lemma
import TrellisTagger.Text.Blank
import TrellisTagger.Text.Lines

/-!
# Put together and cut again

Pieces without separators that are put together with a separator after each of them are what cutting
gives back. So the lines of a text that is written line by line are the lines written, and the
fields of a line that is written field by field are the fields written, if they are not empty.

## Main results

* `TrellisTagger.pieces_append_cons`, `TrellisTagger.runs_append_cons` — what stands on both sides
  of a separator is cut on its own.
* `TrellisTagger.runs_flatMap_append` — runs that are ended by separators are cut out again.
* `TrellisTagger.mem_runs` — a run is not empty and holds no separator.
* `TrellisTagger.lines_flatMap` — lines that are ended by line feeds are read back.
* `TrellisTagger.fields_append_cons` — two fields with a blank between them are read back.
-/

namespace TrellisTagger

universe u

/-! ### Separators -/

section Separators

variable {α : Type u} {isSeparator : α → Bool} {a : α}

/-- The pieces of a list before a separator and those of the list after it. -/
lemma pieces_append_cons (ha : isSeparator a = true) (l r : List α) :
    pieces isSeparator (l ++ a :: r) = pieces isSeparator l ++ pieces isSeparator r := by
  induction l with
  | nil =>
    rw [List.nil_append, pieces_cons, cut, if_pos ha]
    rfl
  | cons b l ih =>
    rw [List.cons_append, pieces_cons, ih, pieces_cons]
    unfold cut
    split
    · rfl
    · -- what comes first joins the first piece, which is one of the left list
      obtain ⟨piece, rest, hl⟩ := List.exists_cons_of_ne_nil (pieces_ne_nil isSeparator l)
      rw [hl]
      rfl

/-- A list without separators is one piece. -/
lemma pieces_of_forall_not {l : List α} (h : ∀ b ∈ l, isSeparator b = false) :
    pieces isSeparator l = [l] := by
  induction l with
  | nil => rfl
  | cons b l ih =>
    rw [List.forall_mem_cons] at h
    rw [pieces_cons, ih h.2, cut, h.1]
    rfl

/-- Pieces that each are ended by a separator leave an empty piece after the last one. -/
lemma pieces_flatMap_append (ha : isSeparator a = true) {stretches : List (List α)}
    (h : ∀ s ∈ stretches, ∀ b ∈ s, isSeparator b = false) :
    pieces isSeparator (stretches.flatMap (· ++ [a])) = stretches ++ [[]] := by
  induction stretches with
  | nil => rfl
  | cons s stretches ih =>
    rw [List.forall_mem_cons] at h
    rw [List.flatMap_cons, List.append_assoc, List.singleton_append, pieces_append_cons ha,
      pieces_of_forall_not h.1, ih h.2]
    rfl

/-- The runs of a list before a separator and those of the list after it. -/
lemma runs_append_cons (ha : isSeparator a = true) (l r : List α) :
    runs isSeparator (l ++ a :: r) = runs isSeparator l ++ runs isSeparator r := by
  rw [runs, pieces_append_cons ha, List.filter_append]
  rfl

/-- A list without separators is one run, unless it is empty. -/
lemma runs_of_forall_not {l : List α} (h : ∀ b ∈ l, isSeparator b = false) :
    runs isSeparator l = if l = [] then [] else [l] := by
  rw [runs, pieces_of_forall_not h]
  cases l <;> rfl

/-- **A run is not empty and holds no separator.** -/
lemma mem_runs {l run : List α} (h : run ∈ runs isSeparator l) :
    run ≠ [] ∧ ∀ b ∈ run, isSeparator b = false := by
  obtain ⟨hpiece, hne⟩ := List.mem_filter.1 h
  refine ⟨?_, fun b hb => not_of_mem_pieces isSeparator hpiece hb⟩
  rintro rfl
  cases hne

/-- A run is part of the list. -/
lemma mem_of_mem_runs {l run : List α} (h : run ∈ runs isSeparator l) {b : α} (hb : b ∈ run) :
    b ∈ l := by
  have hpiece := (List.mem_filter.1 h).1
  clear h
  induction l generalizing run with
  | nil =>
    obtain rfl : run = [] := by simpa using hpiece
    cases hb
  | cons c l ih =>
    obtain ⟨first, rest, hl⟩ := List.exists_cons_of_ne_nil (pieces_ne_nil isSeparator l)
    rw [pieces_cons, hl, cut] at hpiece
    rw [hl] at ih
    split at hpiece
    · rcases List.mem_cons.1 hpiece with rfl | hpiece
      · cases hb
      · exact List.mem_cons_of_mem _ (ih hb hpiece)
    · rcases List.mem_cons.1 hpiece with rfl | hpiece
      · rcases List.mem_cons.1 hb with rfl | hb
        · exact List.mem_cons_self
        · exact List.mem_cons_of_mem _ (ih hb List.mem_cons_self)
      · exact List.mem_cons_of_mem _ (ih hb (List.mem_cons_of_mem _ hpiece))

/-- **Runs that are ended by separators are cut out again.** -/
theorem runs_flatMap_append (ha : isSeparator a = true) {stretches : List (List α)}
    (h : ∀ s ∈ stretches, s ≠ [] ∧ ∀ b ∈ s, isSeparator b = false) :
    runs isSeparator (stretches.flatMap (· ++ [a])) = stretches := by
  have hpieces := pieces_flatMap_append ha fun s hs => (h s hs).2
  rw [runs, hpieces, List.filter_append, List.filter_eq_self.2]
  · exact List.append_nil _
  · intro s hs
    simpa using (h s hs).1

end Separators

/-! ### Lines -/

/-- Where there is no carriage return, the line ends are as they should be. -/
lemma unifyBreaks_of_not_mem {text : List Char} (h : '\r' ∉ text) : unifyBreaks text = text := by
  have hkept : unifyBreaks text = ((none :: text.map some).zip text).map Prod.snd := by
    rw [unifyBreaks, List.filterMap_eq_map_iff_forall_eq_some]
    rintro ⟨before, c⟩ hmem
    obtain ⟨hbefore, hc⟩ := List.of_mem_zip hmem
    have hne : before ≠ some '\r' := by
      rintro rfl
      simp [h] at hbefore
    have hne' : c ≠ '\r' := fun hr => h (hr ▸ hc)
    simp [hne, hne']
  rw [hkept, List.map_snd_zip (by simp)]

/-- **Lines that are ended by line feeds are read back.** -/
theorem lines_flatMap {ls : List (List Char)} (h : ∀ l ∈ ls, '\n' ∉ l ∧ '\r' ∉ l) :
    lines (ls.flatMap (· ++ ['\n'])) = ls := by
  have hreturn : '\r' ∉ ls.flatMap (· ++ ['\n']) := by
    intro hmem
    obtain ⟨l, hl, hmem⟩ := List.mem_flatMap.1 hmem
    rcases List.mem_append.1 hmem with hmem | hmem
    · exact (h l hl).2 hmem
    · simp at hmem
  have hpieces : pieces (· == '\n') (ls.flatMap (· ++ ['\n'])) = ls ++ [[]] := by
    refine pieces_flatMap_append rfl fun l hl c hc => ?_
    have hne : c ≠ '\n' := fun hn => (h l hl).1 (hn ▸ hc)
    simpa using hne
  rw [lines, linesAt, unifyBreaks_of_not_mem hreturn, hpieces]
  simp

/-! ### Fields -/

/-- **Two fields with a blank between them are read back**, as far as they are not empty. -/
theorem fields_append_cons {b : Char} (hb : isBlank b = true) {first second : List Char}
    (hfirst : ∀ c ∈ first, isBlank c = false) (hsecond : ∀ c ∈ second, isBlank c = false) :
    fields (first ++ b :: second) =
      (if first = [] then [] else [first]) ++ if second = [] then [] else [second] := by
  rw [fields, runs_append_cons hb, runs_of_forall_not hfirst, runs_of_forall_not hsecond]

end TrellisTagger

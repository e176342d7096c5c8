import TrellisTagger.Proofs.Text.Fields

/-!
# How texts are put together

Cutting was defined by what is done; here it is said what the parts are. A list is made up of runs
with separators between them, and a text of lines each of which is followed by its end. Both ways of
taking a list apart are unique, and they are the ones that cutting finds.

## Main definitions

* `TrellisTagger.HasRuns` — a list is made up of runs, before, between and after which stand
  separators.
* `TrellisTagger.HasLines` — a text is made up of lines with their ends.

## Main results

* `TrellisTagger.hasRuns_iff` — the runs are those that are cut out.
* `TrellisTagger.hasLines_iff` — the lines are those that are read.

## Design

Both relations take the list apart from the front. That some parts exist is an induction on the
list, one element at a time; that cutting finds them, and so no other parts exist, is an induction
on the parts.
-/

namespace TrellisTagger

universe u

/-! ### Runs -/

section Runs

variable {α : Type u} (isSeparator : α → Bool)

/-- `HasRuns isSeparator l runs` says that `l` is made up of the lists `runs` and of separators:
each run is not empty, holds no separator, and is as long as it can be. -/
inductive HasRuns : List α → List (List α) → Prop
  /-- There is nothing but separators. -/
  | nil {gap : List α} (hgap : ∀ a ∈ gap, isSeparator a = true) : HasRuns gap []
  /-- After some separators, perhaps none, comes a run that ends at a separator or with the list. -/
  | cons {gap run rest : List α} {runs : List (List α)} (hgap : ∀ a ∈ gap, isSeparator a = true)
    (hne : run ≠ []) (hrun : ∀ a ∈ run, isSeparator a = false)
    (hstop : ∀ a ∈ rest.head?, isSeparator a = true) (hrest : HasRuns rest runs) :
    HasRuns (gap ++ run ++ rest) (run :: runs)

variable {isSeparator} {l : List α} {rs : List (List α)}

/-- One more separator in front changes no run. -/
lemma HasRuns.cons_separator {a : α} (ha : isSeparator a = true) (h : HasRuns isSeparator l rs) :
    HasRuns isSeparator (a :: l) rs := by
  cases h with
  | nil hgap => exact .nil (List.forall_mem_cons.2 ⟨ha, hgap⟩)
  | cons hgap hne hrun hstop hrest =>
    exact .cons (List.forall_mem_cons.2 ⟨ha, hgap⟩) hne hrun hstop hrest

/-- Any other element is a run of its own in front of a separator. -/
lemma HasRuns.cons_single {a : α} (ha : isSeparator a = false)
    (hstop : ∀ b ∈ l.head?, isSeparator b = true) (h : HasRuns isSeparator l rs) :
    HasRuns isSeparator (a :: l) ([a] :: rs) :=
  @HasRuns.cons α isSeparator [] [a] l rs (by simp) (by simp) (by simpa using ha) hstop h

/-- Elsewhere it joins the first run. -/
lemma HasRuns.exists_cons {a : α} (ha : isSeparator a = false) (h : HasRuns isSeparator l rs) :
    ∃ rs', HasRuns isSeparator (a :: l) rs' := by
  cases h with
  | nil hgap =>
    exact ⟨[[a]], .cons_single ha (fun b hb => hgap b (List.mem_of_mem_head? hb)) (.nil hgap)⟩
  | @cons gap run rest runs hgap hne hrun hstop hrest =>
    cases gap with
    | nil =>
      exact ⟨(a :: run) :: runs, @HasRuns.cons α isSeparator [] (a :: run) rest runs (by simp)
        (by simp)
        (List.forall_mem_cons.2 ⟨ha, hrun⟩) hstop hrest⟩
    | cons b gap =>
      have hhead : isSeparator b = true := hgap b List.mem_cons_self
      exact ⟨[a] :: run :: runs, .cons_single ha (by simpa using hhead)
        (.cons hgap hne hrun hstop hrest)⟩

variable (isSeparator) in
/-- Every list is made up in this way. -/
lemma exists_hasRuns (l : List α) : ∃ rs, HasRuns isSeparator l rs := by
  induction l with
  | nil => exact ⟨[], .nil (by simp)⟩
  | cons a l ih =>
    obtain ⟨rs, h⟩ := ih
    by_cases ha : isSeparator a = true
    · exact ⟨rs, h.cons_separator ha⟩
    · exact h.exists_cons (Bool.eq_false_iff.2 ha)

/-- A separator in front of a list changes no run. -/
lemma runs_cons_of_separator {a : α} (ha : isSeparator a = true) (l : List α) :
    runs isSeparator (a :: l) = runs isSeparator l := runs_append_cons ha [] l

/-- Separators in front have no runs. -/
lemma runs_append_of_forall {gap : List α} (hgap : ∀ a ∈ gap, isSeparator a = true) (l : List α) :
    runs isSeparator (gap ++ l) = runs isSeparator l := by
  induction gap with
  | nil => rfl
  | cons a gap ih =>
    rw [List.forall_mem_cons] at hgap
    rw [List.cons_append, runs_cons_of_separator hgap.1, ih hgap.2]

/-- **The runs of a list are those that are cut out.** -/
theorem hasRuns_iff : HasRuns isSeparator l rs ↔ rs = runs isSeparator l := by
  have hcut : ∀ {l rs}, HasRuns isSeparator l rs → rs = runs isSeparator l := by
    intro l rs h
    induction h with
    | @nil gap hgap =>
      have h := runs_append_of_forall hgap []
      rw [List.append_nil] at h
      exact h.symm
    | @cons gap run rest rs hgap hne hrun hstop _ ih =>
      rw [List.append_assoc, runs_append_of_forall hgap, ih]
      cases rest with
      | nil =>
        rw [List.append_nil, runs_of_forall_not hrun, if_neg hne]
        rfl
      | cons a rest =>
        have ha : isSeparator a = true := hstop a rfl
        rw [runs_append_cons ha, runs_of_forall_not hrun, if_neg hne, runs_cons_of_separator ha]
        rfl
  refine ⟨hcut, ?_⟩
  rintro rfl
  obtain ⟨rs, h⟩ := exists_hasRuns isSeparator l
  exact hcut h ▸ h

end Runs

/-! ### Lines -/

/-- No character of a text ends a line. -/
def IsUnbroken (text : List Char) : Prop := ∀ c ∈ text, c ≠ '\n' ∧ c ≠ '\r'

/-- What can end a line. -/
def lineEnds : List (List Char) := [['\n'], ['\r', '\n'], ['\r']]

/-- `HasLines text ls` says that `text` is made up of the lines `ls`, each followed by an end. The
last one may lack its end if it is not empty. A carriage return with a line feed after it is one
end. -/
inductive HasLines : List Char → List (List Char) → Prop
  /-- The empty text has no lines. -/
  | nil : HasLines [] []
  /-- A line without its end comes last. -/
  | last {line : List Char} (hne : line ≠ []) (hline : IsUnbroken line) : HasLines line [line]
  /-- A line with its end comes before the others. -/
  | cons {line stop rest : List Char} {ls : List (List Char)} (hline : IsUnbroken line)
    (hstop : stop ∈ lineEnds) (hwhole : stop = ['\r'] → rest.head? ≠ some '\n')
    (hrest : HasLines rest ls) : HasLines (line ++ stop ++ rest) (line :: ls)

namespace HasLines

variable {c : Char} {text : List Char} {ls : List (List Char)}

/-- An end in front ends an empty line. -/
lemma cons_end {stop : List Char} (hstop : stop ∈ lineEnds)
    (hwhole : stop = ['\r'] → text.head? ≠ some '\n') (h : HasLines text ls) :
    HasLines (stop ++ text) ([] :: ls) :=
  @HasLines.cons [] stop text ls (by simp [IsUnbroken]) hstop hwhole h

/-- A line feed in front can only be the end of an empty line. -/
lemma of_cons_feed (h : HasLines ('\n' :: text) ls) : ∃ ls', HasLines text ls' := by
  generalize htext : '\n' :: text = whole at h
  cases h with
  | nil => cases htext
  | last hne hline =>
    subst htext
    exact absurd rfl (hline '\n' List.mem_cons_self).1
  | @cons line stop rest ls hline hstop _ hrest =>
    cases line with
    | cons d line =>
      obtain ⟨rfl, -⟩ := List.cons.inj htext
      exact absurd rfl (hline '\n' List.mem_cons_self).1
    | nil =>
      simp only [lineEnds, List.mem_cons, List.not_mem_nil, or_false] at hstop
      rcases hstop with rfl | rfl | rfl
      · obtain ⟨-, rfl⟩ := List.cons.inj htext
        exact ⟨ls, hrest⟩
      · exact absurd (List.cons.inj htext).1 (by decide)
      · exact absurd (List.cons.inj htext).1 (by decide)

/-- A character that ends no line is a line of its own or joins the first one. -/
lemma exists_cons (hc : c ≠ '\n' ∧ c ≠ '\r') (h : HasLines text ls) :
    ∃ ls', HasLines (c :: text) ls' := by
  cases h with
  | nil => exact ⟨[[c]], .last (by simp) (by simpa [IsUnbroken] using hc)⟩
  | last hne hline => exact ⟨[c :: text], .last (by simp) (List.forall_mem_cons.2 ⟨hc, hline⟩)⟩
  | @cons line stop rest ls hline hstop hwhole hrest =>
    have hline' : IsUnbroken (c :: line) := List.forall_mem_cons.2 ⟨hc, hline⟩
    exact ⟨(c :: line) :: ls, .cons hline' hstop hwhole hrest⟩

end HasLines

/-- Every text is made up in this way. -/
lemma exists_hasLines (text : List Char) : ∃ ls, HasLines text ls := by
  induction text with
  | nil => exact ⟨[], .nil⟩
  | cons c text ih =>
    obtain ⟨ls, h⟩ := ih
    by_cases hfeed : c = '\n'
    · subst hfeed
      exact ⟨_, h.cons_end (show ['\n'] ∈ lineEnds by simp [lineEnds]) (by simp)⟩
    by_cases hreturn : c = '\r'
    · subst hreturn
      by_cases hhead : text.head? = some '\n'
      · -- the line feed was the end of an empty line, and is now the second half of its end
        obtain ⟨rest, rfl⟩ := List.head?_eq_some_iff.1 hhead
        obtain ⟨ls', h'⟩ := h.of_cons_feed
        exact ⟨_, h'.cons_end (show ['\r', '\n'] ∈ lineEnds by simp [lineEnds]) (by simp)⟩
      · exact ⟨_, h.cons_end (show ['\r'] ∈ lineEnds by simp [lineEnds]) fun _ => hhead⟩
    · exact h.exists_cons ⟨hfeed, hreturn⟩

/-! ### Line ends made alike -/

/-- What comes after a character is made alike as if it stood alone, unless the two are one end. -/
lemma unifyBreaks_cons {c : Char} {text : List Char} (h : c = '\r' → text.head? ≠ some '\n') :
    unifyBreaks (c :: text) = (if c = '\r' then '\n' else c) :: unifyBreaks text := by
  cases text with
  | nil => simp [unifyBreaks]
  | cons d text =>
    have hpair : ¬ (d = '\n' ∧ c = '\r') := fun hdc => h hdc.2 (by rw [hdc.1]; rfl)
    simp [unifyBreaks, hpair]

/-- A carriage return with a line feed behind it is one break. -/
lemma unifyBreaks_return_feed (text : List Char) :
    unifyBreaks ('\r' :: '\n' :: text) = '\n' :: unifyBreaks text := by
  cases text <;> simp [unifyBreaks]

/-- The end of a line becomes one line feed. -/
lemma unifyBreaks_append {line stop rest : List Char} (hline : IsUnbroken line)
    (hstop : stop ∈ lineEnds) (hwhole : stop = ['\r'] → rest.head? ≠ some '\n') :
    unifyBreaks (line ++ stop ++ rest) = line ++ '\n' :: unifyBreaks rest := by
  induction line with
  | nil =>
    simp only [lineEnds, List.mem_cons, List.not_mem_nil, or_false] at hstop
    rcases hstop with rfl | rfl | rfl
    · exact unifyBreaks_cons (by simp)
    · exact unifyBreaks_return_feed rest
    · exact unifyBreaks_cons fun _ => hwhole rfl
  | cons c line ih =>
    rw [IsUnbroken, List.forall_mem_cons] at hline
    rw [List.cons_append, List.cons_append, unifyBreaks_cons fun hc => absurd hc hline.1.2,
      if_neg hline.1.2, ih hline.2, List.cons_append]

/-- The first line is read, and then the others. -/
lemma lines_append {line stop rest : List Char} (hline : IsUnbroken line) (hstop : stop ∈ lineEnds)
    (hwhole : stop = ['\r'] → rest.head? ≠ some '\n') :
    lines (line ++ stop ++ rest) = line :: lines rest := by
  have hpieces : pieces (· == '\n') (line ++ '\n' :: unifyBreaks rest) =
      line :: pieces (· == '\n') (unifyBreaks rest) := by
    rw [pieces_append_cons rfl, pieces_of_forall_not fun c hc => by simpa using (hline c hc).1]
    rfl
  obtain ⟨piece, others, hrest⟩ :=
    List.exists_cons_of_ne_nil (pieces_ne_nil (· == '\n') (unifyBreaks rest))
  rw [lines, lines, linesAt, linesAt, unifyBreaks_append hline hstop hwhole, hpieces, hrest,
    List.getLast?_cons_cons]
  split <;> rfl

/-- **The lines of a text are those that are read.** -/
theorem hasLines_iff {text : List Char} {ls : List (List Char)} :
    HasLines text ls ↔ ls = lines text := by
  have hread : ∀ {text ls}, HasLines text ls → ls = lines text := by
    intro text ls h
    induction h with
    | nil => rfl
    | @last line hne hline =>
      have hpieces : pieces (· == '\n') line = [line] :=
        pieces_of_forall_not fun c hc => by simpa using (hline c hc).1
      rw [lines, linesAt, unifyBreaks_of_not_mem fun hmem => (hline _ hmem).2 rfl, hpieces]
      simp [hne]
    | cons hline hstop hwhole _ ih => rw [lines_append hline hstop hwhole, ih]
  refine ⟨hread, ?_⟩
  rintro rfl
  obtain ⟨ls, h⟩ := exists_hasLines text
  exact hread h ▸ h

-- all three ends in one text, whose last line has none
example : lines "a\r\nb\n\rc".toList = [['a'], ['b'], [], ['c']] := by decide

end TrellisTagger

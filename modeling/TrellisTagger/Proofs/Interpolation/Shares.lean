import TrellisTagger.Proofs.Likelihood
import TrellisTagger.Proofs.Number.Counts
import TrellisTagger.Proofs.Table.Reordering
import TrellisTagger.Proofs.Training.Replacement

/-!
# Shares of the votes

Votes on interpolation weights are added up one after another. Where counts are added exactly, the
sums are those of integers, so the order in which the tables list the trigrams does not matter, and
the weights are the shares of the trigrams that vote for each length of history. This holds of exact
numbers, and of floats as long as the counts stay below `2 ^ 53`.

## Main definitions

* `TrellisTagger.AddsCounts` — counts up to a bound are added exactly.
* `TrellisTagger.votesFor` — how many votes there are for each length of history.
* `TrellisTagger.TagCounts.countWhere` — how many occurrences the trigrams have whose estimates pass
  a test.
* `TrellisTagger.TagCounts.Same` — counts that differ in nothing but the order of the tables.

## Main results

* `TrellisTagger.addsCounts_exact`, `TrellisTagger.addsCounts_float` — what adds counts exactly.
* `TrellisTagger.foldl_add_ofCounts` — votes are counted one after another.
* `TrellisTagger.TagCounts.Same.deletedInterpolation_eq` — the order of the tables does not matter.
* `TrellisTagger.TagCounts.deletedInterpolation_shares` — the weights are shares, they add up to
  one, and so do the weights of every scorer after any trainings.
-/

namespace TrellisTagger

universe u

/-! ### Exact sums -/

/-- Counts that do not exceed a bound are added exactly. -/
structure AddsCounts (P : Type u) [Probability P] (bound : Int) : Prop where
  /-- Nothing is counted at first. -/
  zero_eq : (0 : P) = ratio 0 1
  /-- Sums up to the bound are not rounded. -/
  ratio_add {m n : Int} : 0 ≤ m → 0 ≤ n → m + n ≤ bound →
    (ratio m 1 + ratio n 1 : P) = ratio (m + n) 1

/-- Exact numbers add all counts exactly. -/
lemma addsCounts_exact (bound : Int) : AddsCounts Exact bound where
  zero_eq := Exact.ext (by simp)
  ratio_add _ _ _ := Exact.ext (by simp)

/-- Floats add counts exactly as long as these stay below `2 ^ 53`. -/
lemma addsCounts_float {bound : Int} (h : bound < 2 ^ 53) : AddsCounts Float bound where
  zero_eq := rfl
  ratio_add {m n} hm hn hbound := by
    obtain ⟨m, rfl⟩ := Int.eq_ofNat_of_zero_le hm
    obtain ⟨n, rfl⟩ := Int.eq_ofNat_of_zero_le hn
    exact Binary64.ratio_add_ratio (by omega)

/-! ### Counting votes -/

section Votes

variable {α : Type*} (favourite : α × Int → History)

/-- How many votes there are for a length of history. -/
def votesFor (l : List (α × Int)) (h : History) : Int :=
  ((l.filter fun e => favourite e = h).map Prod.snd).sum

/-- A further count goes to the length of history that it votes for. -/
lemma votesFor_cons (e : α × Int) (l : List (α × Int)) (h : History) :
    votesFor favourite (e :: l) h =
      (if favourite e = h then e.2 else 0) + votesFor favourite l h := by
  rw [votesFor, List.filter_cons]
  by_cases he : favourite e = h <;> simp [votesFor, he]

/-- Counts that are not negative make no negative number of votes. -/
lemma votesFor_nonneg {l : List (α × Int)} (hl : ∀ e ∈ l, 0 ≤ e.2) (h : History) :
    0 ≤ votesFor favourite l h := by
  refine List.sum_nonneg fun n hn => ?_
  obtain ⟨e, he, rfl⟩ := List.mem_map.1 hn
  exact hl e (List.mem_filter.1 he).1

/-- Every vote is for one of the three lengths of history. -/
lemma votesFor_add (l : List (α × Int)) :
    votesFor favourite l .trigram + votesFor favourite l .bigram + votesFor favourite l .unigram =
      (l.map Prod.snd).sum := by
  induction l with
  | nil => rfl
  | cons e l ih =>
    rw [votesFor_cons, votesFor_cons, votesFor_cons, List.map_cons, List.sum_cons, ← ih]
    cases favourite e <;> simp <;> omega

/-- The number of votes does not depend on their order. -/
lemma votesFor_perm {l l' : List (α × Int)} (h : l.Perm l') (x : History) :
    votesFor favourite l x = votesFor favourite l' x := ((h.filter _).map _).sum_eq

/-- Three counts as probabilities. -/
def ByHistory.ofCounts (P : Type u) [Probability P] (f : History → Int) : ByHistory P :=
  ⟨ratio (f .trigram) 1, ratio (f .bigram) 1, ratio (f .unigram) 1⟩

variable {P : Type u} [Probability P] {bound : Int}

/-- One vote is added to one of the counts. -/
lemma add_ofCounts (hP : AddsCounts P bound) {f : History → Int} {h : History} {n : Int}
    (hf : 0 ≤ f h) (hn : 0 ≤ n) (hbound : f h + n ≤ bound) :
    (ByHistory.ofCounts P f).add h (ratio n 1) =
      ByHistory.ofCounts P fun h' => f h' + if h = h' then n else 0 := by
  have hadd := hP.ratio_add hf hn hbound
  cases h <;> simp [ByHistory.ofCounts, ByHistory.add, hadd]

/-- **Votes are counted one after another.** -/
theorem foldl_add_ofCounts (hP : AddsCounts P bound) {l : List (α × Int)} (hl : ∀ e ∈ l, 0 ≤ e.2)
    {f : History → Int} (hf : ∀ h, 0 ≤ f h) (hbound : ∀ h, f h + votesFor favourite l h ≤ bound) :
    l.foldl (fun sum e => sum.add (favourite e) (ratio e.2 1)) (ByHistory.ofCounts P f) =
      ByHistory.ofCounts P fun h => f h + votesFor favourite l h := by
  induction l generalizing f with
  | nil => simp [votesFor]
  | cons e l ih =>
    rw [List.forall_mem_cons] at hl
    simp only [votesFor_cons] at hbound
    have hnow : f (favourite e) + e.2 ≤ bound := by
      have hle := hbound (favourite e)
      have hlater := votesFor_nonneg favourite hl.2 (favourite e)
      rw [if_pos rfl] at hle
      omega
    rw [List.foldl_cons, add_ofCounts hP (hf _) hl.1 hnow, ih hl.2]
    · simp only [votesFor_cons, Int.add_assoc]
    · intro h
      have := hf h
      split_ifs <;> omega
    · simpa only [Int.add_assoc] using hbound

end Votes

namespace ByHistory

/-! ### Favourites -/

section Leads

variable {P : Type u} [Probability P]

/-- The number for two tags of history is strictly above both others. -/
def TrigramLeads (e : ByHistory P) : Prop := e.bigram < e.trigram ∧ e.unigram < e.trigram

/-- The number for one tag of history is strictly above both others. -/
def BigramLeads (e : ByHistory P) : Prop := e.trigram < e.bigram ∧ e.unigram < e.bigram

/-- It can be decided whether the number for two tags of history leads. -/
instance : DecidablePred (TrigramLeads : ByHistory P → Prop) := fun e =>
  inferInstanceAs (Decidable (e.bigram < e.trigram ∧ e.unigram < e.trigram))

/-- It can be decided whether the number for one tag of history leads. -/
instance : DecidablePred (BigramLeads : ByHistory P → Prop) := fun e =>
  inferInstanceAs (Decidable (e.trigram < e.bigram ∧ e.unigram < e.bigram))

end Leads

variable {e : ByHistory Exact}

/-- Two tags of history are the favourite just if their number leads. -/
lemma favourite_eq_trigram_iff : e.favourite = .trigram ↔ e.TrigramLeads := by
  unfold favourite TrigramLeads
  split_ifs <;> simp_all

/-- One tag of history is the favourite just if its number leads. -/
lemma favourite_eq_bigram_iff : e.favourite = .bigram ↔ e.BigramLeads := by
  unfold favourite BigramLeads
  split_ifs with htri hbi
  · -- two numbers cannot be strictly above each other
    exact iff_of_false (by simp) fun hbi => lt_asymm (α := ℚ) htri.1 hbi.1
  · exact iff_of_true rfl hbi
  · exact iff_of_false (by simp) hbi

/-- No history is the favourite just if neither of the other numbers leads. -/
lemma favourite_eq_unigram_iff : e.favourite = .unigram ↔ ¬ e.TrigramLeads ∧ ¬ e.BigramLeads := by
  rw [← favourite_eq_trigram_iff, ← favourite_eq_bigram_iff]
  cases e.favourite <;> simp

end ByHistory

/-- **After any trainings the trigram scorer has weights, and they are convex.** -/
lemma Scorer.exists_convex_weights? {c : Config Exact} {s : Scorer Exact} (h : c.scorer = .ok s)
    (hname : c.scorerName = "trigram_hmm") (trainings : List (List LabelledContext)) :
    ∃ w, (s.trainAll trainings).weights? = some w ∧ w.IsConvex := by
  have hconvex := hasConvexWeights_trainAll (hasConvexWeights_of_scorer h) trainings
  rcases Config.scorer_cases h with ⟨hother, -⟩ | ⟨-, -, rfl⟩
  · rw [hname] at hother
    exact absurd hother (by decide)
  · rw [trainAll_trigram] at hconvex ⊢
    exact ⟨_, rfl, hconvex⟩

namespace TagCounts

section Held

variable (P : Type u) [Probability P] (counts : TagCounts)

/-- The length of history that a trigram votes for. -/
def favouriteOf (e : (Tag × Tag × Tag) × Int) : History :=
  (counts.estimates e.1.1 e.1.2.1 e.1.2.2 e.2 : ByHistory P).favourite

/-- How many occurrences the trigrams have. -/
def trigramTotal : Int := (counts.occurrences.map Prod.snd).sum

variable {P}

/-- How many occurrences the trigrams have whose estimates pass a test. -/
def countWhere (p : ByHistory P → Prop) [DecidablePred p] : Int :=
  ((counts.occurrences.filter fun e =>
    p (counts.estimates e.1.1 e.1.2.1 e.1.2.2 e.2)).map Prod.snd).sum

variable {counts} {bound : Int}

/-- **The votes for each length of history are a count.** -/
theorem votes_eq (hP : AddsCounts P bound) (h : ∀ e ∈ counts.occurrences, 0 ≤ e.2)
    (hbound : counts.trigramTotal ≤ bound) :
    (counts.votes : ByHistory P) =
      .ofCounts P (votesFor (counts.favouriteOf P) counts.occurrences) := by
  have hzero : (⟨0, 0, 0⟩ : ByHistory P) = .ofCounts P fun _ => 0 := by
    rw [ByHistory.ofCounts, ← hP.zero_eq]
  have hvotes : (counts.votes : ByHistory P) = counts.occurrences.foldl
      (fun sum e => sum.add (counts.favouriteOf P e) (ratio e.2 1)) ⟨0, 0, 0⟩ := rfl
  have hadd := votesFor_add (counts.favouriteOf P) counts.occurrences
  have hnonneg := fun x => votesFor_nonneg (counts.favouriteOf P) h x
  rw [hvotes, hzero, foldl_add_ofCounts _ hP h (fun _ => le_refl 0)]
  · simp only [Int.zero_add]
  · intro x
    have htri := hnonneg .trigram
    have hbi := hnonneg .bigram
    have huni := hnonneg .unigram
    rw [trigramTotal, ← hadd] at hbound
    cases x <;> omega

end Held

/-! ### The order of the tables -/

/-- Two counts hold the same in all tables and rows, in whatever order. -/
structure Same (counts counts' : TagCounts) : Prop where
  /-- The tags have the same counts. -/
  unigrams : Table.Same counts.unigrams counts'.unigrams
  /-- The tags have the same counts after every tag. -/
  bigrams : Table.SameRows counts.bigrams counts'.bigrams
  /-- The tags have the same counts after every two tags. -/
  trigrams : Table.SameRows counts.trigrams counts'.trigrams

namespace Same

variable {counts counts' : TagCounts}

/-- Counts that are the same up to order have the same trigrams, up to order. -/
lemma perm_occurrences (h : counts.Same counts') : counts.occurrences.Perm counts'.occurrences :=
  h.trigrams.perm_flatMap fun history e => ((history.1, history.2, e.1), e.2)

/-- Counts that are the same up to order have the same number of occurrences. -/
lemma trigramTotal_eq (h : counts.Same counts') : counts.trigramTotal = counts'.trigramTotal :=
  (h.perm_occurrences.map _).sum_eq

variable {P : Type u} [Probability P]

/-- Estimates are made from what is looked up. -/
lemma estimates_eq (h : counts.Same counts') (a b c : Tag) (n : Int) :
    (counts.estimates a b c n : ByHistory P) = counts'.estimates a b c n := by
  have hbigram : ∀ a b, counts.bigram a b = counts'.bigram a b := fun a b =>
    (h.bigrams.getD a).getD b 0
  have hunigram : ∀ a, counts.unigram a = counts'.unigram a := fun a => h.unigrams.getD a 0
  have htotal : counts.total = counts'.total := h.unigrams.total
  simp only [estimates, hbigram, hunigram, htotal]

/-- **The order of the tables does not matter to the weights**, as long as counts are added
exactly. -/
theorem deletedInterpolation_eq (h : counts.Same counts') {bound : Int} (hP : AddsCounts P bound)
    (hcounts : ∀ e ∈ counts.occurrences, 0 ≤ e.2) (hbound : counts.trigramTotal ≤ bound) :
    (counts.deletedInterpolation : Option (ByHistory P)) = counts'.deletedInterpolation := by
  have hcounts' : ∀ e ∈ counts'.occurrences, 0 ≤ e.2 := fun e he =>
    hcounts e (h.perm_occurrences.mem_iff.2 he)
  have hfavourite : counts.favouriteOf P = counts'.favouriteOf P := by
    funext e
    rw [favouriteOf, h.estimates_eq, ← favouriteOf]
  have hvotes : (counts.votes : ByHistory P) = counts'.votes := by
    rw [votes_eq hP hcounts hbound, votes_eq hP hcounts' (h.trigramTotal_eq ▸ hbound), hfavourite]
    congr 1
    funext x
    exact votesFor_perm _ h.perm_occurrences x
  rw [deletedInterpolation, deletedInterpolation, hvotes]

end Same

/-! ### The counts of training -/

/-- The order of contexts decides nothing but the order of the tables. -/
lemma same_ofContexts {contexts contexts' : List LabelledContext} (h : contexts.Perm contexts') :
    (ofContexts contexts).Same (ofContexts contexts') :=
  ⟨same_tally (h.map _), sameRows_crossTally (h.map _), sameRows_crossTally (h.map _)⟩

/-- The counts of trigrams are the counts in all rows. -/
lemma map_snd_occurrences (counts : TagCounts) :
    counts.occurrences.map Prod.snd = counts.trigrams.values.flatMap Table.values := by
  rw [occurrences, List.map_flatMap, Table.values, List.flatMap_map]
  exact List.flatMap_congr fun e _ => List.map_map

/-- Every context has one trigram. -/
lemma trigramTotal_ofContexts (contexts : List LabelledContext) :
    (ofContexts contexts).trigramTotal = contexts.length := by
  have hrow : List.sum ∘ (Table.values : Table Tag Int → List Int) = Table.total :=
    funext fun _ => List.sum_eq_foldr
  rw [trigramTotal, map_snd_occurrences, List.flatMap_def, List.sum_flatten, List.map_map, hrow,
    ofContexts, sum_total_crossTally, List.length_map]

/-! ### The weights -/

section Shares

variable {counts : TagCounts}

/-- Counts add up to zero just if all of them are zero. -/
lemma trigramTotal_eq_zero_iff (h : ∀ e ∈ counts.occurrences, 0 ≤ e.2) :
    counts.trigramTotal = 0 ↔ ∀ e ∈ counts.occurrences, e.2 = 0 := by
  constructor
  · intro hzero e he
    exact List.all_zero_of_le_zero_le_of_sum_eq_zero (List.forall_mem_map.2 h) hzero
      (List.mem_map_of_mem he)
  · intro hzero
    exact List.sum_eq_zero (List.forall_mem_map.2 hzero)

/-- The votes for a length of history are those of the trigrams whose estimates make it the
favourite. -/
lemma countWhere_eq_votesFor {p : ByHistory Exact → Prop} [DecidablePred p] {x : History}
    (h : ∀ e : ByHistory Exact, e.favourite = x ↔ p e) :
    counts.countWhere p = votesFor (counts.favouriteOf Exact) counts.occurrences x := by
  simp only [countWhere, votesFor, favouriteOf, h]

/-- Counts that are not negative make no negative number of occurrences. -/
lemma countWhere_nonneg (h : ∀ e ∈ counts.occurrences, 0 ≤ e.2) (p : ByHistory Exact → Prop)
    [DecidablePred p] : 0 ≤ counts.countWhere p := by
  refine List.sum_nonneg fun n hn => ?_
  obtain ⟨e, he, rfl⟩ := List.mem_map.1 hn
  exact h e (List.mem_filter.1 he).1

/-- The votes for the three lengths of history, and for all of them. -/
lemma value_votes (h : ∀ e ∈ counts.occurrences, 0 ≤ e.2) :
    let votes : ByHistory Exact := counts.votes
    votes.trigram.value = counts.countWhere (P := Exact) ByHistory.TrigramLeads ∧
      votes.bigram.value = counts.countWhere (P := Exact) ByHistory.BigramLeads ∧
      votes.unigram.value =
        counts.countWhere (fun e : ByHistory Exact => ¬ e.TrigramLeads ∧ ¬ e.BigramLeads) ∧
      votes.total.value = counts.trigramTotal := by
  intro votes
  have hvotes : votes = .ofCounts Exact (votesFor (counts.favouriteOf Exact) counts.occurrences) :=
    votes_eq (addsCounts_exact _) h (le_refl _)
  rw [countWhere_eq_votesFor fun _ => ByHistory.favourite_eq_trigram_iff,
    countWhere_eq_votesFor fun _ => ByHistory.favourite_eq_bigram_iff,
    countWhere_eq_votesFor fun _ => ByHistory.favourite_eq_unigram_iff, trigramTotal,
    ← votesFor_add (counts.favouriteOf Exact), hvotes]
  simp [ByHistory.ofCounts, ByHistory.total]

variable {shares : ByHistory Exact}

/-- Each weight is the share of those that vote for it. -/
lemma value_shares (h : ∀ e ∈ counts.occurrences, 0 ≤ e.2)
    (hshares : counts.deletedInterpolation = some shares) :
    shares.trigram.value =
        counts.countWhere (P := Exact) ByHistory.TrigramLeads / counts.trigramTotal ∧
      shares.bigram.value =
        counts.countWhere (P := Exact) ByHistory.BigramLeads / counts.trigramTotal ∧
      shares.unigram.value =
        counts.countWhere (fun e : ByHistory Exact => ¬ e.TrigramLeads ∧ ¬ e.BigramLeads) /
          counts.trigramTotal := by
  obtain ⟨htri, hbi, huni, htotal⟩ := value_votes h
  obtain ⟨-, rfl⟩ := eq_of_deletedInterpolation_eq_some hshares
  simp only [Exact.value_div, htri, hbi, huni, htotal, and_self]

/-- No share is negative. -/
lemma shares_nonneg (h : ∀ e ∈ counts.occurrences, 0 ≤ e.2)
    (hshares : counts.deletedInterpolation = some shares) :
    0 ≤ shares.trigram.value ∧ 0 ≤ shares.bigram.value ∧ 0 ≤ shares.unigram.value := by
  obtain ⟨htri, hbi, huni⟩ := value_shares h hshares
  have htotal : (0 : ℚ) ≤ counts.trigramTotal :=
    Int.cast_nonneg (List.sum_nonneg (List.forall_mem_map.2 h))
  have hcount : ∀ (p : ByHistory Exact → Prop) [DecidablePred p], (0 : ℚ) ≤ counts.countWhere p :=
    fun p _ => Int.cast_nonneg (countWhere_nonneg h p)
  rw [htri, hbi, huni]
  exact ⟨div_nonneg (hcount _) htotal, div_nonneg (hcount _) htotal, div_nonneg (hcount _) htotal⟩

end Shares

/-- **Deleted interpolation gives a convex combination, and the order of tables does not matter to
it.** Take any counts of trigrams without a negative one among them, and any other counts. In exact
arithmetic there are no weights just if all counts of trigrams are zero. Otherwise each weight is
the share of the trigrams that vote for it among all trigrams, by their counts: those whose trigram
estimate is strictly above the other two, those whose bigram estimate is, and all others. Counts
that hold the same in another order give the same weights. So after any trainings, the weights of a
trigram scorer of any configuration that is accepted are not negative, and add up to one. -/
theorem deletedInterpolation_shares :
    (∀ counts : TagCounts, (∀ e ∈ counts.occurrences, 0 ≤ e.2) →
      ((counts.deletedInterpolation : Option (ByHistory Exact)) = none ↔
        ∀ e ∈ counts.occurrences, e.2 = 0) ∧
      (∀ shares : ByHistory Exact, counts.deletedInterpolation = some shares →
        (shares.trigram.value =
            counts.countWhere (P := Exact) ByHistory.TrigramLeads / counts.trigramTotal ∧
          shares.bigram.value =
            counts.countWhere (P := Exact) ByHistory.BigramLeads / counts.trigramTotal ∧
          shares.unigram.value =
            counts.countWhere (fun e : ByHistory Exact => ¬ e.TrigramLeads ∧ ¬ e.BigramLeads) /
              counts.trigramTotal) ∧
        (0 ≤ shares.trigram.value ∧ 0 ≤ shares.bigram.value ∧ 0 ≤ shares.unigram.value) ∧
          shares.trigram.value + shares.bigram.value + shares.unigram.value = 1) ∧
      ∀ counts' : TagCounts, counts.Same counts' →
        (counts'.deletedInterpolation : Option (ByHistory Exact)) = counts.deletedInterpolation) ∧
    ∀ (c : Config Exact) (s : Scorer Exact), c.scorer = .ok s → c.scorerName = "trigram_hmm" →
      ∀ trainings : List (List LabelledContext), ∃ w : Interpolation Exact,
        (s.trainAll trainings).weights? = some w ∧
          (0 ≤ w.trigram.value ∧ 0 ≤ w.bigram.value ∧ 0 ≤ w.unigram.value) ∧
            w.trigram.value + w.bigram.value + w.unigram.value = 1 := by
  refine ⟨fun counts hcounts => ⟨?_, fun shares hshares => ?_, fun counts' hsame => ?_⟩,
    fun c s hs hname trainings => ?_⟩
  · obtain ⟨-, -, -, htotal⟩ := value_votes hcounts
    rw [deletedInterpolation_eq_none_iff_total, htotal, Int.cast_eq_zero,
      trigramTotal_eq_zero_iff hcounts]
  · exact ⟨value_shares hcounts hshares, shares_nonneg hcounts hshares, sum_shares hshares⟩
  · exact (hsame.deletedInterpolation_eq (addsCounts_exact _) hcounts (le_refl _)).symm
  · obtain ⟨w, hw, hconvex⟩ := Scorer.exists_convex_weights? hs hname trainings
    have hunigram := hconvex.value_unigram
    have hle := hconvex.add_le_one
    exact ⟨w, hw, ⟨hconvex.trigram_nonneg, hconvex.bigram_nonneg, by linarith⟩, by linarith⟩

/-- Four of five trigrams vote for the trigram estimate; and the weights of a scorer after a
training. -/
theorem deletedInterpolation_shares_four_fifths :
    (∃ shares : ByHistory Exact,
      (TagCounts.mk ⟨[("A", 10), ("B", 10)], by decide⟩
        ⟨[("A", ⟨[("B", 5)], by decide⟩), ("B", ⟨[("A", 5)], by decide⟩)], by decide⟩
        ⟨[(("A", "B"), ⟨[("A", 4)], by decide⟩), (("B", "B"), ⟨[("B", 1)], by decide⟩)],
          by decide⟩).deletedInterpolation = some shares ∧ shares.trigram.value = 4 / 5) ∧
      ∃ s : Scorer Exact, (Config.mk "trigram_hmm" "viterbi" true ⟨⟨3 / 5⟩, ⟨3 / 10⟩⟩ true).scorer =
        .ok s ∧
        ∃ w, (s.trainAll [Tagger.contextsOf [⟨["dogs"], ["NNS"], rfl⟩]]).weights? = some w ∧
          w.trigram.value + w.bigram.value + w.unigram.value = 1 := by
  obtain ⟨hshares, hweights⟩ := deletedInterpolation_shares
  constructor
  · obtain ⟨hnone, hsome, -⟩ := hshares ⟨⟨[("A", 10), ("B", 10)], by decide⟩,
      ⟨[("A", ⟨[("B", 5)], by decide⟩), ("B", ⟨[("A", 5)], by decide⟩)], by decide⟩,
      ⟨[(("A", "B"), ⟨[("A", 4)], by decide⟩), (("B", "B"), ⟨[("B", 1)], by decide⟩)], by decide⟩⟩
      (by decide)
    obtain ⟨shares, heq⟩ := Option.ne_none_iff_exists'.1 (mt hnone.1 (by decide))
    refine ⟨shares, heq, ?_⟩
    rw [(hsome shares heq).1.1]
    decide +kernel
  · have hscorer := Scorer.scorer_eq_ok_trigram
      (c := ⟨"trigram_hmm", "viterbi", true, ⟨⟨3 / 5⟩, ⟨3 / 10⟩⟩, true⟩) rfl
      ⟨by norm_num, by norm_num, by norm_num⟩
    obtain ⟨w, hw, -, hsum⟩ :=
      hweights _ _ hscorer rfl [Tagger.contextsOf [⟨["dogs"], ["NNS"], rfl⟩]]
    exact ⟨_, hscorer, w, hw, hsum⟩

end TagCounts

end TrellisTagger

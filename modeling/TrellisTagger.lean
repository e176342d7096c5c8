import TrellisTagger.Arithmetic
import TrellisTagger.Choice
import TrellisTagger.CommandLine.Command
import TrellisTagger.CommandLine.Rule
import TrellisTagger.Config
import TrellisTagger.Corpus
import TrellisTagger.Decoder
import TrellisTagger.Decoder.Failure
import TrellisTagger.Decoder.Greedy
import TrellisTagger.Decoder.Viterbi
import TrellisTagger.Evaluation
import TrellisTagger.Evaluation.Alignment
import TrellisTagger.Evaluation.Average
import TrellisTagger.Evaluation.Confusion
import TrellisTagger.Folder
import TrellisTagger.Formula
import TrellisTagger.Formula.Name
import TrellisTagger.Formula.Reader
import TrellisTagger.Frequency
import TrellisTagger.Frequency.Bounded
import TrellisTagger.Grid
import TrellisTagger.Grid.Column
import TrellisTagger.Grid.Reader
import TrellisTagger.Grid.Report
import TrellisTagger.Grid.Value
import TrellisTagger.Interpolation
import TrellisTagger.Journal
import TrellisTagger.Lexicon
import TrellisTagger.Main
import TrellisTagger.Number.Binary64
import TrellisTagger.Number.Decimal
import TrellisTagger.Number.Numeral
import TrellisTagger.Number.PairwiseSum
import TrellisTagger.Number.Rounding
import TrellisTagger.Path
import TrellisTagger.Ranking
import TrellisTagger.Ranking.Insertion
import TrellisTagger.Ranking.Merge
import TrellisTagger.Scorer
import TrellisTagger.Sentence
import TrellisTagger.SentenceTrellis
import TrellisTagger.Session
import TrellisTagger.Shuffle
import TrellisTagger.Split
import TrellisTagger.State
import TrellisTagger.State.Interner
import TrellisTagger.Table
import TrellisTagger.Tagger
import TrellisTagger.Tagging
import TrellisTagger.Tally
import TrellisTagger.Text.Alphanumeric
import TrellisTagger.Text.Blank
import TrellisTagger.Text.Box
import TrellisTagger.Text.CodePoints
import TrellisTagger.Text.Control
import TrellisTagger.Text.Duration
import TrellisTagger.Text.Hidden
import TrellisTagger.Text.Lines
import TrellisTagger.Text.Pieces
import TrellisTagger.Text.Quoted
import TrellisTagger.Text.Ranges
import TrellisTagger.Text.Utf8
import TrellisTagger.Text.Wrap
import TrellisTagger.Transcript
import TrellisTagger.Trellis
import TrellisTagger.Trellis.Walk
import TrellisTagger.TrigramModel
import TrellisTagger.Proofs.Weight
import TrellisTagger.Proofs.Trellis.Edit
import TrellisTagger.Proofs.Trellis.Hops
import TrellisTagger.Proofs.Viterbi.Lattice
import TrellisTagger.Proofs.Viterbi.Reachability
import TrellisTagger.Proofs.Viterbi.Optimality
import TrellisTagger.Proofs.SentenceTrellis.Layers
import TrellisTagger.Proofs.SentenceTrellis.Predecessors
import TrellisTagger.Proofs.SentenceTrellis.Taggings
import TrellisTagger.Proofs.SentenceTrellis.WordWise
import TrellisTagger.Proofs.Tagging.Optimality
import TrellisTagger.Proofs.Greedy.Walk
import TrellisTagger.Proofs.Tagging.Shape
import TrellisTagger.Proofs.Counting
import TrellisTagger.Proofs.Lexicon
import TrellisTagger.Proofs.Training
import TrellisTagger.Proofs.Tagging.Totality
import TrellisTagger.Proofs.Tagging.Boundary
import TrellisTagger.Proofs.Exact
import TrellisTagger.Proofs.Number.Positive
import TrellisTagger.Proofs.Frequency
import TrellisTagger.Proofs.Votes
import TrellisTagger.Proofs.Training.Replacement
import TrellisTagger.Proofs.Interpolation
import TrellisTagger.Proofs.TrigramModel
import TrellisTagger.Proofs.Likelihood
import TrellisTagger.Proofs.Consistency
import TrellisTagger.Proofs.Tagging.Likelihood
import TrellisTagger.Proofs.Tagging.Acceptance
import TrellisTagger.Proofs.Tagging.Baseline
import TrellisTagger.Proofs.Table
import TrellisTagger.Proofs.Trellis.History
import TrellisTagger.Proofs.State.Canonical
import TrellisTagger.Proofs.Tagging.Writing
import TrellisTagger.Proofs.Renaming.Tagging
import TrellisTagger.Proofs.Interpolation.Discount
import TrellisTagger.Proofs.Interpolation.Shares
import TrellisTagger.Proofs.Training.Order
import TrellisTagger.Proofs.Tagging.Restriction
import TrellisTagger.Proofs.UnknownWords
import TrellisTagger.Proofs.Number.Order
import TrellisTagger.Proofs.Greedy.Outcome
import TrellisTagger.Proofs.Text.Grammar
import TrellisTagger.Proofs.Corpus.Grammar
import TrellisTagger.Proofs.Number.PairwiseSum
import TrellisTagger.Proofs.Evaluation.Alignment
import TrellisTagger.Proofs.Grid.Enumeration
import TrellisTagger.Proofs.Evaluation.Average
import TrellisTagger.Proofs.Evaluation.Accounting

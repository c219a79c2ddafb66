import Descent.Attempt
import Descent.Completion
import Descent.Diagnostic
import Descent.Fatal
import Descent.Frame
import Descent.Grammar
import Descent.Grammar.Eval
import Descent.Kind
import Descent.KindSet
import Descent.Language
import Descent.Limits
import Descent.Lookahead
import Descent.MarkerLog
import Descent.Message
import Descent.Modifiers
import Descent.Parse
import Descent.Session
import Descent.Session.Chunks
import Descent.Session.Recovery
import Descent.Session.Report
import Descent.Session.Section
import Descent.Session.TokenTest
import Descent.Source
import Descent.Span
import Descent.Text.Alphabetic
import Descent.Text.Ascending
import Descent.Text.Blank
import Descent.Text.CodeRange
import Descent.Text.LetterCase
import Descent.Text.Numeral
import Descent.Text.Quoted
import Descent.Text.Slice
import Descent.Text.Visible
import Descent.Trace
import Descent.Tree
import Descent.Tree.Assembly
import Descent.Tree.Dump
import Descent.Proofs.Tree.Leaves
import Descent.Proofs.MarkerLog.History
import Descent.Proofs.MarkerLog.Steps
import Descent.Proofs.MarkerLog.Rollback
import Descent.Proofs.MarkerLog.Nesting
import Descent.Proofs.Tree.Places
import Descent.Proofs.Tree.Outline
import Descent.Proofs.Grammar.BalancedRun
import Descent.Proofs.MarkerLog.Rooted
import Descent.Proofs.Session.Grouping
import Descent.Proofs.Session.Skipping
import Descent.Proofs.Session.Held
import Descent.Proofs.Session.HeldSections
import Descent.Proofs.Tree.Errors
import Descent.Proofs.Session.Spares
import Descent.Proofs.Session.SkipAll
import Descent.Proofs.Session.RootRecovery
import Descent.Proofs.Session.Grouped
import Descent.Proofs.Session.RunWork
import Descent.Proofs.MarkerLog.Continuation
import Descent.Proofs.Session.WorkLog
import Descent.Proofs.Session.GivenBack
import Descent.Proofs.MarkerLog.Ascending
import Descent.Proofs.Session.Ascending
import Descent.Proofs.MarkerLog.Laminar
import Descent.Proofs.MarkerLog.OnTop
import Descent.Proofs.Session.LaminarWork
import Descent.Proofs.Session.Amid
import Descent.Proofs.Grammar.Visits
import Descent.Proofs.Tree.Crossing
import Descent.Proofs.Session.SectionNodes
import Descent.Proofs.Grammar.LeadsTo
import Descent.Proofs.Grammar.Onward
import Descent.Proofs.Tree.Tiling
import Descent.Proofs.Grammar.Diagnostics
import Descent.Proofs.MarkerLog.ErrorStarts
import Descent.Proofs.Session.Sequences
import Descent.Proofs.Grammar.Inside
import Descent.Proofs.Session.Tidy
import Descent.Proofs.Session.TidySections
import Descent.Proofs.Grammar.Tidy
import Descent.Proofs.Source.Outline
import Descent.Proofs.MarkerLog.Move
import Descent.Proofs.MarkerLog.MapErrors
import Descent.Proofs.Session.Mirror
import Descent.Proofs.Session.MirrorGrouping
import Descent.Proofs.Session.MirrorSections
import Descent.Proofs.Grammar.Mirror
import Descent.Proofs.Tree.Shape
import Descent.Proofs.Grammar.Respacing
import Descent.Proofs.MarkerLog.Every
import Descent.Proofs.Session.Still
import Descent.Proofs.Session.Acts
import Descent.Proofs.Session.SectionActs
import Descent.Proofs.Grammar.Calls
import Descent.Proofs.Grammar.LookaheadDepth
import Descent.Proofs.Grammar.Finality
import Descent.Proofs.Session.Smooth
import Descent.Proofs.Session.Turns
import Descent.Proofs.Session.Raised
import Descent.Proofs.Session.RecoveryEnds
import Descent.Proofs.Session.LeavingEnds
import Descent.Proofs.Grammar.LoopsEnd
import Descent.Proofs.Grammar.Descending
import Descent.Proofs.Grammar.Begun
import Descent.Proofs.Grammar.MoreFuel
import Descent.Proofs.Grammar.Ceiling
import Descent.Proofs.MarkerLog.Gains
import Descent.Proofs.Session.RecoveryNodes
import Descent.Proofs.Grammar.RecoveryAdds
import Descent.Proofs.Session.Abreast
import Descent.Proofs.Session.AbreastSections
import Descent.Proofs.Grammar.Abreast
import Descent.Proofs.Grammar.Candidates
import Descent.Proofs.Tree.MapErrors
import Descent.Proofs.Grammar.Rewording
import Descent.Proofs.MarkerLog.Idle
import Descent.Proofs.Source.Significant
import Descent.Proofs.Tree.Chunked
import Descent.Proofs.Tree.Sequel
import Descent.Proofs.Session.Counter
import Descent.Proofs.Source.Matching
import Descent.Proofs.Session.SkipDepth
import Descent.Proofs.Session.Rounds
import Descent.Proofs.Session.FailedRun
import Descent.Proofs.Session.Siblings
import Descent.Proofs.Session.Generations
import Descent.Proofs.Session.Enclosures
import Descent.Proofs.Session.Ledger
import Descent.Proofs.Session.Regions
import Descent.Proofs.Session.KeptChildren
import Descent.Proofs.Session.Collapsing
import Descent.Proofs.Session.LeftRows
import Descent.Proofs.Session.HookedNodes
import Descent.Proofs.Attempt.Baselines
import Descent.Proofs.Attempt.Listing
import Descent.Proofs.Session.Unrecorded
import Descent.Proofs.Session.Aside
import Descent.Proofs.Session.HookTurns
import Descent.Proofs.Session.MissingNode
import Descent.Proofs.Session.QuietRuns
import Descent.Proofs.Session.QuietRecovery
import Descent.Proofs.Source.Texts
import Descent.Proofs.Session.Seeking
import Descent.Proofs.Session.Literals
import Descent.Proofs.Session.Trials
import Descent.Proofs.Session.Uncounted
import Descent.Proofs.Session.Tallies
import Descent.Proofs.Session.Concurring
import Descent.Proofs.Session.PairedRuns
import Descent.Proofs.Session.NamedSections
import Descent.Proofs.Grammar.PairedRuns
import Descent.Proofs.MarkerLog.Reopening
import Descent.Proofs.Tree.Splicing
import Descent.Proofs.Session.ForwardRuns
import Descent.Proofs.Tree.TriviaEnds
import Descent.Proofs.Completion.Abbreviations
import Descent.Proofs.Completion.Offers
import Descent.Proofs.KindSet.Members
import Descent.Proofs.MarkerLog.Agreement
import Descent.Proofs.Grammar.Labels

import Packrat.Main
import Packrat.Sample.Scenarios
import Packrat.Proofs.FailureMerge
import Packrat.Proofs.Plain
import Packrat.Proofs.CacheSound
import Packrat.Proofs.Coverage
import Packrat.Proofs.Memoization
import Packrat.Proofs.History
import Packrat.Proofs.Invariant
import Packrat.Proofs.Terminal
import Packrat.Proofs.Regex.Compilation
import Packrat.Proofs.Regex.Search
import Packrat.Proofs.Regex.Parenthesis
import Packrat.Proofs.Regex.Anchoring
import Packrat.Proofs.AnchoredPattern
import Packrat.Proofs.Spans
import Packrat.Proofs.Lossless
import Packrat.Proofs.TreeInvariant
import Packrat.Proofs.RuleNodes
import Packrat.Proofs.QuotedText
import Packrat.Proofs.PrintedTree
import Packrat.Proofs.Adequacy
import Packrat.Proofs.Attempts
import Packrat.Proofs.AttemptsPlain
import Packrat.Proofs.CacheTruth
import Packrat.Proofs.Diagnosis
import Packrat.Proofs.DepthLimit
import Packrat.Proofs.Nesting
import Packrat.Proofs.DepthBound
import Packrat.Proofs.MemoizedDepth
import Packrat.Proofs.Shift
import Packrat.Proofs.ByteOffset
import Packrat.Proofs.Translation
import Packrat.Proofs.Reachability
import Packrat.Proofs.UndefinedRules
import Packrat.Proofs.Ledger
import Packrat.Proofs.EvaluatedOnce
import Packrat.Proofs.Lockstep
import Packrat.Proofs.Extension
import Packrat.Proofs.SessionReuse
import Packrat.Proofs.GrammarCheck
import Packrat.Proofs.Lookahead
import Packrat.Proofs.OrderedChoice
import Packrat.Proofs.Bounds
import Packrat.Proofs.Repetition
import Packrat.Proofs.Termination
import Packrat.Proofs.ContextFree
import Packrat.Proofs.Construction
import Packrat.Proofs.WinningAlternative
import Packrat.Proofs.Sufficiency
import Packrat.Proofs.Starvation
import Packrat.Proofs.FindAll
import Packrat.Proofs.NumberPattern
import Packrat.Proofs.NestedLists
import Packrat.Proofs.Arithmetic.Reading
import Packrat.Proofs.Arithmetic.Tokens
import Packrat.Proofs.Arithmetic.Recognition
import Packrat.Proofs.Arithmetic.Language
import Packrat.Proofs.Arithmetic.Value
import Packrat.Proofs.Arithmetic.Calculator
import Packrat.Proofs.Arithmetic.Walk
import Packrat.Proofs.Arithmetic.Demand
import Packrat.Proofs.Arithmetic.Threshold
import Packrat.Proofs.Arithmetic.Agreement
import Packrat.Proofs.ClassAlgebra
import Packrat.Proofs.RuleTable
import Packrat.Proofs.TableSession
import Packrat.Proofs.Outermost
import Packrat.Proofs.Identifiers
import Packrat.Proofs.MergeOrder
import Packrat.Proofs.TextViews
import Packrat.Proofs.Arithmetic.FaultPlace
import Packrat.Proofs.Regrouping
import Packrat.Proofs.Description
import Packrat.Proofs.Grouping
import Packrat.Proofs.Lines
import Packrat.Proofs.LiteralExpectations

import ReactiveMarkup.Compilation
import ReactiveMarkup.Proofs.ExactInsertion
import ReactiveMarkup.Proofs.Hydration
import ReactiveMarkup.Proofs.MissedNotification
import ReactiveMarkup.Proofs.RecomputationPass
import ReactiveMarkup.Proofs.RenderedMarkup
import ReactiveMarkup.Proofs.Unmounting
import ReactiveMarkup.Proofs.ValuePreservation
import ReactiveMarkup.Proofs.ResolvedPosition
import ReactiveMarkup.Proofs.ScopedWalk
import ReactiveMarkup.Proofs.ChangingNames
import ReactiveMarkup.Proofs.ElidedFunction
import ReactiveMarkup.Proofs.FailureLocation
import ReactiveMarkup.Proofs.Interpolation
import ReactiveMarkup.Proofs.UpdateRules
import ReactiveMarkup.Proofs.Specialization
import ReactiveMarkup.Proofs.NodeIdentity
import ReactiveMarkup.Proofs.Dispatching
import ReactiveMarkup.Proofs.PrintedTokens
import ReactiveMarkup.Proofs.ReadingRuns
import ReactiveMarkup.Proofs.ReadBackChain
import ReactiveMarkup.Proofs.ReadBackOperator
import ReactiveMarkup.Proofs.ReadBackWhole
import ReactiveMarkup.Proofs.ArrowTrial
import ReactiveMarkup.Proofs.ReadBackFunction
import ReactiveMarkup.Proofs.ReadBackStatement
import ReactiveMarkup.Proofs.ReadBackDeclaration
import ReactiveMarkup.Proofs.ReadBackParameter
import ReactiveMarkup.Proofs.SettledTree
import ReactiveMarkup.Proofs.GroupedTree
import ReactiveMarkup.Proofs.PrintedTree
import ReactiveMarkup.Proofs.LeadingToken
import ReactiveMarkup.Proofs.KeptText
import ReactiveMarkup.Proofs.ReadBackPlace
import ReactiveMarkup.Proofs.ReadBackTree
import ReactiveMarkup.Proofs.ReadBackProgram
import ReactiveMarkup.Proofs.ReadGrouping
import ReactiveMarkup.Proofs.Reprinting
import ReactiveMarkup.Proofs.CycleOrder
import ReactiveMarkup.Proofs.BraceCount
import ReactiveMarkup.Proofs.Instantiation
import ReactiveMarkup.Proofs.NeededNames
import ReactiveMarkup.Proofs.RecordedReference
import ReactiveMarkup.Proofs.Reindentation
import ReactiveMarkup.Proofs.LineStart
import ReactiveMarkup.Proofs.TemplateReading
import ReactiveMarkup.Proofs.GeneratedName
import ReactiveMarkup.Proofs.ListenerRemoval
import ReactiveMarkup.Proofs.ShownExpressions
import ReactiveMarkup.Proofs.RootBinding
import ReactiveMarkup.Proofs.ReportedName
import ReactiveMarkup.Proofs.UnclosedElement
import ReactiveMarkup.Proofs.UnambiguousPrint
import ReactiveMarkup.Proofs.Reassembly
import ReactiveMarkup.Proofs.LinePosition
import ReactiveMarkup.Proofs.ResolutionStage
import ReactiveMarkup.Proofs.ScopeArena
import ReactiveMarkup.Proofs.NodeAssembly
import ReactiveMarkup.Proofs.TransformationRun
import ReactiveMarkup.Proofs.TraversalFrame

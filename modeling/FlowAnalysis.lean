import FlowAnalysis.Analysis.Analyzer
import FlowAnalysis.Analysis.Calls
import FlowAnalysis.Analysis.Declarations
import FlowAnalysis.Analysis.Names
import FlowAnalysis.Analysis.Result
import FlowAnalysis.Binary64
import FlowAnalysis.CommandLine.Options
import FlowAnalysis.CommandLine.Report
import FlowAnalysis.CommandLine.Run
import FlowAnalysis.ControlFlow.Command
import FlowAnalysis.ControlFlow.Construction
import FlowAnalysis.ControlFlow.Dependence
import FlowAnalysis.ControlFlow.Graph
import FlowAnalysis.ControlFlow.Postdominance
import FlowAnalysis.Dictionary
import FlowAnalysis.Json.Basic
import FlowAnalysis.Json.Read
import FlowAnalysis.Json.Write
import FlowAnalysis.KeyedSet
import FlowAnalysis.Location
import FlowAnalysis.Main
import FlowAnalysis.Python.Expression
import FlowAnalysis.Python.Expression.Grammar
import FlowAnalysis.Python.Expression.Tree
import FlowAnalysis.Python.Module
import FlowAnalysis.Python.Parser
import FlowAnalysis.Python.Source
import FlowAnalysis.Python.Statement
import FlowAnalysis.Python.Statement.Grammar
import FlowAnalysis.Python.Statement.Pattern
import FlowAnalysis.Python.Statement.Tree
import FlowAnalysis.Python.TextLiteral
import FlowAnalysis.Python.Token
import FlowAnalysis.Python.Token.Layout
import FlowAnalysis.Python.Token.Scan
import FlowAnalysis.Reference.Basic
import FlowAnalysis.Reference.DefUse
import FlowAnalysis.Search
import FlowAnalysis.Settings
import FlowAnalysis.Spec.Basic
import FlowAnalysis.Spec.Bundled
import FlowAnalysis.Spec.Json
import FlowAnalysis.Spec.SymbolTable
import FlowAnalysis.Text
import FlowAnalysis.Text.CharacterName
import FlowAnalysis.Text.Identifier
import FlowAnalysis.Text.Utf8
import FlowAnalysis.Tree.Json
import FlowAnalysis.Tree.Node
import FlowAnalysis.Tree.Schema
import FlowAnalysis.Tree.Traversal
import FlowAnalysis.Proofs.ControlFlow.Path
import FlowAnalysis.Proofs.ControlFlow.Layout
import FlowAnalysis.Proofs.ControlFlow.Execution
import FlowAnalysis.Proofs.ControlFlow.Laying
import FlowAnalysis.Proofs.ControlFlow.Realization
import FlowAnalysis.Proofs.ControlFlow.Structured
import FlowAnalysis.Proofs.ControlFlow.Postdominance
import FlowAnalysis.Proofs.ControlFlow.Drawing
import FlowAnalysis.Proofs.ControlFlow.Ending
import FlowAnalysis.Proofs.ControlFlow.Distance
import FlowAnalysis.Proofs.ControlFlow.Dependence
import FlowAnalysis.Proofs.ControlFlow.LexicalDependence
import FlowAnalysis.Proofs.Analysis.Ownership
import FlowAnalysis.Proofs.Analysis.Reaching
import FlowAnalysis.Proofs.Analysis.Exactness
import FlowAnalysis.Proofs.Analysis.Slice
import FlowAnalysis.Proofs.Analysis.Mutation
import FlowAnalysis.Proofs.Analysis.Recording
import FlowAnalysis.Proofs.Analysis.Locations
import FlowAnalysis.Proofs.Analysis.Places
import FlowAnalysis.Proofs.Analysis.Scopes
import FlowAnalysis.Proofs.Analysis.Aliasing
import FlowAnalysis.Proofs.DepthFirst
import FlowAnalysis.Proofs.Analysis.SliceOrder
import FlowAnalysis.Proofs.Analysis.Totality
import FlowAnalysis.Proofs.ControlFlow.Order
import FlowAnalysis.Proofs.Analysis.Changes
import FlowAnalysis.Proofs.Analysis.Learning
import FlowAnalysis.Proofs.Analysis.Registration
import FlowAnalysis.Proofs.Analysis.CallUpdates
import FlowAnalysis.Proofs.Analysis.CallSites
import FlowAnalysis.Proofs.Analysis.Repetition
import FlowAnalysis.Proofs.Json.Distinct
import FlowAnalysis.Proofs.Json.Numbers
import FlowAnalysis.Proofs.Json.Covering
import FlowAnalysis.Proofs.Tree.Walk
import FlowAnalysis.Proofs.Tree.Preorder
import FlowAnalysis.Proofs.Tree.RoundTrip
import FlowAnalysis.Proofs.Tree.Numbers
import FlowAnalysis.Proofs.Json.Text
import FlowAnalysis.Proofs.Json.Layout
import FlowAnalysis.Proofs.Json.Reading
import FlowAnalysis.Proofs.Json.Readable
import FlowAnalysis.Proofs.Tree.Document
import FlowAnalysis.Proofs.Spec.Document
import FlowAnalysis.Proofs.Spec.RoundTrip
import FlowAnalysis.Proofs.ControlFlow.Access
import FlowAnalysis.Proofs.ControlFlow.Fence
import FlowAnalysis.Proofs.ControlFlow.Fencing
import FlowAnalysis.Proofs.ControlFlow.LastClause
import FlowAnalysis.Proofs.ControlFlow.CutOff
import FlowAnalysis.Proofs.ControlFlow.TailPosition
import FlowAnalysis.Proofs.ControlFlow.Abrupt
import FlowAnalysis.Proofs.Analysis.Placeholder
import FlowAnalysis.Proofs.Analysis.NamedScopes
import FlowAnalysis.Proofs.Analysis.Recursion
import FlowAnalysis.Proofs.Analysis.FirstVisit
import FlowAnalysis.Proofs.Analysis.ReceiverTypes
import FlowAnalysis.Proofs.Analysis.DeclaredMutation
import FlowAnalysis.Proofs.Analysis.Charges
import FlowAnalysis.Proofs.Analysis.FreeNames
import FlowAnalysis.Proofs.Analysis.Targets
import FlowAnalysis.Proofs.Analysis.ClassBodies
import FlowAnalysis.Proofs.ControlFlow.Flattening
import FlowAnalysis.Proofs.ControlFlow.PostdominatorTree
import FlowAnalysis.Proofs.Reference.Transfer
import FlowAnalysis.Proofs.KeyedSet.History
import FlowAnalysis.Proofs.Spec.Import
import FlowAnalysis.Proofs.ControlFlow.Tracing
import FlowAnalysis.Proofs.ControlFlow.Adjacency
import FlowAnalysis.Proofs.ControlFlow.BreadthFirst
import FlowAnalysis.Proofs.Location
import FlowAnalysis.Proofs.Python.ModuleReads
import FlowAnalysis.Proofs.ControlFlow.LoopHeads
import FlowAnalysis.Proofs.Analysis.Growth
import FlowAnalysis.Proofs.Analysis.Draining
import FlowAnalysis.Proofs.Analysis.Limits

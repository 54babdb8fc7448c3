import HeaderBind.Text.Blank
import HeaderBind.Text.Digit
import HeaderBind.Text.DoubleQuoted
import HeaderBind.Text.LowerCase
import HeaderBind.Text.Quoted
import HeaderBind.Text.Search
import HeaderBind.CType
import HeaderBind.Decl.Request
import HeaderBind.Journal
import HeaderBind.Cursor.BareName
import HeaderBind.Cursor.Dump
import HeaderBind.Collect.Retention
import HeaderBind.Collect.Records
import HeaderBind.Binding.Expr
import HeaderBind.Binding.Item
import HeaderBind.Collect
import HeaderBind.Binding.Rendering
import HeaderBind.Binding.Module
import HeaderBind.Source.Preamble
import HeaderBind.Source.Module
import HeaderBind.RunFile
import HeaderBind.CommandLine.Settings
import HeaderBind.Toolchain.Compiler
import HeaderBind.Toolchain.Library
import HeaderBind.CommandLine.Run
import HeaderBind.Journal.Session
import HeaderBind.Main
import HeaderBind.Proofs.DefinedBefore
import HeaderBind.Proofs.Embedding
import HeaderBind.Proofs.LinkGroup
import HeaderBind.Proofs.EndingWalk
import HeaderBind.Proofs.RetainedParts
import HeaderBind.Proofs.FrozenGraph
import HeaderBind.Proofs.Policies
import HeaderBind.Proofs.Redeclaration
import HeaderBind.Proofs.ReadOnly
import HeaderBind.Proofs.Transparency
import HeaderBind.Proofs.Footprint
import HeaderBind.Proofs.Emission
import HeaderBind.Proofs.Filter
import HeaderBind.Proofs.MadeNames
import HeaderBind.Proofs.Diagnostics
import HeaderBind.Proofs.FailedFold
import HeaderBind.Proofs.RecordLayout
import HeaderBind.Proofs.MemberNames
import HeaderBind.Proofs.StableOrder
import HeaderBind.Proofs.MemberLabels
import HeaderBind.Proofs.Completion
import HeaderBind.Proofs.Pruning
import HeaderBind.Proofs.RepeatedName
import HeaderBind.Proofs.Parameters
import HeaderBind.Proofs.EnumeratorText
import HeaderBind.Proofs.Strictness
import HeaderBind.Proofs.LeftOver
import HeaderBind.Proofs.FirstFailure
import HeaderBind.Proofs.Routing
import HeaderBind.Proofs.SearchList
import HeaderBind.Proofs.BareName
import HeaderBind.Proofs.Canonical
import HeaderBind.Proofs.GroupLiterals

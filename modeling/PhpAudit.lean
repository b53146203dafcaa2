import PhpAudit.Budget
import PhpAudit.Check
import PhpAudit.CommandLine
import PhpAudit.Config
import PhpAudit.Constant
import PhpAudit.Declaration
import PhpAudit.Document
import PhpAudit.FileTree
import PhpAudit.FileWalk
import PhpAudit.Flow.Block
import PhpAudit.Flow.Body
import PhpAudit.Flow.Exit
import PhpAudit.Flow.ExitPoint
import PhpAudit.Flow.Guard
import PhpAudit.Flow.Walk
import PhpAudit.Hierarchy
import PhpAudit.Issue
import PhpAudit.Issue.Format
import PhpAudit.Issue.Json
import PhpAudit.Issue.Text
import PhpAudit.Log
import PhpAudit.Main
import PhpAudit.Naming
import PhpAudit.Options
import PhpAudit.Params
import PhpAudit.Path
import PhpAudit.Pattern.Glob
import PhpAudit.Pattern.Regex.Basic
import PhpAudit.Pattern.Regex.Build
import PhpAudit.Pattern.Regex.Class
import PhpAudit.Pattern.Regex.Escape
import PhpAudit.Pattern.Regex.Flags
import PhpAudit.Pattern.Regex.Reader
import PhpAudit.Pattern.Regex.Size
import PhpAudit.Project
import PhpAudit.Proofs.Collected
import PhpAudit.Proofs.Constants
import PhpAudit.Proofs.Declaring
import PhpAudit.Proofs.Execution.Course
import PhpAudit.Proofs.Execution.Jumping
import PhpAudit.Proofs.Execution.Ordering
import PhpAudit.Proofs.Execution.Reading
import PhpAudit.Proofs.Execution.Retaking
import PhpAudit.Proofs.Execution.Run
import PhpAudit.Proofs.Execution.Semantics
import PhpAudit.Proofs.Execution.Sequencing
import PhpAudit.Proofs.Execution.Writing
import PhpAudit.Proofs.Flow.Accruing
import PhpAudit.Proofs.Flow.Alarms
import PhpAudit.Proofs.Flow.Assigning
import PhpAudit.Proofs.Flow.Binding
import PhpAudit.Proofs.Flow.Branching
import PhpAudit.Proofs.Flow.Callees
import PhpAudit.Proofs.Flow.Calls
import PhpAudit.Proofs.Flow.Cases
import PhpAudit.Proofs.Flow.Collecting
import PhpAudit.Proofs.Flow.Confining
import PhpAudit.Proofs.Flow.Deafness
import PhpAudit.Proofs.Flow.Definedness
import PhpAudit.Proofs.Flow.Drift
import PhpAudit.Proofs.Flow.Enduring
import PhpAudit.Proofs.Flow.Entering
import PhpAudit.Proofs.Flow.Filling
import PhpAudit.Proofs.Flow.Following
import PhpAudit.Proofs.Flow.Gains
import PhpAudit.Proofs.Flow.Holding
import PhpAudit.Proofs.Flow.Hushing
import PhpAudit.Proofs.Flow.Ignoring
import PhpAudit.Proofs.Flow.Instances
import PhpAudit.Proofs.Flow.Joining
import PhpAudit.Proofs.Flow.Lasting
import PhpAudit.Proofs.Flow.Leaving
import PhpAudit.Proofs.Flow.Ledger
import PhpAudit.Proofs.Flow.Liveness
import PhpAudit.Proofs.Flow.Locating
import PhpAudit.Proofs.Flow.Looping
import PhpAudit.Proofs.Flow.Meeting
import PhpAudit.Proofs.Flow.Merging
import PhpAudit.Proofs.Flow.Narrowing
import PhpAudit.Proofs.Flow.Normality
import PhpAudit.Proofs.Flow.Noticing
import PhpAudit.Proofs.Flow.Obeying
import PhpAudit.Proofs.Flow.Offering
import PhpAudit.Proofs.Flow.Omitting
import PhpAudit.Proofs.Flow.Receivers
import PhpAudit.Proofs.Flow.Recording
import PhpAudit.Proofs.Flow.Remembering
import PhpAudit.Proofs.Flow.Repeating
import PhpAudit.Proofs.Flow.Retaining
import PhpAudit.Proofs.Flow.Retracting
import PhpAudit.Proofs.Flow.Seeing
import PhpAudit.Proofs.Flow.Sparing
import PhpAudit.Proofs.Flow.Standing
import PhpAudit.Proofs.Flow.Switching
import PhpAudit.Proofs.Flow.Touching
import PhpAudit.Proofs.Flow.Tracking
import PhpAudit.Proofs.Flow.Trailing
import PhpAudit.Proofs.Flow.Uniting
import PhpAudit.Proofs.Flow.Unused
import PhpAudit.Proofs.Flow.Values
import PhpAudit.Proofs.Flow.Visits
import PhpAudit.Proofs.Flow.Walking
import PhpAudit.Proofs.Generators
import PhpAudit.Proofs.Hierarchy.Implementing
import PhpAudit.Proofs.Hierarchy.Members
import PhpAudit.Proofs.Hierarchy.Overriding
import PhpAudit.Proofs.Hierarchy.Subtyping
import PhpAudit.Proofs.Importing
import PhpAudit.Proofs.Positions
import PhpAudit.Proofs.Properties
import PhpAudit.Proofs.Reporting
import PhpAudit.Proofs.Resolution.CallGraph
import PhpAudit.Proofs.Resolution.Cycles
import PhpAudit.Proofs.Resolution.Declared
import PhpAudit.Proofs.Resolution.LateStatic
import PhpAudit.Proofs.Resolution.Plain
import PhpAudit.Proofs.Resolution.Relating
import PhpAudit.Proofs.Resolution.Resolved
import PhpAudit.Proofs.Resolution.Settling
import PhpAudit.Proofs.Resolution.Termination
import PhpAudit.Proofs.Resolution.Union
import PhpAudit.Proofs.Resolution.Universe
import PhpAudit.Proofs.Resolution.Walks
import PhpAudit.Proofs.Resolution.Wrapping
import PhpAudit.Proofs.Symbol.Changes
import PhpAudit.Proofs.Symbol.Merged
import PhpAudit.Proofs.Symbol.Order
import PhpAudit.Proofs.Symbol.Retraction
import PhpAudit.Proofs.Syntax.Every
import PhpAudit.Proofs.Syntax.Viewing
import PhpAudit.Proofs.Types.Copying
import PhpAudit.Proofs.Types.Law
import PhpAudit.Proofs.Types.Members
import PhpAudit.Proofs.Types.Normal
import PhpAudit.Proofs.Types.Unmarked
import PhpAudit.Resolution
import PhpAudit.Scope
import PhpAudit.Symbol.Builtin
import PhpAudit.Symbol.Index
import PhpAudit.Symbol.Info
import PhpAudit.Syntax.Fragment
import PhpAudit.Syntax.Number
import PhpAudit.Syntax.Operator
import PhpAudit.Syntax.Parser.Argument
import PhpAudit.Syntax.Parser.Basic
import PhpAudit.Syntax.Parser.Class
import PhpAudit.Syntax.Parser.Expression
import PhpAudit.Syntax.Parser.Function
import PhpAudit.Syntax.Parser.Inner
import PhpAudit.Syntax.Parser.Precedence
import PhpAudit.Syntax.Parser.Program
import PhpAudit.Syntax.Parser.Statement
import PhpAudit.Syntax.Quoted
import PhpAudit.Syntax.Span
import PhpAudit.Syntax.Token
import PhpAudit.Syntax.Token.Lexer
import PhpAudit.Syntax.Token.Mark
import PhpAudit.Syntax.Token.Template
import PhpAudit.Syntax.Traversal
import PhpAudit.Syntax.Tree
import PhpAudit.Text.Basic
import PhpAudit.Text.Bytes
import PhpAudit.Text.CodeSet
import PhpAudit.Text.Lines
import PhpAudit.Text.Utf8
import PhpAudit.Toml.Basic
import PhpAudit.Toml.Reader
import PhpAudit.Types.Hint
import PhpAudit.Types.Name
import PhpAudit.Types.Set
import PhpAudit.Types.Value
import PhpAudit.Typing
import PhpAudit.Unicode.Age
import PhpAudit.Unicode.Break
import PhpAudit.Unicode.CaseFold
import PhpAudit.Unicode.Category
import PhpAudit.Unicode.Property
import PhpAudit.Unicode.Query
import PhpAudit.Unicode.Script
import PhpAudit.Unicode.Table

import FunctionJar.Text.Blank
import FunctionJar.Text.Quoted
import FunctionJar.Text.Utf8
import FunctionJar.Text.Boundary
import FunctionJar.Text.Decimal
import FunctionJar.Dialect
import FunctionJar.ClassName
import FunctionJar.Failure
import FunctionJar.Definition
import FunctionJar.Json.Parser
import FunctionJar.Text.Shortest
import FunctionJar.Json.Decode
import FunctionJar.Sql.Function
import FunctionJar.Source.Bracket
import FunctionJar.Jvm
import FunctionJar.Python
import FunctionJar.Disk.Basic
import FunctionJar.Step
import FunctionJar.Shell.Script
import FunctionJar.Shell.Pattern
import FunctionJar.Shell.Parser
import FunctionJar.Shell.Format
import FunctionJar.Shell.Regex
import FunctionJar.Shell.Process
import FunctionJar.Shell.Program
import FunctionJar.Shell.Run
import FunctionJar.Work
import FunctionJar.Registry
import FunctionJar.Strategy.Scripted
import FunctionJar.Archive.Conflict
import FunctionJar.Log.Batch
import FunctionJar.Execution.Run
import FunctionJar.Archive.Assemble
import FunctionJar.Config
import FunctionJar.Batch
import FunctionJar.Log.Line
import FunctionJar.CommandLine.Run
import FunctionJar.Main
import FunctionJar.Proofs.Text
import FunctionJar.Proofs.Text.Trim
import FunctionJar.Proofs.Except
import FunctionJar.Proofs.Disk
import FunctionJar.Proofs.Disk.Sight
import FunctionJar.Proofs.Disk.Resolution
import FunctionJar.Proofs.Disk.Item
import FunctionJar.Proofs.Workspace
import FunctionJar.Proofs.Execution.Schedule
import FunctionJar.Proofs.Execution.Progress
import FunctionJar.Proofs.Execution.Accounting
import FunctionJar.Proofs.Execution.Cancellation
import FunctionJar.Proofs.Execution.Workspaces
import FunctionJar.Proofs.Execution.Isolation
import FunctionJar.Proofs.Execution.Leftovers
import FunctionJar.Proofs.Execution.Surroundings
import FunctionJar.Proofs.Archive.Rejection
import FunctionJar.Proofs.Archive.Contents
import FunctionJar.Proofs.Archive.Order
import FunctionJar.Proofs.Archive.Priority
import FunctionJar.Proofs.Archive.Room
import FunctionJar.Proofs.Archive.Replacement
import FunctionJar.Proofs.Normalization
import FunctionJar.Proofs.Batch.Conservation
import FunctionJar.Proofs.Batch.Extension
import FunctionJar.Proofs.Batch.Output
import FunctionJar.Proofs.Java.Token
import FunctionJar.Proofs.Java.Reading
import FunctionJar.Proofs.Sql.Grammar
import FunctionJar.Proofs.Sql.Header
import FunctionJar.Proofs.Sql.Token
import FunctionJar.Proofs.Sql.Lowering
import FunctionJar.Proofs.ClassName
import FunctionJar.Proofs.Admission
import FunctionJar.Proofs.Source.Lexer
import FunctionJar.Proofs.Source.Blanking
import FunctionJar.Proofs.Source.Reading
import FunctionJar.Proofs.Source.Nesting
import FunctionJar.Proofs.Source.Seam
import FunctionJar.Proofs.Source.Indentation
import FunctionJar.Proofs.Python.Indentation
import FunctionJar.Proofs.Python.Header
import FunctionJar.Proofs.Sql.Typing
import FunctionJar.Proofs.Sql.Acceptance
import FunctionJar.Proofs.Java.Typing
import FunctionJar.Proofs.Sql.JavaType
import FunctionJar.Proofs.Java.Literal
import FunctionJar.Proofs.Java.Integer
import FunctionJar.Proofs.Sql.Scanning
import FunctionJar.Proofs.Sql.Literal
import FunctionJar.Proofs.Sql.Parameter
import FunctionJar.Proofs.Sql.Rendering
import FunctionJar.Proofs.Sql.Integer
import FunctionJar.Proofs.Disk.Descent
import FunctionJar.Proofs.Naming
import FunctionJar.Proofs.Strategy
import FunctionJar.Proofs.Confinement
import FunctionJar.Proofs.Batch.Entries
import FunctionJar.Proofs.Text.Utf8
import FunctionJar.Proofs.Text.Boundary
import FunctionJar.Proofs.Diagnostic
import FunctionJar.Proofs.Zip.Read
import FunctionJar.Proofs.Disk.Folder
import FunctionJar.Proofs.Archive.Index
import FunctionJar.Proofs.Archive.Inspection
import FunctionJar.Proofs.Source.Declaration
import FunctionJar.Proofs.Jvm.Declaration
import FunctionJar.Proofs.Python.Binding
import FunctionJar.Proofs.Python.Export
import FunctionJar.Proofs.Source.Fragment
import FunctionJar.Proofs.Java.Blanking
import FunctionJar.Proofs.Sql.ClassText
import FunctionJar.Proofs.CommandLine.Precedence
import FunctionJar.Proofs.Sql.LetterCase
import FunctionJar.Proofs.Execution.Permits
import FunctionJar.Proofs.Execution.Bounds
import FunctionJar.Proofs.Disk.Below
import FunctionJar.Proofs.Disk.Collection
import FunctionJar.Proofs.Jvm.Collection

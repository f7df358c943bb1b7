import ScriptBundler.Syntax.Basic
import ScriptBundler.Text.Quoted
import ScriptBundler.Text.Unprintable
import ScriptBundler.Url
import ScriptBundler.Log
import ScriptBundler.Graph
import ScriptBundler.Options.Reader
import ScriptBundler.Options.Value
import ScriptBundler.Syntax.Lexer
import ScriptBundler.Syntax.Parser
import ScriptBundler.Syntax.Printer
import ScriptBundler.Syntax.Traversal
import ScriptBundler.Syntax.Template
import ScriptBundler.Thunk
import ScriptBundler.Command
import ScriptBundler.Main
import ScriptBundler.Proofs.Graph.Basic
import ScriptBundler.Proofs.Graph.Search
import ScriptBundler.Proofs.Graph.Consistency
import ScriptBundler.Proofs.Graph.Emission
import ScriptBundler.Proofs.Distinct
import ScriptBundler.Proofs.Graph.Linking
import ScriptBundler.Proofs.Syntax.InStep
import ScriptBundler.Proofs.Thunk.References
import ScriptBundler.Proofs.Thunk.Drafting
import ScriptBundler.Proofs.Thunk.Statement
import ScriptBundler.Proofs.Thunk.Pieces
import ScriptBundler.Proofs.Thunk.Imports
import ScriptBundler.Proofs.Thunk.Lowering
import ScriptBundler.Proofs.Thunk.Compaction
import ScriptBundler.Proofs.Syntax.TopLevel
import ScriptBundler.Proofs.Syntax.Names
import ScriptBundler.Proofs.Syntax.Declared
import ScriptBundler.Proofs.Thunk.Exports
import ScriptBundler.Proofs.Thunk.HandedOut
import ScriptBundler.Proofs.Thunk.Publication
import ScriptBundler.Proofs.Thunk.Hygiene
import ScriptBundler.Proofs.Scan.Invariant
import ScriptBundler.Proofs.Scan.Step
import ScriptBundler.Proofs.Scan.Run
import ScriptBundler.Proofs.Scan.Cycles
import ScriptBundler.Proofs.Bundle.Order
import ScriptBundler.Proofs.Thunk.ExportsObject
import ScriptBundler.Proofs.Scan.Bodies
import ScriptBundler.Proofs.Scan.Independence
import ScriptBundler.Proofs.Syntax.Occurrence
import ScriptBundler.Proofs.Thunk.Marks
import ScriptBundler.Proofs.Thunk.Leftover
import ScriptBundler.Proofs.Thunk.Awaits
import ScriptBundler.Proofs.Bundle.Script
import ScriptBundler.Proofs.Syntax.Plain
import ScriptBundler.Proofs.Syntax.Yields.Expressions
import ScriptBundler.Proofs.Syntax.Yields.Program
import ScriptBundler.Proofs.Thunk.Lockstep
import ScriptBundler.Proofs.Thunk.Styles
import ScriptBundler.Proofs.Url
import ScriptBundler.Proofs.Url.Places
import ScriptBundler.Proofs.Url.Resolution
import ScriptBundler.Proofs.Thunk.Sites
import ScriptBundler.Proofs.Thunk.Fixpoint
import ScriptBundler.Proofs.Scan.Loads
import ScriptBundler.Proofs.Syntax.Free
import ScriptBundler.Proofs.Bundle.Scope
import ScriptBundler.Proofs.Syntax.Accepted
import ScriptBundler.Proofs.Syntax.Spelling
import ScriptBundler.Proofs.Syntax.Reading
import ScriptBundler.Proofs.Syntax.Reading.Expressions
import ScriptBundler.Proofs.Syntax.Reading.Statements
import ScriptBundler.Proofs.Syntax.Denotes
import ScriptBundler.Proofs.Thunk.Texts
import ScriptBundler.Proofs.Thunk.ImportTexts
import ScriptBundler.Proofs.Graph.PostOrder
import ScriptBundler.Proofs.Graph.Edges
import ScriptBundler.Proofs.Syntax.Reading.Functions
import ScriptBundler.Proofs.Bundle.Registration
import ScriptBundler.Proofs.Thunk.Redirection
import ScriptBundler.Proofs.Thunk.Generated
import ScriptBundler.Proofs.Graph.Refusals
import ScriptBundler.Proofs.Thunk.Awaiting
import ScriptBundler.Proofs.Thunk.Diagnostics
import ScriptBundler.Proofs.Syntax.Hoisting
import ScriptBundler.Proofs.Thunk.Mutability
import ScriptBundler.Proofs.Thunk.Evaluation
import ScriptBundler.Proofs.Thunk.ImportValues
import ScriptBundler.Proofs.Thunk.Quoting
import ScriptBundler.Proofs.Scan.Directory
import ScriptBundler.Proofs.Bundle.Running
import ScriptBundler.Proofs.Bundle.Draining
import ScriptBundler.Proofs.Bundle.Inclusion
import ScriptBundler.Proofs.Bundle.Closure
import ScriptBundler.Proofs.Syntax.Rebuilding
import ScriptBundler.Proofs.Thunk.Filling

import EsModule.CommandLine
import EsModule.Compile.Error
import EsModule.Compile.Interface
import EsModule.Compile.Output
import EsModule.Compile.Patch
import EsModule.Compile.Reading
import EsModule.Compile.Standalone
import EsModule.Json.Basic
import EsModule.Loader.Body
import EsModule.Loader.Call
import EsModule.Loader.Compiling
import EsModule.Loader.Config
import EsModule.Loader.Error
import EsModule.Loader.Execute
import EsModule.Loader.Fetch
import EsModule.Loader.Graph
import EsModule.Loader.Heap
import EsModule.Loader.Record
import EsModule.Loader.Resource
import EsModule.Loader.Session
import EsModule.Loader.Table
import EsModule.Loader.Value
import EsModule.Loader.World
import EsModule.Main
import EsModule.Number.Binary64
import EsModule.Number.Decimal
import EsModule.Proofs.Arrow.Cover
import EsModule.Proofs.Arrow.Parameters
import EsModule.Proofs.Arrow.Passage
import EsModule.Proofs.Compile.Apply
import EsModule.Proofs.Compile.Becomes
import EsModule.Proofs.Compile.Bindings
import EsModule.Proofs.Compile.Elimination
import EsModule.Proofs.Compile.Embedded
import EsModule.Proofs.Compile.ExportTable
import EsModule.Proofs.Compile.Exported
import EsModule.Proofs.Compile.Forms
import EsModule.Proofs.Compile.Front
import EsModule.Proofs.Compile.Hygiene
import EsModule.Proofs.Compile.Interface
import EsModule.Proofs.Compile.Items
import EsModule.Proofs.Compile.Linking
import EsModule.Proofs.Compile.Mirror
import EsModule.Proofs.Compile.Order
import EsModule.Proofs.Compile.Readers
import EsModule.Proofs.Compile.Remains
import EsModule.Proofs.Compile.Rewrite
import EsModule.Proofs.Compile.Settled
import EsModule.Proofs.Compile.Uses
import EsModule.Proofs.Compile.Wrapped
import EsModule.Proofs.Grammar.Derives
import EsModule.Proofs.Grammar.Ensures
import EsModule.Proofs.Grammar.Expression
import EsModule.Proofs.Grammar.Function
import EsModule.Proofs.Grammar.Inside
import EsModule.Proofs.Grammar.Item
import EsModule.Proofs.Grammar.Primary
import EsModule.Proofs.Grammar.Reading
import EsModule.Proofs.Grammar.Rounds
import EsModule.Proofs.Grammar.Statement
import EsModule.Proofs.Grammar.Target
import EsModule.Proofs.Layout.Expression
import EsModule.Proofs.Layout.Fits
import EsModule.Proofs.Layout.Item
import EsModule.Proofs.Layout.Laid
import EsModule.Proofs.Layout.Primary
import EsModule.Proofs.Layout.Statement
import EsModule.Proofs.Layout.Target
import EsModule.Proofs.Layout.Tree
import EsModule.Proofs.Lexis.Delimiter
import EsModule.Proofs.Lexis.Literal
import EsModule.Proofs.Lexis.Locality
import EsModule.Proofs.Lexis.Number
import EsModule.Proofs.Lexis.Printed
import EsModule.Proofs.Lexis.Quoted
import EsModule.Proofs.Lexis.Tiling
import EsModule.Proofs.Lexis.Token
import EsModule.Proofs.Loader.Acyclic
import EsModule.Proofs.Loader.Asked
import EsModule.Proofs.Loader.Clean
import EsModule.Proofs.Loader.Code
import EsModule.Proofs.Loader.Dependency
import EsModule.Proofs.Loader.Depth
import EsModule.Proofs.Loader.Effects
import EsModule.Proofs.Loader.Evaluation
import EsModule.Proofs.Loader.Following
import EsModule.Proofs.Loader.Identity
import EsModule.Proofs.Loader.LifeCycle
import EsModule.Proofs.Loader.LiveMap
import EsModule.Proofs.Loader.Moments
import EsModule.Proofs.Loader.Naming
import EsModule.Proofs.Loader.Progress
import EsModule.Proofs.Loader.Registry
import EsModule.Proofs.Loader.Schemes
import EsModule.Proofs.Loader.Service
import EsModule.Proofs.Loader.Slots
import EsModule.Proofs.Loader.Steps
import EsModule.Proofs.Loader.Turns
import EsModule.Proofs.Loader.Waits
import EsModule.Proofs.Pairing.Basic
import EsModule.Proofs.Pairing.Echo
import EsModule.Proofs.Pairing.Expression
import EsModule.Proofs.Pairing.Fault
import EsModule.Proofs.Pairing.Function
import EsModule.Proofs.Pairing.Item
import EsModule.Proofs.Pairing.Node
import EsModule.Proofs.Pairing.Primary
import EsModule.Proofs.Pairing.Statement
import EsModule.Proofs.Pairing.Target
import EsModule.Proofs.Pairing.Termination
import EsModule.Proofs.Printing.Clause
import EsModule.Proofs.Printing.Gives
import EsModule.Proofs.Printing.Lexeme
import EsModule.Proofs.Printing.Link
import EsModule.Proofs.Printing.Member
import EsModule.Proofs.Printing.Operation
import EsModule.Proofs.Printing.Phrase
import EsModule.Proofs.Printing.Reader
import EsModule.Proofs.Printing.Reread
import EsModule.Proofs.Printing.Statement
import EsModule.Proofs.Printing.Verbatim
import EsModule.Proofs.Scope.Around
import EsModule.Proofs.Scope.Bound
import EsModule.Proofs.Scope.Declared
import EsModule.Proofs.Scope.Embedding
import EsModule.Proofs.Scope.Forms
import EsModule.Proofs.Scope.Mirror
import EsModule.Proofs.Scope.Names
import EsModule.Proofs.Scope.Placed
import EsModule.Proofs.Scope.Placement
import EsModule.Proofs.Scope.Resolve
import EsModule.Proofs.Scope.Site
import EsModule.Proofs.Scope.Steps
import EsModule.Proofs.Scope.Visible
import EsModule.Proofs.SourceMap.Decode
import EsModule.Proofs.SourceMap.Faithful
import EsModule.Proofs.SourceMap.Marks
import EsModule.Proofs.SourceMap.Place
import EsModule.Proofs.Spacing.Gap
import EsModule.Proofs.Spacing.Insertion
import EsModule.Proofs.Spacing.Parse
import EsModule.Proofs.Spacing.Respaced
import EsModule.Proofs.Spacing.Tracked
import EsModule.Proofs.Text.Basic
import EsModule.Proofs.Tree.Fresh
import EsModule.Proofs.Tree.Nodes
import EsModule.Scope.Collect
import EsModule.Scope.Reference
import EsModule.Scope.Tree
import EsModule.SourceMap.Generate
import EsModule.SourceMap.Json
import EsModule.Syntax.Escape
import EsModule.Syntax.Fault
import EsModule.Syntax.Grammar.Basic
import EsModule.Syntax.Grammar.Expression
import EsModule.Syntax.Grammar.Function
import EsModule.Syntax.Grammar.Item
import EsModule.Syntax.Grammar.Primary
import EsModule.Syntax.Grammar.Statement
import EsModule.Syntax.Grammar.Target
import EsModule.Syntax.KindName
import EsModule.Syntax.Lexer
import EsModule.Syntax.Node
import EsModule.Syntax.NodeTable
import EsModule.Syntax.Operator
import EsModule.Syntax.Parse
import EsModule.Syntax.Pattern
import EsModule.Syntax.Print.Role
import EsModule.Syntax.Print.Statement
import EsModule.Syntax.Quoted
import EsModule.Syntax.Supply
import EsModule.Syntax.Token
import EsModule.Syntax.Trivia
import EsModule.Syntax.Word
import EsModule.Text.Base64
import EsModule.Text.Blank
import EsModule.Text.Composition
import EsModule.Text.Composition.Table
import EsModule.Text.Identifier
import EsModule.Text.Offset
import EsModule.Text.Position
import EsModule.Text.Shown
import EsModule.Text.Table
import EsModule.Toml.Read
import EsModule.Url.Basic
import EsModule.Url.Domain.Character
import EsModule.Url.Domain.Label
import EsModule.Url.Domain.Name
import EsModule.Url.Encoding
import EsModule.Url.Parse
import EsModule.Url.Path

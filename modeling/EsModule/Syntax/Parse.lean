import EsModule.Syntax.Grammar.Item

/-!
# Reading a module

`Grammar.ofDepth` ties the rules of the grammar together: the rules of one depth call those of the
depth below for the parts of what they read, and at depth zero nothing can be read. A rule calls
another one without moving over a token at most once, from a statement to its expression, so twice
the length of the source is depth enough for every source.

`parseModule` reads a whole source. It gives the tree, whose root has the number zero, or the error
that a reader is told of.
-/

namespace EsModule.Syntax

open EsModule.Text

namespace Grammar

/-- The rules down to a depth of nesting. -/
def ofDepth : Nat → Grammar
  | 0 =>
    let stop {α : Type} : Parser α := Parser.fail .nestingBound
    { statement := stop, assignment := stop, binary := fun _ => stop, unary := stop
      leftHandSide := stop, newExpression := stop, bindingTarget := stop }
  | depth + 1 =>
    { statement := fun c s => statementRule (ofDepth depth) c s
      assignment := fun c s => assignmentRule (ofDepth depth) c s
      binary := fun least c s => binaryRule (ofDepth depth) least c s
      unary := fun c s => unaryRule (ofDepth depth) c s
      leftHandSide := fun c s => leftHandSideRule (ofDepth depth) c s
      newExpression := fun c s => newExpressionRule (ofDepth depth) c s
      bindingTarget := fun c s => bindingTargetRule (ofDepth depth) c s }

/-- The items of a module up to its end. -/
def moduleBody (g : Grammar) : Parser (List Node) :=
  Parser.listUntil (· = .eof) do return ([← g.moduleItem], true)

end Grammar

/-- The state in front of the first token of a source. -/
def State.start (source : List Char) : State :=
  let first := firstCursor source
  let (token, behind) := nextToken first
  { current := token, before := first, behind, previous := ⟨0, 0⟩, nextId := 1, read := [] }

/-- The depth of nesting that suffices for a source. -/
def depthBound (source : List Char) : Nat := 2 * source.length + 4

/-- The items of a module, or why and where it is refused. -/
def parseItems (source : List Char) : Except Failure (List Node) := do
  let context : Context := ⟨true, false, source.length + 2⟩
  let g := Grammar.ofDepth (depthBound source)
  let (items, _) ← (g.moduleBody context).run (State.start source)
  return items

/-- The tree of a module. Its root spans the whole source. -/
def parseTree (source : List Char) : Except Failure Node := do
  return .mk 0 ⟨0, byteSize source⟩ (.program (← parseItems source))

/-- The tree of a module from a file, or the error to tell. -/
def parseModule (source file : String) : Except SyntaxError Node :=
  (parseTree source.toList).mapError fun failure =>
    .atOffset source.toList failure.offset file failure.fault.message

end EsModule.Syntax

import EsModule.Syntax.Fault
import EsModule.Syntax.Lexer
import EsModule.Syntax.Node

/-!
# Reading by the grammar: state and tokens

A `Parser` looks at one token at a time. Its state holds that token, the places in front of and
behind it, the span of the token before, the number for the next node, and a record of the tokens
that were moved over, which no rule looks at. Its context holds what an outer rule decides for the
rules inside it: whether `in` is an operator here, and whether `yield` is. A parser that fails says
why, and at which offset: always the start of the token it looks at.

Rules that repeat use `loop`. Its bound is the length of the source, and every round of every rule
moves over a token, so the bound is never reached.
-/

namespace EsModule.Syntax

open EsModule.Text

/-- Why and where a source is refused. -/
structure Failure where
  /-- The cause. -/
  fault : SyntaxFault
  /-- The byte offset of the token at fault. -/
  offset : Nat
deriving DecidableEq

/-- What outer rules decide for inner ones. -/
structure Context where
  /-- Whether `in` is an operator. -/
  allowIn : Bool
  /-- Whether `yield` is an operator. -/
  inGenerator : Bool
  /-- How many rounds a repetition may take. -/
  bound : Nat

/-- How far reading has come. -/
structure State where
  /-- The token to look at. -/
  current : Token
  /-- The place behind the token before. -/
  before : Cursor
  /-- The place behind the current token. -/
  behind : Cursor
  /-- The span of the token before. -/
  previous : Span
  /-- The number for the next node. -/
  nextId : Nat
  /-- The tokens that were moved over, the last one first. -/
  read : List Token

/-- A rule of the grammar, which reads an `α`. -/
abbrev Parser := ReaderT Context (StateT State (Except Failure))

/-- One round of a repetition: go on from a value, or end with a result. -/
inductive Round (α β : Type) where
  | again (a : α)
  | finish (b : β)

namespace Parser

/-! ## Failing -/

/-- The token to look at. -/
def current : Parser Token := return (← get).current

/-- The offset of the token to look at. -/
def here : Parser Nat := return (← current).span.start

/-- Refuses the source at the current token. -/
def fail {α : Type} (fault : SyntaxFault) : Parser α := do throw ⟨fault, ← here⟩

/-- The source text of the current token. -/
def currentText : Parser String := do
  let s ← get
  let start := (skipTrivia s.before).2
  return String.ofList (start.textTo s.current.span.stop)

/-- Refuses the source because the current token has no place here. -/
def unexpected {α : Type} : Parser α := do
  match (← current).kind with
  | .invalid cause => fail (.lexical cause)
  | .eof => fail .unexpectedEnd
  | _ => fail (.unexpectedToken (← currentText))

/-! ## Repeating -/

/-- At most `bound` rounds. -/
def loopWithin {α β : Type} (step : α → Parser (Round α β)) : Nat → α → Parser β
  | 0, _ => fail .nestingBound
  | bound + 1, a => do
    match ← step a with
    | .again a => loopWithin step bound a
    | .finish b => return b

/-- Repeats `step` until it ends. -/
def loop {α β : Type} (a : α) (step : α → Parser (Round α β)) : Parser β := do
  loopWithin step (← read).bound a

/-- Reads lists up to a token that ends them, or up to one behind which `item` says to stop, and
joins them. -/
def listUntil {α : Type} (ends : TokenKind → Bool) (item : Parser (List α × Bool)) :
    Parser (List α) :=
  loop [] fun items => do
    if ends (← current).kind then return .finish items
    let (more, goesOn) ← item
    if goesOn then return .again (items ++ more) else return .finish (items ++ more)

/-! ## Moving on -/

/-- Moves to the next token. -/
def advance : Parser Unit :=
  modify fun s =>
    let (token, behind) := nextToken s.behind
    { s with
      current := token, before := s.behind, behind, previous := s.current.span
      read := s.current :: s.read }

/-- Reads the current token again, by another rule that starts behind its first character. -/
def rescan (rule : Nat → Cursor → Token × Cursor) : Parser Token := do
  let s ← get
  let start := (skipTrivia s.before).2
  let (token, behind) := rule s.current.span.start start.advance
  let token := { token with newlineBefore := s.current.newlineBefore }
  set { s with current := token, behind }
  return token

/-- The token behind the current one. -/
def peek : Parser Token := return (nextToken (← get).behind).1

/-- Whether the current token is a punctuator. -/
def sees (mark : Punctuator) : Parser Bool := return (← current).kind = .punctuator mark

/-- Whether the current token is a word. -/
def seesWord (word : Keyword) : Parser Bool := return (← current).kind = .keyword word

/-- Whether the current token is a certain name, which is a word only in this place. -/
def seesName (name : String) : Parser Bool := return (← current).kind = .identifier name

/-- Moves over the current token if `test` holds of it, and says whether it does. -/
def eatIf (test : Parser Bool) : Parser Bool := do
  if ← test then
    advance
    return true
  return false

/-- Moves over a punctuator if it is there. -/
def eat (mark : Punctuator) : Parser Bool := eatIf (sees mark)

/-- Moves over a word if it is there. -/
def eatWord (word : Keyword) : Parser Bool := eatIf (seesWord word)

/-- Moves over a name if it is there. -/
def eatName (name : String) : Parser Bool := eatIf (seesName name)

/-- Moves over a punctuator, which has to be there. -/
def expect (mark : Punctuator) : Parser Unit := do unless ← eat mark do unexpected

/-- Moves over a word, which has to be there. -/
def expectWord (word : Keyword) : Parser Unit := do unless ← eatWord word do unexpected

/-- Moves over a certain name, which has to be there. -/
def expectName (name : String) : Parser Unit := do
  unless ← eatName name do fail (.expectedWord name)

/-- The end of a statement: a semicolon, or a place where one may be left out, which is in front of
a closing brace, at the end of the source and behind the end of a line. -/
def semicolon : Parser Unit := do
  if ← eat .semicolon then return
  let token ← current
  unless token.kind = .punctuator .rightBrace || token.kind = .eof || token.newlineBefore do
    unexpected

/-! ## Contexts -/

/-- Reads by `p` with `in` as an operator or not. -/
def withIn {α : Type} (allowIn : Bool) (p : Parser α) : Parser α :=
  withReader (fun c => { c with allowIn }) p

/-- Reads by `p` inside a function. -/
def inFunction {α : Type} (isGenerator : Bool) (p : Parser α) : Parser α :=
  withReader (fun c => { c with allowIn := true, inGenerator := isGenerator }) p

/-! ## Nodes -/

/-- A new node with a given span. -/
def nodeAt (kind : Kind Node) (span : Span) : Parser Node :=
  modifyGet fun s => (.mk s.nextId span kind, { s with nextId := s.nextId + 1 })

/-- A new node from the offset `start` to the end of the token before. -/
def node (kind : Kind Node) (start : Nat) : Parser Node := do
  nodeAt kind ⟨start, max (← get).previous.stop start⟩

/-! ## Names -/

/-- Whether a name that is bound may start here. -/
def atBindingName : Parser Bool := do
  match (← current).kind with
  | .identifier _ | .keyword .kwAsync => return true
  | _ => return false

/-- A name that is bound. -/
def bindingName : Parser Node := do
  let start ← here
  let name ← match (← current).kind with
    | .identifier name => pure name
    | .keyword .kwAsync => pure Keyword.kwAsync.text
    | .keyword .kwYield =>
      if (← read).inGenerator then unexpected else fail .reservedYield
    | _ => unexpected
  advance
  node (.identifier name) start

/-- Any name, also one that is a word elsewhere. -/
def anyName : Parser String := do
  match (← current).kind.name? with
  | some name =>
    advance
    return name
  | none => unexpected

end Parser

end EsModule.Syntax

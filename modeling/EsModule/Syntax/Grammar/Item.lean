import EsModule.Syntax.Grammar.Statement

/-!
# The items of a module

At the top of a module stand statements, imports and exports. The names on either side of an import
or export may be words or strings where they name an export, and have to be plain names where they
name something in this module.
-/

namespace EsModule.Syntax

namespace Grammar

open EsModule.Syntax.Parser

/-! ## Imports -/

/-- The string that names another module. -/
def moduleSpecifier : Parser String := do
  match (← current).kind with
  | .string value =>
    advance
    return value
  | _ => unexpected

/-- The name of an export: any name, or a string. -/
def exportName : Parser String := do
  match (← current).kind with
  | .string value =>
    advance
    return value
  | _ => anyName

/-- The module that an import comes from, and the end of the import. -/
def importEnd (start : Nat) (specifiers : List Node) : Parser Node := do
  expectName "from"
  let source ← moduleSpecifier
  semicolon
  node (.importDeclaration specifiers source) start

/-- An export of another module, and its name in this one. -/
def importSpecifier : Parser Node := do
  let start ← here
  let mayBeShort ← atBindingName
  let imported ← exportName
  let binding ←
    if ← eatName "as" then bindingName
    else if mayBeShort then nodeAt (.identifier imported) (← get).previous
    else fail (.reservedWord imported)
  node (.importSpecifier imported binding) start

/-- The default export of another module. -/
def importDefaultSpecifier : Parser Node := do
  let start ← here
  let binding ← bindingName
  node (.importDefaultSpecifier binding) start

/-- All exports of another module together, or some of them in a list between braces. -/
def importList : Parser (List Node) := do
  let start ← here
  if ← eat .star then
    expectName "as"
    let binding ← bindingName
    return [← node (.importNamespaceSpecifier binding) start]
  if ← eat .leftBrace then
    let specifiers ← listUntil (· = .punctuator .rightBrace) do
      let specifier ← importSpecifier
      return ([specifier], ← eat .comma)
    expect .rightBrace
    return specifiers
  unexpected

/-- An import. -/
def importDeclaration : Parser Node := do
  let start ← here
  advance
  if let .string source := (← current).kind then
    advance
    semicolon
    return ← node (.importDeclaration [] source) start
  unless ← atBindingName do return ← importEnd start (← importList)
  let first ← importDefaultSpecifier
  unless ← eat .comma do return ← importEnd start [first]
  importEnd start (first :: (← importList))

/-! ## Exports -/

/-- An exported declaration, which `declaration` reads. -/
def exportedDeclaration (start : Nat) (declaration : Parser Node) : Parser Node := do
  let declaration ← declaration
  node (.exportNamedDeclaration (some declaration) [] none) start

/-- All exports of another module, each under its own name or all under one. -/
def exportAll (start : Nat) : Parser Node := do
  advance
  let exported ← if ← eatName "as" then pure (some (← exportName)) else pure none
  expectName "from"
  let source ← moduleSpecifier
  semicolon
  node (.exportAllDeclaration exported source) start

/-- The default export: a function or a class, which need no name, or an expression. -/
def exportDefault (g : Grammar) (start : Nat) : Parser Node := do
  advance
  let declaration ←
    if ← startsAsyncFunction then do
      advance
      g.functionDeclaration true none
    else match (← current).kind with
      | .keyword .kwFunction => g.functionDeclaration false none
      | .keyword .kwClass => g.classRule .classDeclaration none
      | _ => do
        let e ← withIn true g.assignment
        semicolon
        pure e
  node (.exportDefaultDeclaration declaration) start

/-- A name of this module or another one, and the name of the export. The name is given too if it
cannot be one of this module. -/
def exportSpecifier : Parser (Node × Option String) := do
  let start ← here
  let isPlain ← atBindingName
  let name ← exportName
  let binding ← nodeAt (.identifier name) (← get).previous
  let exported ← if ← eatName "as" then exportName else pure name
  return (← node (.exportSpecifier binding exported) start, if isPlain then none else some name)

/-- A list of exports between braces, perhaps from another module. If there is none, all names have
to be names of this module. -/
def exportList (start : Nat) : Parser Node := do
  advance
  let marked ← listUntil (· = .punctuator .rightBrace) do
    let specifier ← exportSpecifier
    return ([specifier], ← eat .comma)
  expect .rightBrace
  let source ← if ← eatName "from" then pure (some (← moduleSpecifier)) else
    match marked.findSome? (·.2) with
    | some name => fail (.reservedWord name)
    | none => pure none
  semicolon
  node (.exportNamedDeclaration none (marked.map (·.1)) source) start

/-- An export. -/
def exportDeclaration (g : Grammar) : Parser Node := do
  let start ← here
  advance
  let kind := (← current).kind
  if let some kind := variableKind? kind then
    return ← exportedDeclaration start do
      let declaration ← g.variableDeclaration kind
      semicolon
      return declaration
  if kind = .keyword .kwAsync && (← peek).kind = .keyword .kwFunction then
    advance
    return ← exportedDeclaration start (g.functionDeclaration true (some .missingFunctionName))
  match kind with
  | .punctuator .star => exportAll start
  | .punctuator .leftBrace => exportList start
  | .keyword .kwDefault => g.exportDefault start
  | .keyword .kwFunction =>
    exportedDeclaration start (g.functionDeclaration false (some .missingFunctionName))
  | .keyword .kwClass =>
    exportedDeclaration start (g.classRule .classDeclaration (some .missingClassName))
  | _ => unexpected

/-- An item at the top of a module. -/
def moduleItem (g : Grammar) : Parser Node := do
  match (← current).kind with
  | .keyword .kwImport =>
    let next := (← peek).kind
    if next = .punctuator .leftParen || next = .punctuator .dot then g.statement
    else importDeclaration
  | .keyword .kwExport => g.exportDeclaration
  | _ => g.statement

end Grammar

end EsModule.Syntax

import EsModule.Compile.Error
import EsModule.Compile.Standalone
import EsModule.SourceMap.Generate
import EsModule.Syntax.Parse

/-!
# Compiling a module

A module becomes a function of the five capabilities: it installs the readers of its exports,
imports the modules it depends on in the order of their first use, and runs its own items.

Compiling takes two steps. `Module.ofSource` reads the text and resolves its names, which is enough
to know what the module imports and declares. `Module.output` needs the exports of the other
modules, as far as they are known: it checks the imported names against them and adds what `export
*` gives.
-/

namespace EsModule.Compile

open EsModule.Syntax EsModule.Scope EsModule.SourceMap

/-! ## The first step -/

/-- A module whose names are resolved. -/
structure Module where
  /-- The text. -/
  source : String
  /-- The file that messages and the source map name. -/
  file : String
  /-- The tree. -/
  root : Node
  /-- The scopes. -/
  scopes : ScopeTree

/-- The items of a module. -/
def itemsOf (root : Node) : List Node :=
  match root.kind with
  | .program items => items
  | _ => []

namespace Module

/-- Reads a module. -/
def ofSource (source file : String) : Except CompileError Module := do
  let root ← (parseModule source file).mapError .unreadable
  let scopes ← (collect root).mapError (.ofRedeclaration file)
  return ⟨source, file, root, scopes⟩

/-- What a module imports and exports. -/
def interface (m : Module) : Interface := .ofItems (itemsOf m.root) m.scopes

/-- The tree of a module without imports and exports. -/
def standalone (m : Module) : Node :=
  (standalonePatches m.root (itemsOf m.root) m.scopes).apply m.root

end Module

/-! ## What depends on other modules -/

/-- The names that other modules export, as far as they are known. -/
abbrev ExportLookup := String → Option (List String)

/-- The lookup that knows nothing. -/
def noExports : ExportLookup := fun _ => none

/-- The first export that a statement requires and the other module is known not to have. -/
def Import.missing? (lookup : ExportLookup) (i : Import) : Option String := do
  let available ← lookup i.specifier
  i.names.findSome? fun n => n.required?.filter (· ∉ available)

/-- Checks the names that a module imports. -/
def checkImports (lookup : ExportLookup) (file : String) (imports : List Import) :
    Except CompileError Unit :=
  match imports.findSome? fun i => (i.missing? lookup).map (i, ·) with
  | some (i, name) => .error (.missingExport file i.specifier name)
  | none => .ok ()

/-- The names that an export of everything offers: all but the default one, or the alias alone. -/
def StarExport.offers (lookup : ExportLookup) (star : StarExport) : List String :=
  match star.asName with
  | some asName => [asName]
  | none => ((lookup star.specifier).getD []).filter (· ≠ defaultExport)

/-- The expression for a name that an export of everything offers. -/
def StarExport.reading (star : StarExport) (name : String) : Reading :=
  if star.asName.isSome then .namespaceOf star.handle else .member star.handle name

/-- The exports that come from exports of everything: the names that are offered exactly once and
are not exported otherwise. -/
def starExports (lookup : ExportLookup) (stars : List StarExport)
    (explicit : List (String × Reading)) : List (String × Reading) :=
  let offers := stars.flatMap (·.offers lookup)
  stars.flatMap fun star =>
    (star.offers lookup).filterMap fun name =>
      if offers.count name = 1 ∧ ¬ explicit.any (·.1 = name) then some (name, star.reading name)
      else none

/-- All exports of a module. -/
def Interface.allExports (i : Interface) (lookup : ExportLookup) : List (String × Reading) :=
  i.exports ++ starExports lookup i.stars i.exports

/-! ## The compiled tree -/

/-- A member of the table of exports: a function that reads the export. -/
def exportMember (name : String) (reading : Reading) : Supply Node := do
  let value ← reading.node
  let key ← keyNode name
  let reader ← Supply.node (.arrowFunction [] value true false)
  Supply.node (.property key reader .plain false false false)

/-- The statement that installs the readers of the exports. -/
def installStatement (exports : List (String × Reading)) : Supply Node := do
  let members ← exports.mapM fun (name, reading) => exportMember name reading
  Supply.callStatement Capability.exportTable.name [← Supply.node (.objectExpression members)]

/-- The statement that imports a module. -/
def importStatement (specifier handle : String) : Supply Node := do
  let call ← Supply.call Capability.importModule.name [← Supply.string specifier]
  Supply.node (← Supply.constant handle (← Supply.node call))

/-- The function of the capabilities that runs some statements. -/
def wrapper (body : List Node) : Supply Node := do
  let directive ← Supply.node (.expressionStatement (← Supply.string "use strict"))
  let params ← Capability.all.mapM fun c => Supply.identifier c.name
  let block ← Supply.node (.blockStatement (directive :: body))
  let function ← Supply.node (.functionExpression ⟨none, params, block, false, false⟩)
  Supply.node (.expressionStatement function)

/-- The tree of a compiled module with some exports. -/
def Module.compiled (m : Module) (exports : List (String × Reading)) : Node :=
  let standalone := m.standalone
  let specifiers := m.interface.dependencies
  let make : Supply Node := do
    let install ← installStatement exports
    let imports ← specifiers.mapM fun s => importStatement s (handleOf specifiers s)
    wrapper (install :: imports ++ itemsOf standalone)
  standalone.withKind (.program [(make standalone.numberBound).1])

/-! ## The second step -/

/-- A compiled module. -/
structure Output where
  /-- The printed code. -/
  code : String
  /-- Where its parts come from. -/
  map : SourceMap
  /-- The names that it exports. -/
  exports : List String
deriving DecidableEq

/-- Compiles a module. -/
def Module.output (m : Module) (lookup : ExportLookup) : Except CompileError Output := do
  checkImports lookup m.file m.interface.imports
  let exports := m.interface.allExports lookup
  let generated := generate (m.compiled exports) m.source m.file
  return ⟨generated.code, generated.map, exports.map (·.1)⟩

end EsModule.Compile

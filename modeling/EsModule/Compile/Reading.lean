import EsModule.Syntax.Supply
import EsModule.Text.Identifier

/-!
# The names that compiled modules use

A compiled module is a function that talks to its loader through five parameters, the capabilities.
The modules that it imports are held by constants, the handles, which are numbered from zero.
-/

namespace EsModule.Compile

/-- What a compiled module asks its loader for. -/
inductive Capability where
  /-- Imports a module and gives a handle. -/
  | importModule
  /-- Installs the readers of the module's exports. -/
  | exportTable
  /-- Makes the namespace object of a handle. -/
  | namespaceOf
  /-- Holds what the module knows about itself. -/
  | importMeta
  /-- Imports a module at run time. -/
  | dynamicImport
deriving DecidableEq

namespace Capability

/-- All capabilities in the order in which the compiled function takes them. -/
def all : List Capability :=
  [.importModule, .exportTable, .namespaceOf, .importMeta, .dynamicImport]

/-- The name of the parameter. -/
def name : Capability → String
  | .importModule => "__VIRTUAL_IMPORT__"
  | .exportTable => "__VIRTUAL_EXPORT__"
  | .namespaceOf => "__VIRTUAL_NAMESPACE__"
  | .importMeta => "__VIRTUAL_IMPORT_META__"
  | .dynamicImport => "__VIRTUAL_DYNAMIC_IMPORT__"

end Capability

/-- The constant that holds a default export without a name of its own. -/
def defaultHolder : String := "__VIRTUAL_DEFAULT__"

/-- The export name of a default export. -/
def defaultExport : String := "default"

/-- The name of the handle with a number. -/
def handleName (n : Nat) : String := "__m" ++ toString n ++ "__"

/-!
## How compiled code reads a name

An imported name is read through the handle of its module at every use, so that each use sees the
value of that moment. A `Reading` is such an expression, or that of a variable of the module itself.
-/

open EsModule.Syntax EsModule.Text

/-- An expression by which compiled code reads a name. -/
inductive Reading where
  /-- A variable of the module. -/
  | variable (name : String)
  /-- An export of the module that a handle holds. -/
  | member (handle name : String)
  /-- The namespace of the module that a handle holds. -/
  | namespaceOf (handle : String)
deriving DecidableEq

/-- The key of a member: the name itself if it is an identifier name, else the string. -/
def keyNode (name : String) : Supply Node :=
  if isIdentifierName name.toList then Supply.identifier name else Supply.string name

/-- The kind of a member of an object known by its name. -/
def memberKind (object name : String) : Supply (Kind Node) := do
  let property ← keyNode name
  return .memberExpression (← Supply.identifier object) property (!isIdentifierName name.toList)
    false

namespace Reading

/-- The kind of the expression. -/
def kind : Reading → Supply (Kind Node)
  | .variable name => pure (.identifier name)
  | .member handle name => memberKind handle name
  | .namespaceOf handle => do
    Supply.call Capability.namespaceOf.name [← Supply.identifier handle]

/-- The expression. -/
def node (r : Reading) : Supply Node := do Supply.node (← r.kind)

end Reading

end EsModule.Compile

import EsModule.Scope.Tree
import EsModule.Syntax.Fault

/-!
# Why a module cannot be compiled

All three causes are found before any code of the module runs: its text cannot be read, it declares
a name twice, or it imports a name that the other module does not export.
-/

namespace EsModule.Compile

open EsModule.Syntax

/-- Why a module cannot be compiled. -/
inductive CompileError where
  /-- The text is no module. -/
  | unreadable (error : SyntaxError)
  /-- A name is declared twice in one scope. -/
  | redeclaration (name file : String)
  /-- The module `target`, named as in the importing file, has no export of that name. -/
  | missingExport (importer target name : String)
deriving DecidableEq

namespace CompileError

/-- The message for a reader. -/
def message : CompileError → String
  | .unreadable error => error.message
  | .redeclaration name file => "Duplicate declaration \"" ++ name ++ "\" (" ++ file ++ ")"
  | .missingExport importer target name =>
    "(" ++ importer ++ "): The module '" ++ target ++ "' does not provide an export named '" ++
      name ++ "'"

/-- A redeclaration in a file. -/
def ofRedeclaration (file : String) (r : Scope.Redeclaration) : CompileError :=
  .redeclaration r.name file

end CompileError

end EsModule.Compile

import EsModule.Compile.Reading
import EsModule.Scope.Collect

/-!
# What a module imports and exports

The interface of a module is read off its items: the other modules that it names, each with its
handle, the names that it takes from them, and the names that it exports, each with the expression
that reads it. What `export *` adds is known only when the exports of the other module are.
-/

namespace EsModule.Compile

open EsModule.Syntax EsModule.Scope

/-! ## Imports -/

/-- One name that a statement takes from another module. -/
structure ImportedName where
  /-- The name of the export, or an asterisk for all of them together. -/
  imported : String
  /-- The name here, or the name under which it is exported again. -/
  binding : String
  /-- Whether it is written as a default import. -/
  isDefault : Bool
  /-- Whether it stands for all exports together. -/
  isNamespace : Bool
deriving DecidableEq

/-- The export that the other module must have. -/
def ImportedName.required? (n : ImportedName) : Option String :=
  if n.isNamespace then none else some n.imported

/-- One statement that names another module. -/
structure Import where
  /-- The other module, as it is written. -/
  specifier : String
  /-- The constant that holds it. -/
  handle : String
  /-- Whether the statement is an export. -/
  isExport : Bool
  /-- The names that it takes. -/
  names : List ImportedName
deriving DecidableEq

/-- The module that a statement names. -/
def sourceOf? (item : Node) : Option String :=
  match item.kind with
  | .importDeclaration _ source | .exportNamedDeclaration _ _ (some source)
  | .exportAllDeclaration _ source => some source
  | _ => none

/-- The modules that a module names, each once, in the order of the first use. -/
def dependencies (items : List Node) : List String :=
  (items.filterMap sourceOf?).foldl (fun seen s => if s ∈ seen then seen else seen ++ [s]) []

/-- The handle of a module that is one of some dependencies. -/
def handleOf (dependencies : List String) (specifier : String) : String :=
  handleName (dependencies.idxOf specifier)

/-- The name that a specifier of an import takes, and the expression that reads it. -/
def importedName? (handle : String) (specifier : Node) : Option (ImportedName × Reading) :=
  match specifier.kind with
  | .importSpecifier imported name =>
    some (⟨imported, name.name?.getD "", false, false⟩, .member handle imported)
  | .importDefaultSpecifier name =>
    some (⟨defaultExport, name.name?.getD "", true, false⟩, .member handle defaultExport)
  | .importNamespaceSpecifier name =>
    some (⟨"*", name.name?.getD "", false, true⟩, .namespaceOf handle)
  | _ => none

/-- The specifiers of exports: the name here and the exported name. -/
def exportPairs (specifiers : List Node) : List (String × String) :=
  specifiers.filterMap fun s =>
    match s.kind with
    | .exportSpecifier name exported => name.name?.map fun name => (name, exported)
    | _ => none

/-- What an import statement takes from another module. -/
def importOf? (handles : String → String) (item : Node) : Option Import :=
  match item.kind with
  | .importDeclaration specifiers source =>
    some ⟨source, handles source, false,
      specifiers.filterMap fun s => (importedName? (handles source) s).map (·.1)⟩
  | _ => none

/-- What an export statement takes from another module. -/
def reexportOf? (handles : String → String) (item : Node) : Option Import :=
  match item.kind with
  | .exportNamedDeclaration none specifiers (some source) =>
    some ⟨source, handles source, true,
      (exportPairs specifiers).map fun (name, exported) => ⟨name, exported, false, false⟩⟩
  | .exportAllDeclaration asName source =>
    some ⟨source, handles source, true, asName.toList.map fun name => ⟨"*", name, false, true⟩⟩
  | _ => none

/-- The expressions for imported names, by the numbers of the specifiers that declare them. -/
def importReadings (handles : String → String) (items : List Node) : List (Nat × Reading) :=
  items.flatMap fun item =>
    match item.kind with
    | .importDeclaration specifiers source =>
      specifiers.filterMap fun s => (importedName? (handles source) s).map fun (_, r) => (s.id, r)
    | _ => []

/-! ## Exports -/

/-- A statement that exports all of another module. -/
structure StarExport where
  /-- The other module, as it is written. -/
  specifier : String
  /-- The constant that holds it. -/
  handle : String
  /-- The one name under which all is exported. -/
  asName : Option String
deriving DecidableEq

/-- The exports of all of another module. -/
def starExport? (handles : String → String) (item : Node) : Option StarExport :=
  match item.kind with
  | .exportAllDeclaration asName source => some ⟨source, handles source, asName⟩
  | _ => none

/-- What a default export declares under a name of its own. -/
def ownName? (declaration : Node) : Option String :=
  match declaration.kind with
  | .functionDeclaration f => f.name.map fun n => n.name?.getD ""
  | .classDeclaration c => c.name.map fun n => n.name?.getD ""
  | _ => none

/-- The names that a statement exports itself, with the expressions that read them. An export of an
imported name goes straight to the module that it comes from. -/
def explicitExports (handles : String → String) (imported? : String → Option Reading)
    (item : Node) : List (String × Reading) :=
  match item.kind with
  | .exportNamedDeclaration (some declaration) _ _ =>
    declaration.boundIdentifiers.filterMap fun n => n.name?.map fun name => (name, .variable name)
  | .exportNamedDeclaration none specifiers (some source) =>
    (exportPairs specifiers).map fun (name, exported) => (exported, .member (handles source) name)
  | .exportNamedDeclaration none specifiers none =>
    (exportPairs specifiers).map fun (name, exported) =>
      (exported, (imported? name).getD (.variable name))
  | .exportDefaultDeclaration declaration =>
    [(defaultExport, .variable ((ownName? declaration).getD defaultHolder))]
  | _ => []

/-- The names that a statement exports for certain, whatever other modules export. -/
def declaredNames (handles : String → String) (imported? : String → Option Reading)
    (item : Node) : List String :=
  match starExport? handles item with
  | some star => star.asName.toList
  | none => (explicitExports handles imported? item).map (·.1)

/-- A list of pairs without those whose key came before. -/
def firstOfEach {β : Type} (pairs : List (String × β)) : List (String × β) :=
  pairs.foldl (fun kept p => if kept.any (·.1 = p.1) then kept else kept ++ [p]) []

/-! ## The interface -/

/-- What a module imports and exports. -/
structure Interface where
  /-- The modules that it names, each once. -/
  dependencies : List String
  /-- Its import statements, and then those of its export statements that name a module. -/
  imports : List Import
  /-- The exported names with the expressions that read them. -/
  exports : List (String × Reading)
  /-- The exports of everything that other modules export. -/
  stars : List StarExport
  /-- The names that it exports for certain. -/
  declared : List String
deriving DecidableEq

/-- The expression for a name if it is an imported one. -/
def importedReading? (readings : List (Nat × Reading)) (scopes : ScopeTree) (name : String) :
    Option Reading := do
  let program ← scopes.scopes[0]?
  let binding ← program.binding? name
  if binding.kind = .imported then readings.lookup binding.node else none

/-- The interface of a module with some items, whose names are resolved. -/
def Interface.ofItems (items : List Node) (scopes : ScopeTree) : Interface :=
  let specifiers := Compile.dependencies items
  let handles := handleOf specifiers
  let imported? := importedReading? (importReadings handles items) scopes
  { dependencies := specifiers
    imports := items.filterMap (importOf? handles) ++ items.filterMap (reexportOf? handles)
    exports := firstOfEach (items.flatMap (explicitExports handles imported?))
    stars := items.filterMap (starExport? handles)
    declared :=
      (firstOfEach ((items.flatMap (declaredNames handles imported?)).map (·, ()))).map (·.1) }

end EsModule.Compile

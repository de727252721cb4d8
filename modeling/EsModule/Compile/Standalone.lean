import EsModule.Compile.Interface
import EsModule.Compile.Patch

/-!
# Standalone modules

Three things are changed in the tree of a module. Every use of an imported name becomes a reading
through the handle of its module, and so do `import.meta` and `import()` through their capabilities.
Exported declarations lose the export around them. All other imports and exports are taken out.
-/

namespace EsModule.Compile

open EsModule.Syntax EsModule.Scope

/-- The nodes that use an imported name, each once, with the expression for the name. -/
def importUses (readings : List (Nat × Reading)) (scopes : ScopeTree) : List (Nat × Reading) :=
  ((scopes.scopes[0]?.map (·.bindings)).getD []).flatMap fun (_, binding) =>
    match binding.kind, readings.lookup binding.node with
    | .imported, some reading =>
      (binding.mutations.foldl (fun nodes n => addOnce n nodes) binding.references).map (·, reading)
    | _, _ => []

/-- The patches for the uses of imported names. -/
def usePatches (uses : List (Nat × Reading)) : Supply (List Patch) :=
  uses.mapM fun (node, reading) => do return .replace node (← reading.kind)

/-- The patch for a node that speaks to the loader at run time. -/
def runTimePatch? (n : Node) : Supply (Option Patch) :=
  match n.kind with
  | .importExpression source => do
    return some (.replace n.id (← Supply.call Capability.dynamicImport.name [source]))
  | .metaProperty .importMeta => do
    return some (.replace n.id (← memberKind Capability.importMeta.name "meta"))
  | _ => pure none

/-- The patches for the nodes of a tree that speak to the loader at run time. -/
def runTimePatches (root : Node) : Supply (List Patch) := do
  return (← root.nodes.mapM runTimePatch?).filterMap id

/-- Whether a node declares a function or a class. -/
def isFunctionOrClass (n : Node) : Bool :=
  match n.kind with
  | .functionDeclaration _ | .classDeclaration _ => true
  | _ => false

/-- The patches for an item that is an import or an export, with their stages. A declaration under a
name stays a declaration, so it is still there before it is run. -/
def itemPatches (item : Node) : Supply (List (Stage × Patch)) :=
  match item.kind with
  | .importDeclaration .. | .exportAllDeclaration .. | .exportNamedDeclaration none _ _ =>
    pure [(.removal, .remove item.id)]
  | .exportNamedDeclaration (some declaration) _ _ =>
    pure [(.declaration, .unwrap item.id declaration.id)]
  | .exportDefaultDeclaration declaration =>
    if (ownName? declaration).isSome then
      pure [(.declaration, .unwrap item.id declaration.id)]
    else do
      let holder ← Supply.constant defaultHolder declaration
      let asExpression : List (Stage × Patch) :=
        if isFunctionOrClass declaration then [(.declaration, .intoExpression declaration.id)]
        else []
      return asExpression ++ [(.declaration, .replace item.id holder)]
  | _ => pure []

/-- All patches for a module. -/
def standalonePatches (root : Node) (items : List Node) (scopes : ScopeTree) : PatchQueue :=
  let make : Supply PatchQueue := do
    let readings := importReadings (handleOf (dependencies items)) items
    let uses ← usePatches (importUses readings scopes)
    let runTime ← runTimePatches root
    let staged := (← items.mapM itemPatches).flatten
    return staged.foldl (fun q (stage, patch) => q.push patch stage) ⟨uses ++ runTime, [], []⟩
  (make root.numberBound).1

end EsModule.Compile

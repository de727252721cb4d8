import EsModule.Loader.World

/-!
# Running module bodies

Importing a compiled module gives its record, and runs its body if it has not run yet. The record is
registered before the body runs, so that a module which imports itself through others gets the
record that it has so far. A body that ends in an error leaves the error with the record; but if it
ended because another module is not compiled yet, the record is given up, and the body can run
again.

A body imports other modules while it runs. How deep that goes is bounded, since each module that
runs is registered and does not run again inside of itself: `importDepth` is more than the number of
modules that could run.
-/

namespace EsModule.Loader

/-- Imports a module: gives its record. -/
abbrev Importer : Type := String → World → Except LoadError Nat × World

namespace World

/-! ## What a body may do -/

/-- Installs the exports of a module. -/
def installExports (w : World) (caps : Capabilities) (frame : Nat)
    (entries : List (String × Source)) : Except LoadError Unit × World :=
  match w.heap.record? caps.record with
  | some _ =>
    let readers := entries.map fun (name, source) => (name, source.reader caps.storeId frame)
    (.ok (), { w with heap := w.heap.install caps.record readers })
  | none => (.error (.detached caps.storeId), w)

/-- Imports a module by its specifier and gives it a handle. -/
def importFor (importModule : Importer) (w : World) (caps : Capabilities) (frame : Nat)
    (specifier handle : String) : Except LoadError Unit × World :=
  match resolve caps.storeId specifier with
  | .error e => (.error e, w)
  | .ok url =>
    if w.heap.isOpen caps.loader then
      match importModule url.text w with
      | (.ok r, w) => (.ok (), { w with heap := w.heap.setHandle frame handle r })
      | (.error e, w) => (.error e, w)
    else (.error .runtimeDropped, w)

/-- Reads an export of the record under a handle. -/
def readFor (w : World) (frame : Nat) (handle name : String) : Except LoadError Value × World :=
  match w.heap.handle frame handle with
  | .ok r =>
    let (v, heap) := w.heap.get r name
    (v, { w with heap := heap })
  | .error e => (.error e, w)

/-- Writes to an export of the record under a handle. -/
def writeFor (w : World) (frame : Nat) (handle name : String) : Except LoadError Unit × World :=
  match w.heap.handle frame handle with
  | .ok r =>
    let (result, heap) := w.heap.set r name .undefined
    (result, { w with heap := heap })
  | .error e => (.error e, w)

/-- The namespace of the record under a handle. -/
def openFor (w : World) (caps : Capabilities) (frame : Nat) (handle : String) :
    Except LoadError Namespace × World :=
  match w.heap.handle frame handle with
  | .ok r =>
    let (n, heap) := w.heap.openNamespace caps.loader r
    (n, { w with heap := heap })
  | .error e => (.error e, w)

end World

/-! ## Running -/

/-- Runs a body. -/
def Body.run (importModule : Importer) (caps : Capabilities) (frame : Nat) :
    Body → World → Except LoadError Unit × World
  | .finish result, w => (result, w)
  | .installExports entries next, w =>
    let (result, w) := w.installExports caps frame entries
    (next result).run importModule caps frame w
  | .importModule specifier handle next, w =>
    let (result, w) := w.importFor importModule caps frame specifier handle
    (next result).run importModule caps frame w
  | .read handle name next, w =>
    let (v, w) := w.readFor frame handle name
    (next v).run importModule caps frame w
  | .write handle name next, w =>
    let (result, w) := w.writeFor frame handle name
    (next result).run importModule caps frame w
  | .openNamespace handle next, w =>
    let (n, w) := w.openFor caps frame handle
    (next n).run importModule caps frame w
  | .store name v next, w =>
    next.run importModule caps frame { w with heap := w.heap.store ⟨caps.storeId, name⟩ v }
  | .address next, w => (next caps.realUrl).run importModule caps frame w
  | .keep next, w =>
    next.run importModule caps frame { w with kept := w.kept.insert caps.storeId caps }
  | .log entry next, w => next.run importModule caps frame (w.addLog entry)

/-- Runs a body with capabilities, in an execution of its own. -/
def World.runBody (importModule : Importer) (w : World) (caps : Capabilities) (body : Body) :
    Except LoadError Unit × World :=
  let (frame, heap) := w.heap.newFrame caps.loader
  body.run importModule caps frame { w with heap := heap }

/-- Runs the body of a module, if it has one. -/
def World.runModule (importModule : Importer) (w : World) (caps : Capabilities) :
    Except LoadError Unit × World :=
  match w.bodies[caps.storeId]? with
  | none => (.error (.noBody caps.storeId), w)
  | some body => { w with runs := w.runs + 1 }.runBody importModule caps body

/-- Takes down how running a module ended. -/
def World.concludeRun (w : World) (storeId : String) (r : Nat) : Except LoadError Unit → World
  | .ok () => w
  | .error (.notCompiled _) =>
    if w.modules[storeId]? = some r then { w with modules := w.modules.erase storeId } else w
  | .error e => { w with heap := w.heap.fail r e }

/-- Runs a compiled module with a record. -/
def World.execute (importModule : Importer) (w : World) (resource : Resource) (r : Nat) :
    Except LoadError Unit × World :=
  let loader := w.heap.loader.getD 0
  let (result, w) :=
    w.runModule importModule ⟨loader, r, resource.storeId, resource.realUrl⟩
  (result, w.concludeRun resource.storeId r result)

/-- Runs a compiled module that has not run yet, and registers its record first. -/
def World.start (importModule : Importer) (w : World) (storeId : String) (resource : Resource) :
    Except LoadError Nat × World :=
  let (r, heap) := w.heap.newRecord storeId resource.exports
  let w := { w with heap := heap, modules := w.modules.insert storeId r }
  let (result, w) := w.execute importModule resource r
  (result.map fun _ => r, w)

/-- Imports the module of a store id, when so many bodies may run inside of each other. -/
def importAt : Nat → Importer
  | 0, id, w => (.error (.notFound id), w)
  | depth + 1, id, w =>
    match resolveId w.base id with
    | .error e => (.error e, w)
    | .ok url =>
      match w.modules[url.text]?, w.graph.slots[url.text]? with
      | some r, _ =>
        match w.failure? r with
        | some e => (.error e, w)
        | none => (.ok r, w)
      | none, some (.ready resource) => w.start (importAt depth) url.text resource
      | none, some (.pending _) => (.error (.notCompiled url.text), w)
      | none, _ => (.error (.notFound url.text), w)

namespace World

/-- A bound for how many bodies run inside of each other. -/
def importDepth (w : World) : Nat := w.graph.slots.size + 1

/-- Imports the module of a store id. -/
def importModule (w : World) (id : String) : Except LoadError Nat × World :=
  importAt w.importDepth id w

/-- Runs a compiled module with a record of its own, which is not registered, and gives the record.
-/
def runInline (w : World) (resource : Resource) : Except LoadError Nat × World :=
  let (r, heap) := w.heap.newRecord resource.storeId resource.exports
  let w := { w with heap := heap }
  let (result, w) := w.execute (importAt w.importDepth) resource r
  (result.map fun _ => r, w)

/-- Runs a body with capabilities that were kept. -/
def runWith (w : World) (caps : Capabilities) (body : Body) : Except LoadError Unit × World :=
  w.runBody (importAt w.importDepth) caps body

end World

end EsModule.Loader

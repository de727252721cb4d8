import EsModule.Loader.Compiling
import EsModule.Loader.Execute

/-!
# What a host asks a loader for

A host asks a loader to compile a module, or to compile and run one. Such a call goes on in steps:
it finds out what is meant, waits for the task of the module, waits until nothing that the module
depends on is being compiled any more, and then runs the module. A call that has to wait is asked
again later. Several calls that are driven together are asked in turn until all are done.
-/

namespace EsModule.Loader

/-! ## Calls -/

/-- What a host asks for. -/
inductive Request where
  /-- To compile a module, perhaps from another address than its id. -/
  | compile (id : String) (url : Option String)
  /-- To compile and run a module, perhaps from another address than its id. -/
  | importUrl (id : String) (url : Option String)
  /-- To compile and run some code, which may be told another address than its id. -/
  | importCode (code id : String) (url : Option String)
  /-- To compile and run the module that a specifier names, perhaps in the code of another module.
  -/
  | importDynamic (specifier : String) (importer : Option String)
  /-- The same on behalf of a module, with its capabilities. -/
  | importWith (caps : Capabilities) (specifier : String)

/-- What is done once a task is done. -/
inductive Goal where
  /-- Nothing. -/
  | compile
  /-- Its module is run. -/
  | run (storeId : String)
  /-- Its module, which has no slot, is run. -/
  | runInline

/-- What is done once everything that a module depends on is compiled. -/
inductive Target where
  /-- The module of a store id is run. -/
  | module (storeId : String)
  /-- A module without a slot is run. -/
  | code (resource : Resource)

/-- How far a call is. -/
inductive Call where
  /-- It was not looked at yet. -/
  | asked (request : Request)
  /-- It waits for a task. -/
  | compiling (task : Nat) (goal : Goal)
  /-- It waits for some tasks, and then for all others that some store ids depend on. -/
  | settling (tasks : List Nat) (roots : List String) (target : Target)
  /-- It is done. A call that only compiles gives no namespace. -/
  | done (result : Except LoadError (Option Namespace))

/-- The result of a call that is done. -/
def Call.result? : Call → Option (Except LoadError (Option Namespace))
  | .done result => some result
  | _ => none

namespace World

/-! ## Beginning -/

/-- Begins to compile a module. -/
def beginCompile (w : World) (store request : Url) (goal : Goal) : Call × World :=
  match w.graph.ensure store.text request none, goal with
  | (some a, graph), _ => (.compiling a.task goal, { w with graph := graph })
  | (none, graph), .run storeId =>
    (.settling [] [storeId] (.module storeId), { w with graph := graph })
  | (none, graph), _ => (.done (.ok none), { w with graph := graph })

/-- The address that an id stands for, or another one that may be given instead. -/
def requestFor (w : World) (store : Url) (url : Option String) : Except LoadError Url :=
  match url with
  | some url => resolveId w.base url
  | none => .ok store

/-- Runs the target of a call. -/
def runTarget (w : World) (target : Target) : Call × World :=
  let (result, w) := match target with
    | .module storeId => w.importModule storeId
    | .code resource => w.runInline resource
  match result with
  | .error e => (.done (.error e), w)
  | .ok r =>
    let (n, w) := w.namespaceOf r
    (.done (.ok (some n)), w)

/-- Begins to compile and run a module. One that is registered is not compiled again. -/
def beginImport (w : World) (id : String) (url : Option String) : Call × World :=
  if id.isEmpty then (.done (.error .missingUrl), w)
  else
    match resolveId w.base id with
    | .error e => (.done (.error e), w)
    | .ok store =>
      if w.modules.contains store.text then w.runTarget (.module store.text)
      else
        match w.requestFor store url with
        | .error e => (.done (.error e), w)
        | .ok request => w.beginCompile store request (.run store.text)

/-- Begins to compile and run some code. Its task needs no request. -/
def beginCode (w : World) (code id : String) (url : Option String) : Call × World :=
  if code.isEmpty then (.done (.error .missingCode), w)
  else if id.isEmpty then (.done (.error .missingFilename), w)
  else
    match resolveId w.base id with
    | .error e => (.done (.error e), w)
    | .ok store =>
      match w.requestFor store url with
      | .error e => (.done (.error e), w)
      | .ok served =>
        let answer : Response := ⟨200, served, code⟩
        let (t, graph) := w.graph.newTask ⟨store.text, served, true, .fetching 0 (.ok answer)⟩
        (.compiling t .runInline, { w with graph := graph })

/-- The store id and the address of the module that a specifier names. In the code of another module
it is relative to the store id of that one, and is requested relative to where that one was served.
-/
def dynamicTarget (w : World) (specifier : String) (importer : Option String) :
    Except LoadError (Url × Url) :=
  match importer with
  | none => (resolveId w.base specifier).map fun url => (url, url)
  | some importer => do
    let importer ← resolveId w.base importer
    let served := ((w.graph.resource? importer.text).map (·.realUrl)).getD importer.text
    return (← resolve importer.text specifier, ← resolve served specifier)

/-- The same for a module with capabilities. -/
def targetWith (w : World) (caps : Capabilities) (specifier : String) :
    Except LoadError (Url × Url) := do
  let target := (← resolve caps.storeId specifier, ← resolve caps.realUrl specifier)
  if w.heap.isOpen caps.loader then return target else throw .runtimeDropped

/-- Begins to compile and run a module that was named by a specifier. -/
def beginTarget (w : World) : Except LoadError (Url × Url) → Call × World
  | .ok (store, request) => w.beginImport store.text (some request.text)
  | .error e => (.done (.error e), w)

/-- Begins a call. -/
def begin (w : World) : Request → Call × World
  | .compile id url =>
    match resolveId w.base id with
    | .error e => (.done (.error e), w)
    | .ok store =>
      match w.requestFor store url with
      | .error e => (.done (.error e), w)
      | .ok request => w.beginCompile store request .compile
  | .importUrl id url => w.beginImport id url
  | .importCode code id url => w.beginCode code id url
  | .importDynamic specifier importer => w.beginTarget (w.dynamicTarget specifier importer)
  | .importWith caps specifier => w.beginTarget (w.targetWith caps specifier)

/-! ## Going on -/

/-- What a call does once its task is done. -/
def afterTask (goal : Goal) (outcome : Outcome) : Call :=
  match outcome, goal with
  | .error e, _ => .done (.error e)
  | .ok _, .compile => .done (.ok none)
  | .ok _, .run storeId => .settling [] [storeId] (.module storeId)
  | .ok (some c), .runInline => .settling [] c.dependencies (.code c.resource)
  | .ok none, .runInline => .done (.ok none)

/-- Asks for the outcome of a task. -/
def ask (w : World) (depth t : Nat) : Option Outcome × World :=
  let (outcome, graph) := w.graph.ask w.site depth [] t
  (outcome, { w with graph := graph })

/-- Asks several tasks. -/
def askAll (w : World) (depth : Nat) (tasks : List Nat) :
    Except LoadError (List Nat) × World :=
  let (left, graph) := Graph.askAll (Graph.ask w.site depth []) tasks w.graph
  (left, { w with graph := graph })

/-- Takes a call one step on. Also says whether it can go on at once. -/
def advance (w : World) (depth : Nat) : Call → (Call × Bool) × World
  | .asked request =>
    let (call, w) := w.begin request
    ((call, true), w)
  | .compiling t goal =>
    match w.ask depth t with
    | (some outcome, w) => ((afterTask goal outcome, true), w)
    | (none, w) => ((.compiling t goal, false), w)
  | .settling tasks roots target =>
    match w.askAll depth tasks with
    | (.error e, w) => ((.done (.error e), false), w)
    | (.ok (t :: left), w) => ((.settling (t :: left) roots target, false), w)
    | (.ok [], w) =>
      match w.graph.pendingFrom roots with
      | [] =>
        let (call, w) := w.runTarget target
        ((call, false), w)
      | tasks => ((.settling tasks roots target, true), w)
  | .done result => ((.done result, false), w)

/-- Takes a call on as far as it goes, in at most so many steps. -/
def poll (depth : Nat) : Nat → Call → World → Call × World
  | 0, call, w => (call, w)
  | steps + 1, call, w =>
    match w.advance depth call with
    | ((call, true), w) => poll depth steps call w
    | ((call, false), w) => (call, w)

/-- Asks some calls in turn. -/
def pollAll (bound : Nat) : List Call → World → List Call × World
  | [], w => ([], w)
  | call :: calls, w =>
    let (call, w) := poll bound bound call w
    let (calls, w) := pollAll bound calls w
    (call :: calls, w)

/-- Drives some calls until all are done, asking each at most so often. A call that is not done then
has no result. -/
def drive (bound : Nat) : Nat → List Call → World →
    List (Option (Except LoadError (Option Namespace))) × World
  | 0, calls, w => (calls.map (·.result?), w)
  | rounds + 1, calls, w =>
    if calls.all (·.result?.isSome) then (calls.map (·.result?), w)
    else
      let (calls, w) := pollAll bound calls w
      drive bound rounds calls w

/-- How long calls are driven before they are given up. -/
def patience : Nat := 10000

/-- Does what a host asks for, all of it together. -/
def request (w : World) (requests : List Request) :
    List (Option (Except LoadError (Option Namespace))) × World :=
  drive patience patience (requests.map .asked) w

end World

end EsModule.Loader

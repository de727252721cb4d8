import EsModule.Compile.Output
import EsModule.Loader.Config
import EsModule.Loader.Fetch
import EsModule.Loader.Resource

/-!
# The graph of modules that are being compiled

Each store id has at most one slot, and a slot that is pending belongs to a task. A task goes
through four stages: it is idle, it waits for the answer to its request, it waits for the modules
that its module depends on, and it is done. Whoever waits for a task shares it.

A task that waits for another one leaves a *wait*: an edge from its own store id to the other one. A
wait that would close a circle is never made; the module then goes on with what the other one is
known to export. Waits are kept by store id and not by task, each at most once.

The graph is changed in small steps only, which are in `EsModule.Loader.Compiling`.
-/

namespace EsModule.Loader

open EsModule.Compile

/-! ## The data -/

/-- What is known of a store id. -/
inductive Slot where
  /-- A task compiles it. -/
  | pending (task : Nat)
  /-- It is compiled. -/
  | ready (resource : Resource)
  /-- It could not be fetched. -/
  | absent

/-- A task of one store id waits for one of another. -/
structure Wait where
  waiter : String
  target : String
deriving DecidableEq

/-- A compiled module with the store ids that it depends on. -/
structure Compiled where
  resource : Resource
  dependencies : List String

/-- How compiling ends: in an error, without a text to compile, or with a compiled module. -/
abbrev Outcome : Type := Except LoadError (Option Compiled)

/-- A task that another one waits for. -/
structure Await where
  /-- The task. -/
  task : Nat
  /-- Its store id. -/
  target : String
deriving DecidableEq

/-- A module whose dependencies are being compiled. -/
structure Analysis where
  /-- The module. -/
  module : Module
  /-- Where it was served. -/
  realUrl : Url
  /-- The store ids that it depends on. -/
  dependencies : List String
  /-- The tasks that are not done yet. -/
  awaits : List Await

/-- The modules that a module depends on, in the course of being asked for. -/
structure Children where
  /-- Their store ids. -/
  dependencies : List String
  /-- The tasks to wait for. -/
  awaits : List Await

/-- How far a task is. -/
inductive Progress where
  /-- It was never asked for. -/
  | idle
  /-- Its answer comes after it was asked for so many times more. -/
  | fetching (delay : Nat) (answer : Except LoadError Response)
  /-- It waits for other tasks. -/
  | waiting (analysis : Analysis)
  /-- It is done. -/
  | done (outcome : Outcome)

/-- The compilation of one module. -/
structure Task where
  /-- The store id of the module. -/
  storeId : String
  /-- Where its text is requested. -/
  request : Url
  /-- Whether the module has no slot, since its text was given and not fetched. -/
  isInline : Bool
  /-- How far it is. -/
  progress : Progress

/-- What a loader knows of modules that it compiles or has compiled. -/
structure Graph where
  /-- What is known of each store id. -/
  slots : Table Slot
  /-- What modules export for certain that are not compiled yet. -/
  declared : Table (List String)
  /-- Which store ids wait for which. -/
  waits : List Wait
  /-- The store ids that compiled modules depend on. -/
  edges : Table (List String)
  /-- The tasks by number. -/
  tasks : Array Task
  /-- How many requests were made. -/
  requests : Nat

/-- Where a graph gets its texts. -/
structure Site where
  /-- The configuration. -/
  config : Config
  /-- What can be fetched. -/
  fetcher : Fetcher

/-! ## Searching -/

/-- The names that a search finds, in the order in which it finds them. The stack holds what is
still to be looked at; what comes next after a name is put on top of it, the last one first. Each of
so many rounds takes one name from the stack. -/
def search (next : String → List String) : Nat → List String → List String → List String
  | 0, _, found | _, [], found => found
  | rounds + 1, name :: stack, found =>
    if name ∈ found then search next rounds stack found
    else search next rounds ((next name).reverse ++ stack) (found ++ [name])

namespace Graph

/-- The graph before anything was asked for. -/
def empty : Graph := ⟨∅, ∅, [], ∅, #[], 0⟩

/-- The store ids that a store id waits for. -/
def waitsOf (g : Graph) (waiter : String) : List String :=
  (g.waits.filter (·.waiter = waiter)).map (·.target)

/-- Whether one store id waits for another, perhaps through others. Each of them waits for itself.
-/
def reaches (g : Graph) (source target : String) : Bool :=
  (search g.waitsOf (g.waits.length + 1) [source] []).contains target

/-- The store ids that a compiled module depends on. -/
def edgesOf (g : Graph) (storeId : String) : List String := (g.edges[storeId]?).getD []

/-- How many edges there are. -/
def edgeCount (g : Graph) : Nat := g.edges.values.flatten.length

/-- The task of a store id that is pending. -/
def pendingTask? (g : Graph) (storeId : String) : Option Nat :=
  match g.slots[storeId]? with
  | some (.pending t) => some t
  | _ => none

/-- The tasks that are not done of the store ids that some roots depend on. -/
def pendingFrom (g : Graph) (roots : List String) : List Nat :=
  (search g.edgesOf (roots.length + g.edgeCount) roots.reverse []).filterMap g.pendingTask?

/-- What a module is known to export: all of it once it is compiled, and before that what it exports
for certain. -/
def knownExports (g : Graph) (storeId : String) : Option (List String) :=
  match g.slots[storeId]? with
  | some (.ready resource) => some resource.exports
  | some .absent => none
  | _ => g.declared[storeId]?

/-- What the modules that a module names are known to export. -/
def lookup (g : Graph) (importer : String) : ExportLookup := fun specifier =>
  match resolve importer specifier with
  | .ok url => g.knownExports url.text
  | .error _ => none

/-! ## Waits and tasks -/

/-- Adds a wait, unless it is there. -/
def addWait (g : Graph) (w : Wait) : Graph :=
  if w ∈ g.waits then g else { g with waits := g.waits ++ [w] }

/-- Removes a wait. -/
def removeWait (g : Graph) (w : Wait) : Graph :=
  { g with waits := g.waits.filter (· ≠ w) }

/-- The stage of a task. -/
def progress? (g : Graph) (t : Nat) : Option Progress := (g.tasks[t]?).map (·.progress)

/-- Moves a task to a stage. -/
def setProgress (g : Graph) (t : Nat) (progress : Progress) : Graph :=
  { g with tasks := g.tasks.modify t fun task => { task with progress := progress } }

/-- Adds a task. -/
def newTask (g : Graph) (task : Task) : Nat × Graph :=
  (g.tasks.size, { g with tasks := g.tasks.push task })

/-! ## The cache -/

/-- The compiled module of a store id. -/
def resource? (g : Graph) (storeId : String) : Option Resource :=
  match g.slots[storeId]? with
  | some (.ready resource) => some resource
  | _ => none

/-- All compiled modules, by store id. -/
def resources (g : Graph) : List Resource := g.slots.keys.filterMap g.resource?

/-- The store ids that could not be fetched. -/
def absent (g : Graph) : List String :=
  g.slots.toList.filterMap fun (storeId, slot) =>
    match slot with
    | .absent => some storeId
    | _ => none

/-- Adds a compiled module, unless something is known of its store id. -/
def preload (g : Graph) (resource : Resource) : Bool × Graph :=
  if g.slots.contains resource.storeId then (false, g)
  else (true, { g with slots := g.slots.insert resource.storeId (.ready resource) })

/-- Forgets everything but the tasks that others still hold. -/
def clear (g : Graph) : Graph :=
  { g with slots := ∅, declared := ∅, waits := [], edges := ∅ }

end Graph

end EsModule.Loader

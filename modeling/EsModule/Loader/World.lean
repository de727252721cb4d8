import EsModule.Loader.Body
import EsModule.Loader.Graph
import EsModule.Loader.Heap

/-!
# The whole state of a loader

A world is a loader together with what is around it: what can be fetched, the bodies of modules, and
what they left. The loader can be closed and another one opened. The capabilities of a module name
the loader that they came from, and are of no use once that one is closed.
-/

namespace EsModule.Loader

/-- What a module body may do is tied to one execution of it. -/
structure Capabilities where
  /-- The loader that started the execution. -/
  loader : Nat
  /-- The record of the module. -/
  record : Nat
  /-- The module. -/
  storeId : String
  /-- Where its text was served. -/
  realUrl : String
deriving DecidableEq

/-- A loader and what is around it. -/
structure World where
  /-- What can be fetched. -/
  fetcher : Fetcher
  /-- The bodies of modules. -/
  bodies : Table Body
  /-- How many bodies were started. -/
  runs : Nat
  /-- What bodies left in the log. -/
  log : List LogEntry
  /-- The capabilities that bodies kept. -/
  kept : Table Capabilities
  /-- The configuration of the loader. -/
  config : Config
  /-- The address that the configuration gives for relative ids. -/
  base : Option Url
  /-- The modules that are compiled or being compiled. -/
  graph : Graph
  /-- The records of the modules that run or have run. -/
  modules : Table Nat
  /-- The records, and what reading them depends on. -/
  heap : Heap
  /-- How many loaders were opened. -/
  loaderCount : Nat

namespace World

/-- The world with some fetcher and some bodies, in which no loader is open. -/
def closed (fetcher : Fetcher) (bodies : Table Body) : World where
  fetcher := fetcher
  bodies := bodies
  runs := 0
  log := []
  kept := ∅
  config := .standard
  base := none
  graph := .empty
  modules := ∅
  heap := .empty
  loaderCount := 0

/-- Where the loader gets its texts. -/
def site (w : World) : Site := ⟨w.config, w.fetcher⟩

/-- Whether a loader is open. -/
def isOpen (w : World) : Bool := w.heap.loader.isSome

/-- Forgets all that the loader knows. -/
def teardown (w : World) : World :=
  { w with graph := w.graph.clear, modules := ∅, heap := { w.heap with namespaces := [] } }

/-- Closes the loader. -/
def close (w : World) : World :=
  let w := w.teardown
  { w with heap := { w.heap with loader := none } }

/-- Closes the loader and opens another one, if its configuration is one. -/
def reopen (w : World) (config : Config) : Except LoadError Unit × World :=
  let w := w.close
  match config.base with
  | .error e => (.error e, w)
  | .ok base =>
    (.ok (), { w with config := config, base := base, loaderCount := w.loaderCount + 1
                      heap := { w.heap with loader := some w.loaderCount } })

/-- How a diagnostic shows the loader. -/
def shown (w : World) : String :=
  "Runtime \x7b resources: " ++ toString w.graph.slots.size ++ ", modules: " ++
    toString w.modules.size ++ ", namespaces: " ++ toString w.heap.namespaces.length ++ " \x7d"

/-- How a diagnostic shows the bodies. -/
def shownBodies (w : World) : String :=
  "NativeExecutor \x7b bodies: " ++ shownNames w.bodies.keys ++ " \x7d"

/-- Adds an entry to the log. -/
def addLog (w : World) (entry : LogEntry) : World := { w with log := w.log ++ [entry] }

/-- The namespace of a record. -/
def namespaceOf (w : World) (r : Nat) : Namespace × World :=
  let (n, heap) := w.heap.namespaceOf r
  (n, { w with heap := heap })

/-- The error in which a record ended. -/
def failure? (w : World) (r : Nat) : Option LoadError :=
  (w.heap.record? r).bind (·.failure)

/-- The records that the loader holds. -/
def roots (w : World) : List Nat := w.modules.values ++ w.heap.namespaces.map (·.record)

/-- Gives up the records that neither the loader nor the host holds. -/
def sweep (w : World) (held : List Nat) : World :=
  { w with heap := w.heap.sweep (held ++ w.roots) }

end World

end EsModule.Loader

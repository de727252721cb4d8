import EsModule.Loader.Call

/-!
# Sessions of a host with a loader

A host keeps namespaces, records and resources under names of its own, and gives commands one after
the other. A command that names nothing, or needs a loader when none is open, is not understood.
What a command gives is kept under a name only if the command succeeds. After each command the
records that neither the loader nor the host holds are given up.
-/

namespace EsModule.Loader

/-! ## Commands -/

/-- What the host says. -/
inductive Command where
  /-- Opens a loader in place of the one before. -/
  | openLoader (config : Config)
  /-- Closes the loader. -/
  | closeLoader
  /-- Makes some requests together, and keeps their namespaces. -/
  | request (requests : List (Request × String)) (together : Bool)
  /-- Imports a module on behalf of another one, and keeps its namespace. -/
  | requestWith (id specifier name : String)
  /-- Imports a compiled module and keeps its record. -/
  | importModule (id name : String)
  /-- Keeps the record of a module that runs or has run. -/
  | currentRecord (id name : String)
  /-- Keeps the namespace of a record. -/
  | namespaceOf (record name : String)
  /-- Asks for a compiled module. -/
  | resource (id : String)
  /-- Asks for all compiled modules. -/
  | resources
  /-- Asks for the modules that could not be fetched. -/
  | absent
  /-- Asks how much the loader knows. -/
  | state
  /-- Asks for the address that an id stands for. -/
  | resolve (id : String)
  /-- Makes the loader forget everything. -/
  | teardown
  /-- Keeps a compiled module. -/
  | save (id name : String)
  /-- Gives the loader a compiled module that was kept. -/
  | preloadSaved (name : String)
  /-- Gives the loader a compiled module, if it could be read. -/
  | preload (resource : Option Resource)
  /-- Reads a property of a namespace. -/
  | getProperty (name key : String)
  /-- Writes a property of a namespace. -/
  | setProperty (name key : String) (v : Value)
  /-- Asks whether a namespace has a property. -/
  | hasProperty (name key : String)
  /-- Asks for a namespace. -/
  | showNamespace (name : String)
  /-- Asks whether two namespaces are the same. -/
  | sameNamespace (a b : String)
  /-- Keeps the record behind a namespace. -/
  | recordBehind (space name : String)
  /-- Keeps the namespace that a property of a namespace is. -/
  | property (space key name : String)
  /-- Asks whether two properties are worth the same. -/
  | sameValue (a keyA b keyB : String)
  /-- Reads an export of a record. -/
  | getExport (name key : String)
  /-- Writes an export of a record. -/
  | setExport (name key : String) (v : Value)
  /-- Asks for a record. -/
  | showRecord (name : String)
  /-- Asks whether two records are the same. -/
  | sameRecord (a b : String)
  /-- Forgets the namespace and the record of a name. -/
  | drop (name : String)
  /-- Gives a binding a value. -/
  | store (c : Cell) (v : Value)
  /-- Adds to what can be fetched. -/
  | serve (more : Fetcher)
  /-- Adds bodies. -/
  | bodies (entries : List (String × Body))
  /-- Asks whether a module has a body. -/
  | hasBody (id : String)
  /-- Runs a body with capabilities that were kept. -/
  | runWith (id : String) (body : Body)

/-- What the host is told. -/
inductive Answer where
  | nothing
  | flag (b : Bool)
  | text (s : String)
  | texts (list : List String)
  | value (v : Value)
  /-- A namespace, and whether its record is still there. -/
  | space (n : Namespace) (isLoaded : Bool)
  | record (r : Record)
  | resource (r : Resource)
  | resources (list : List Resource)
  /-- The loader as a diagnostic shows it, the numbers of requests and of runs, and the schemes. -/
  | state (shown : String) (requests runs : Nat) (schemes : List String)
  | several (answers : List Answer)
  | failed (e : LoadError)
  /-- A name stands for nothing, or no loader is open. -/
  | notUnderstood
  /-- A resource could not be read. -/
  | unreadable
  /-- A call did not come to an end. -/
  | stalled

/-- An error, or what is said about a value. -/
def Answer.ofResult {α : Type} (f : α → Answer) : Except LoadError α → Answer
  | .ok a => f a
  | .error e => .failed e

/-! ## Sessions -/

/-- A host with a loader. -/
structure Session where
  /-- The loader and what is around it. -/
  world : World
  /-- The namespaces that the host keeps. -/
  spaces : Table Namespace
  /-- The records that the host keeps. -/
  records : Table Nat
  /-- The compiled modules that the host keeps. -/
  saved : Table Resource

namespace Session

/-- The session before its first command. -/
def start (fetcher : Fetcher) (bodies : Table Body) : Session :=
  ⟨.closed fetcher bodies, ∅, ∅, ∅⟩

/-- What is said about a namespace. -/
def showSpace (s : Session) (n : Namespace) : Answer :=
  .space n (s.world.heap.record? n.record).isSome

/-- What is said about a record. -/
def showRecord (s : Session) (r : Nat) : Answer :=
  match s.world.heap.record? r with
  | some record => .record record
  | none => .nothing

/-- Keeps a namespace. -/
def keepSpace (s : Session) (name : String) (n : Namespace) : Answer × Session :=
  (s.showSpace n, { s with spaces := s.spaces.insert name n })

/-- Keeps a record. -/
def keepRecord (s : Session) (name : String) (r : Nat) : Answer × Session :=
  (s.showRecord r, { s with records := s.records.insert name r })

/-- Keeps what came of a request. -/
def keepResult (s : Session) (name : String) :
    Option (Except LoadError (Option Namespace)) → Answer × Session
  | none => (.stalled, s)
  | some (.error e) => (.failed e, s)
  | some (.ok none) => (.nothing, s)
  | some (.ok (some n)) => s.keepSpace name n

/-- Keeps what came of several requests. -/
def keepResults (s : Session) :
    List (String × Option (Except LoadError (Option Namespace))) → List Answer × Session
  | [] => ([], s)
  | (name, result) :: results =>
    let (answer, s) := s.keepResult name result
    let (answers, s) := s.keepResults results
    (answer :: answers, s)

/-- Makes some requests and keeps their namespaces. -/
def request (s : Session) (requests : List (Request × String)) : List Answer × Session :=
  let (results, world) := s.world.request (requests.map Prod.fst)
  { s with world := world }.keepResults ((requests.map Prod.snd).zip results)

/-- The value of a property of a namespace. -/
def getProperty (s : Session) (n : Namespace) (key : String) :
    Except LoadError Value × Session :=
  let (v, heap) := s.world.heap.getProperty n key
  (v, { s with world := { s.world with heap := heap } })

/-- Whether two reads gave the same. -/
def sameResult : Except LoadError Value → Except LoadError Value → Bool
  | .ok v, .ok w => v.equal w
  | .error e, .error f => e == f
  | _, _ => false

/-- Gives the loader a compiled module. -/
def preload (s : Session) (resource : Resource) : Answer × Session :=
  let (isNew, graph) := s.world.graph.preload resource
  (.flag isNew, { s with world := { s.world with graph := graph } })

/-! ## Commands to the loader -/

/-- What a command to an open loader gives. Nothing for a command of another kind. -/
def runOpen? (s : Session) : Command → Option (Answer × Session)
  | .request requests together =>
    let (answers, s) := s.request requests
    some (if together then .several answers else answers.headD .nothing, s)
  | .importModule id name =>
    match s.world.importModule id with
    | (.ok r, w) => some ({ s with world := w }.keepRecord name r)
    | (.error e, w) => some (.failed e, { s with world := w })
  | .currentRecord id name =>
    match s.world.modules[id]? with
    | some r => some (s.keepRecord name r)
    | none => some (.nothing, s)
  | .namespaceOf record name => do
    let (n, w) := s.world.namespaceOf (← s.records[record]?)
    return { s with world := w }.keepSpace name n
  | .resource id =>
    match s.world.graph.resource? id with
    | some r => some (.resource r, s)
    | none => some (.nothing, s)
  | .resources => some (.resources s.world.graph.resources, s)
  | .absent => some (.texts s.world.graph.absent, s)
  | .state =>
    let w := s.world
    some (.state w.shown w.graph.requests w.runs w.config.allowedSchemes, s)
  | .resolve id => some (.ofResult (fun url => .text url.text) (resolveId s.world.base id), s)
  | .teardown => some (.nothing, { s with world := s.world.teardown })
  | .save id name =>
    match s.world.graph.resource? id with
    | some r => some (.flag true, { s with saved := s.saved.insert name r })
    | none => some (.flag false, s)
  | .preloadSaved name => do return s.preload (← s.saved[name]?)
  | .preload resource =>
    match resource with
    | some resource => some (s.preload resource)
    | none => some (.unreadable, s)
  | _ => none

/-! ## Commands to the host -/

/-- What a command gives that needs no loader. Nothing if a name stands for nothing, and for a
command of another kind. -/
def runClosed? (s : Session) : Command → Option (Answer × Session)
  | .openLoader config =>
    match s.world.reopen config with
    | (.ok (), w) => some (.text w.shown, { s with world := w })
    | (.error e, w) => some (.failed e, { s with world := w })
  | .closeLoader => some (.nothing, { s with world := s.world.close })
  | .requestWith id specifier name => do
    let caps ← s.world.kept[id]?
    let (answers, s) := s.request [(.importWith caps specifier, name)]
    return (answers.headD .nothing, s)
  | .getProperty name key => do
    let (v, s) := s.getProperty (← s.spaces[name]?) key
    return (.ofResult .value v, s)
  | .setProperty name key v => do
    let (result, _) := s.world.heap.setProperty (← s.spaces[name]?) key v
    return (.ofResult (fun _ => .nothing) result, s)
  | .hasProperty name key => do return (.flag ((← s.spaces[name]?).has key), s)
  | .showNamespace name => do return (s.showSpace (← s.spaces[name]?), s)
  | .sameNamespace a b => do return (.flag ((← s.spaces[a]?).id == (← s.spaces[b]?).id), s)
  | .recordBehind space name => do
    let n ← s.spaces[space]?
    match s.world.heap.recordBehind n with
    | .ok _ => return s.keepRecord name n.record
    | .error e => return (.failed e, s)
  | .property space key name => do
    let (v, s) := s.getProperty (← s.spaces[space]?) key
    match v with
    | .ok (.namespaceObject n) => return s.keepSpace name n
    | .ok _ => return (.nothing, s)
    | .error e => return (.failed e, s)
  | .sameValue a keyA b keyB => do
    let nA ← s.spaces[a]?
    let nB ← s.spaces[b]?
    let (vA, s) := s.getProperty nA keyA
    let (vB, s) := s.getProperty nB keyB
    return (.flag (sameResult vA vB), s)
  | .getExport name key => do
    let (v, heap) := s.world.heap.get (← s.records[name]?) key
    return (.ofResult .value v, { s with world := { s.world with heap := heap } })
  | .setExport name key v => do
    let (result, _) := s.world.heap.set (← s.records[name]?) key v
    return (.ofResult (fun _ => .nothing) result, s)
  | .showRecord name => do return (s.showRecord (← s.records[name]?), s)
  | .sameRecord a b => do return (.flag ((← s.records[a]?) == (← s.records[b]?)), s)
  | .drop name =>
    some (.nothing, { s with spaces := s.spaces.erase name, records := s.records.erase name })
  | .store c v =>
    some (.nothing, { s with world := { s.world with heap := s.world.heap.store c v } })
  | .serve more =>
    some (.nothing, { s with world := { s.world with fetcher := s.world.fetcher.add more } })
  | .bodies entries =>
    let w := { s.world with bodies := s.world.bodies.addAll entries }
    some (.text w.shownBodies, { s with world := w })
  | .hasBody id => some (.flag (s.world.bodies.contains id), s)
  | .runWith id body => do
    let (result, w) := s.world.runWith (← s.world.kept[id]?) body
    return (.ofResult (fun _ => .nothing) result, { s with world := w })
  | _ => none

/-! ## All commands -/

/-- What a command gives. -/
def run (s : Session) (c : Command) : Answer × Session :=
  match s.runClosed? c with
  | some result => result
  | none =>
    match if s.world.isOpen then s.runOpen? c else none with
    | some result => result
    | none => (.notUnderstood, s)

/-- What a command gives, and what was left in the log meanwhile. -/
def step (s : Session) (c : Command) : Answer × List LogEntry × Session :=
  let (answer, s) := s.run c
  let w := { s.world with log := [] }
  (answer, s.world.log, { s with world := w.sweep s.records.values })

end Session

end EsModule.Loader

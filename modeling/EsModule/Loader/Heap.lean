import EsModule.Loader.Record

/-!
# All records

The heap holds the records, the executions, the values of the bindings and the namespaces that were
made. A record is known by its number, which is never given again. Reading an export follows readers
from record to record. Readers that lead back to themselves have no value, like a binding that is
not initialized; so a read never has more to follow than there are readers.

A record lives as long as something holds it: a root, or the execution whose handles a reader of a
living record needs. Namespaces hold no record. `alive` takes away what is not held until nothing
changes, so records that hold each other in a circle stay.
-/

namespace EsModule.Loader

/-- The records, and what reading them depends on. -/
structure Heap where
  /-- The records by number. One that is not held any more is gone. -/
  records : Array (Option Record)
  /-- The executions by number. -/
  frames : Array Frame
  /-- The values of the bindings that are initialized. -/
  cells : Cell → Option Value
  /-- The namespaces that the loader keeps, at most one for each record. -/
  namespaces : List Namespace
  /-- How many namespaces were made. -/
  namespaceCount : Nat
  /-- The loader that is open. -/
  loader : Option Nat

namespace Heap

/-- The heap without records. -/
def empty : Heap := ⟨#[], #[], fun _ => none, [], 0, none⟩

/-! ## Records -/

/-- A record that is still there. -/
def record? (h : Heap) (r : Nat) : Option Record := (h.records[r]?).join

/-- Makes a record. -/
def newRecord (h : Heap) (storeId : String) (exports : List String) : Nat × Heap :=
  (h.records.size, { h with records := h.records.push (some (.fresh storeId exports)) })

/-- Changes a record. -/
def modifyRecord (h : Heap) (r : Nat) (change : Record → Record) : Heap :=
  { h with records := h.records.modify r (Option.map change) }

/-- Installs readers in a record. -/
def install (h : Heap) (r : Nat) (entries : List (String × Reader)) : Heap :=
  h.modifyRecord r (·.install entries)

/-- Takes down that running a module ended in an error. -/
def fail (h : Heap) (r : Nat) (e : LoadError) : Heap :=
  h.modifyRecord r fun record => { record with failure := some e }

/-! ## Bindings -/

/-- Gives a binding a value. -/
def store (h : Heap) (c : Cell) (v : Value) : Heap :=
  { h with cells := fun d => if d = c then some v else h.cells d }

/-- The value of a binding. -/
def load (h : Heap) (c : Cell) : Except LoadError Value :=
  match h.cells c with
  | some v => .ok v
  | none => .error (.readBeforeInit c.name)

/-- How a diagnostic shows a binding. -/
def shownBinding (h : Heap) (c : Cell) : String :=
  let value := match h.cells c with
    | some v => "Some(" ++ v.shown ++ ")"
    | none => "None"
  "LiveBinding \x7b name: " ++ Text.shown c.name ++ ", value: " ++ value ++ " \x7d"

/-! ## Executions -/

/-- Starts an execution for a loader. -/
def newFrame (h : Heap) (loader : Nat) : Nat × Heap :=
  (h.frames.size, { h with frames := h.frames.push ⟨loader, ∅⟩ })

/-- Gives a record a handle. -/
def setHandle (h : Heap) (frame : Nat) (handle : String) (r : Nat) : Heap :=
  { h with
    frames := h.frames.modify frame fun f => { f with handles := f.handles.insert handle r } }

/-- The record under a handle. -/
def handle (h : Heap) (frame : Nat) (handle : String) : Except LoadError Nat :=
  match (h.frames[frame]?).bind (·.handles[handle]?) with
  | some r => .ok r
  | none => .error (.readBeforeInit handle)

/-- Whether the loader of an execution is open. -/
def isOpen (h : Heap) (loader : Nat) : Bool := h.loader == some loader

/-! ## Namespaces -/

/-- The namespace of a record. It is made when it is asked for first. -/
def namespaceOf (h : Heap) (r : Nat) : Namespace × Heap :=
  match h.namespaces.find? (·.record == r) with
  | some n => (n, h)
  | none =>
    let storeId := ((h.record? r).map (·.storeId)).getD ""
    let keys := ((h.record? r).map (·.exportKeys)).getD []
    let n : Namespace := ⟨h.namespaceCount, r, storeId, keys⟩
    (n, { h with namespaces := h.namespaces ++ [n], namespaceCount := h.namespaceCount + 1 })

/-- The namespace of a record, as a loader gives it if it is open. -/
def openNamespace (h : Heap) (loader r : Nat) : Except LoadError Namespace × Heap :=
  if h.isOpen loader then
    let (n, h) := h.namespaceOf r
    (.ok n, h)
  else (.error .runtimeDropped, h)

/-- The record behind a namespace. -/
def recordBehind (h : Heap) (n : Namespace) : Except LoadError Record :=
  match h.record? n.record with
  | some record => .ok record
  | none => .error (.detached n.storeId)

/-! ## Reading -/

/-- Reads an export of a record, following at most so many readers. -/
def read : Nat → Nat → String → Heap → Except LoadError Value × Heap
  | 0, _, name, h => (.error (.readBeforeInit name), h)
  | bound + 1, r, name, h =>
    match h.record? r with
    | none => (.ok .undefined, h)
    | some record =>
      match record.slots[name]? with
      | none => (record.withoutReader name, h)
      | some (.cell c) => (h.load c, h)
      | some (.constant v) => (.ok v, h)
      | some (.throws reason) => (.error (.thrown reason), h)
      | some (.member frame handle name) =>
        match h.handle frame handle with
        | .ok r => read bound r name h
        | .error e => (.error e, h)
      | some (.namespaceOf frame handle) =>
        match h.handle frame handle with
        | .ok r =>
          let loader := ((h.frames[frame]?).map (·.loader)).getD 0
          let (n, h) := h.openNamespace loader r
          (n.map .namespaceObject, h)
        | .error e => (.error e, h)

/-- How many readers are installed. -/
def readerCount (h : Heap) : Nat :=
  h.records.foldl (fun n record => n + (record.map (·.slots.size)).getD 0) 0

/-- Reads an export of a record. -/
def get (h : Heap) (r : Nat) (name : String) : Except LoadError Value × Heap :=
  read (h.readerCount + 1) r name h

/-- Reads a property of a namespace. -/
def getProperty (h : Heap) (n : Namespace) (key : String) : Except LoadError Value × Heap :=
  if n.has key then
    match h.recordBehind n with
    | .ok _ => h.get n.record key
    | .error e => (.error e, h)
  else (.ok .undefined, h)

/-! ## Writing -/

/-- Writes to a record, which takes no writes. -/
def set (h : Heap) (_record : Nat) (_name : String) (_v : Value) : Except LoadError Unit × Heap :=
  (.error .constantAssignment, h)

/-- Writes to a namespace, which takes no writes. -/
def setProperty (h : Heap) (n : Namespace) (key : String) (_v : Value) :
    Except LoadError Unit × Heap :=
  (.error (if n.has key then .readOnly key else .notExtensible key), h)

/-! ## What is held -/

/-- The records that a record holds. -/
def heldBy (h : Heap) (r : Nat) : List Nat :=
  match h.record? r with
  | some record =>
    record.slots.values.flatMap fun reader =>
      ((reader.frame?.bind (h.frames[·]?)).map (·.handles.values)).getD []
  | none => []

/-- Those of some records that a root or one of these records holds. -/
def heldAmong (h : Heap) (roots among : List Nat) : List Nat :=
  let held := roots ++ among.flatMap h.heldBy
  among.filter held.contains

/-- The numbers of the records that are there. -/
def present (h : Heap) : List Nat :=
  (List.range h.records.size).filter fun r => (h.record? r).isSome

/-- The records that stay. -/
def alive (h : Heap) (roots : List Nat) : List Nat :=
  (List.range h.records.size).foldl (fun among _ => h.heldAmong roots among) h.present

/-- Gives up the records that nothing holds. -/
def sweep (h : Heap) (roots : List Nat) : Heap :=
  let alive := h.alive roots
  { h with records := h.records.mapIdx fun r record => if alive.contains r then record else none }

end Heap

end EsModule.Loader

import EsModule.Loader.Error
import EsModule.Loader.Table
import EsModule.Loader.Value

/-!
# Records and how their exports are read

A module that runs has a *record*. Its slots hold readers, not values: what an export is worth is
found out when it is read. A reader looks at a binding of the module, at an export of another
module, or at the namespace of another module. Other modules are named by the handles of the
execution that installed the reader, and these too are looked up only when the export is read.
-/

namespace EsModule.Loader

/-- A binding of a module. -/
structure Cell where
  /-- The module. -/
  owner : String
  /-- The name of the binding. -/
  name : String
deriving DecidableEq

/-- What gives the value of an export. -/
inductive Reader where
  /-- The value of a binding. -/
  | cell (c : Cell)
  /-- A value that never changes. -/
  | constant (v : Value)
  /-- An error, every time. -/
  | throws (reason : String)
  /-- An export of the record that an execution has under a handle. -/
  | member (frame : Nat) (handle name : String)
  /-- The namespace of the record that an execution has under a handle. -/
  | namespaceOf (frame : Nat) (handle : String)

/-- The execution whose handles a reader needs. -/
def Reader.frame? : Reader → Option Nat
  | .member frame _ _ | .namespaceOf frame _ => some frame
  | _ => none

/-- The live exports of a module. -/
structure Record where
  /-- The module. -/
  storeId : String
  /-- The names of its exports, in the order in which compiling gave them. -/
  exports : List String
  /-- The readers that are installed. -/
  slots : Table Reader
  /-- The error in which running the module ended. -/
  failure : Option LoadError

namespace Record

/-- The record of a module that has not begun to run. -/
def fresh (storeId : String) (exports : List String) : Record := ⟨storeId, exports, ∅, none⟩

/-- The names with a reader, sorted. -/
def keys (r : Record) : List String := r.slots.keys

/-- Installs readers; they take the place of those with the same names. -/
def install (r : Record) (entries : List (String × Reader)) : Record :=
  { r with slots := r.slots.addAll entries }

/-- What a name without a reader is worth: an export is not initialized yet, and any other name is
undefined. -/
def withoutReader (r : Record) (name : String) : Except LoadError Value :=
  if name ∈ r.exports then .error (.readBeforeInit name) else .ok .undefined

/-- The names of the exports, sorted and each once. -/
def exportKeys (r : Record) : List String := (Table.ofEntries (r.exports.map (·, ()))).keys

end Record

/-- One execution of a module body. -/
structure Frame where
  /-- The loader that started it. -/
  loader : Nat
  /-- The records that it has imported, by handle. -/
  handles : Table Nat

end EsModule.Loader

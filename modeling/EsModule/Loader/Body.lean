import EsModule.Loader.Record

/-!
# What module bodies do

The loader does not run code itself. It is told what the body of a module does: a *body* is one
action together with what is done next, depending on what came of the action. So a body is any
behaviour that a module can have towards the loader, and it always ends. It also ends before
anything else goes on: bodies that it starts run inside of it, and no other call is answered in
between.

A *script* is a body that is written as a list of actions. It stops at the first action that fails,
unless that action is marked to catch its error.
-/

namespace EsModule.Loader

/-! ## Bodies -/

/-- What a body leaves in the log. -/
inductive LogEntry where
  /-- An error that was caught. -/
  | caught (storeId : String) (e : LoadError)
  /-- The value of an export. -/
  | read (storeId name : String) (v : Value)
  /-- The namespace of an imported module. -/
  | opened (storeId : String) (n : Namespace)
  /-- The address that a module is told for itself. -/
  | address (storeId url : String)
  /-- A message. -/
  | message (storeId text : String)

/-- What gives the value of an export, in the words of the module that installs it. -/
inductive Source where
  /-- A binding of the module. -/
  | variable (name : String)
  /-- A value that never changes. -/
  | constant (v : Value)
  /-- An error, every time. -/
  | throws (reason : String)
  /-- An export of the module under a handle. -/
  | member (handle name : String)
  /-- The namespace of the module under a handle. -/
  | namespaceOf (handle : String)

/-- The reader of an export that an execution of a module installs. -/
def Source.reader (owner : String) (frame : Nat) : Source → Reader
  | .variable name => .cell ⟨owner, name⟩
  | .constant v => .constant v
  | .throws reason => .throws reason
  | .member handle name => .member frame handle name
  | .namespaceOf handle => .namespaceOf frame handle

/-- What the body of a module does. -/
inductive Body where
  /-- It ends. -/
  | finish (result : Except LoadError Unit)
  /-- It installs exports. -/
  | installExports (entries : List (String × Source)) (next : Except LoadError Unit → Body)
  /-- It imports a module under a handle. -/
  | importModule (specifier handle : String) (next : Except LoadError Unit → Body)
  /-- It reads an export of the module under a handle. -/
  | read (handle name : String) (next : Except LoadError Value → Body)
  /-- It writes to an export of the module under a handle. -/
  | write (handle name : String) (next : Except LoadError Unit → Body)
  /-- It asks for the namespace of the module under a handle. -/
  | openNamespace (handle : String) (next : Except LoadError Namespace → Body)
  /-- It gives one of its bindings a value. -/
  | store (name : String) (v : Value) (next : Body)
  /-- It asks for its own address. -/
  | address (next : String → Body)
  /-- It keeps its capabilities for later. -/
  | keep (next : Body)
  /-- It leaves an entry in the log. -/
  | log (entry : LogEntry) (next : Body)

/-! ## Scripts -/

/-- An action of a script. -/
inductive ScriptAction where
  | installExports (entries : List (String × Source))
  | importModule (specifier handle : String)
  | store (name : String) (v : Value)
  /-- Reads an export, and may give a binding its value. -/
  | read (handle name : String) (into : Option String)
  | write (handle name : String)
  /-- Asks for a namespace, and may give it to a binding. -/
  | openNamespace (handle : String) (into : Option String)
  | address
  | keep
  | throw (reason : String)
  | log (text : String)

/-- An action, and whether its error is caught. -/
structure ScriptStep where
  action : ScriptAction
  catches : Bool

/-- A body that may give a binding a value before it goes on. -/
def Body.storing (into : Option String) (v : Value) (next : Body) : Body :=
  match into with
  | some name => .store name v next
  | none => next

/-- What an action of the module `storeId` does, and what is done next. -/
def ScriptAction.body (storeId : String) (next : Except LoadError Unit → Body) :
    ScriptAction → Body
  | .installExports entries => .installExports entries next
  | .importModule specifier handle => .importModule specifier handle next
  | .store name v => .store name v (next (.ok ()))
  | .read handle name into => .read handle name fun
    | .ok v => .log (.read storeId name v) (.storing into v (next (.ok ())))
    | .error e => next (.error e)
  | .write handle name => .write handle name next
  | .openNamespace handle into => .openNamespace handle fun
    | .ok n => .log (.opened storeId n) (.storing into (.namespaceObject n) (next (.ok ())))
    | .error e => next (.error e)
  | .address => .address fun url => .log (.address storeId url) (next (.ok ()))
  | .keep => .keep (next (.ok ()))
  | .throw reason => next (.error (.thrown reason))
  | .log text => .log (.message storeId text) (next (.ok ()))

/-- The body of the module `storeId` that a script is. -/
def Body.ofScript (storeId : String) : List ScriptStep → Body
  | [] => .finish (.ok ())
  | step :: steps =>
    step.action.body storeId fun
      | .ok () => ofScript storeId steps
      | .error e =>
        if step.catches then .log (.caught storeId e) (ofScript storeId steps)
        else .finish (.error e)

end EsModule.Loader

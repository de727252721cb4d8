import EsModule.Compile.Error
import EsModule.Url.Parse

/-!
# What goes wrong when modules are loaded and run

Every error belongs to one of three phases: it is found before any code runs, a module that is
needed cannot be had, or running code meets it.
-/

namespace EsModule.Loader

open EsModule.Compile

/-- When an error arises. -/
inductive Phase where
  /-- Before any code of the module runs. -/
  | static
  /-- When a module that is needed cannot be had. -/
  | resource
  /-- While code runs. -/
  | running
deriving DecidableEq

/-- What goes wrong when modules are loaded and run. -/
inductive LoadError where
  /-- A module cannot be compiled. -/
  | compile (error : CompileError)
  /-- The configuration is none. -/
  | config (reason : String)
  /-- Nothing is known of a module, or it could not be fetched. -/
  | notFound (storeId : String)
  /-- A module is still being compiled. -/
  | notCompiled (storeId : String)
  /-- An import without an address. -/
  | missingUrl
  /-- An import of code without code. -/
  | missingCode
  /-- An import of code without a name for it. -/
  | missingFilename
  /-- An address that is none. -/
  | invalidUrl (url reason : String)
  /-- The configuration does not allow the scheme of an address. -/
  | schemeNotAllowed (scheme url : String)
  /-- A request got no answer. -/
  | transport (reason : String)
  /-- A binding is read before it has a value. -/
  | readBeforeInit (name : String)
  /-- A write to an export of a record. -/
  | constantAssignment
  /-- A write to an export of a namespace. -/
  | readOnly (name : String)
  /-- A new property of a namespace. -/
  | notExtensible (name : String)
  /-- The record behind a namespace is gone. -/
  | detached (storeId : String)
  /-- The loader behind a capability is gone. -/
  | runtimeDropped
  /-- There is nothing to run for a module. -/
  | noBody (storeId : String)
  /-- An error that module code throws. -/
  | thrown (reason : String)
deriving DecidableEq

namespace LoadError

/-- The message for a reader. -/
def message : LoadError → String
  | .compile error => error.message
  | .config reason => "Invalid configuration: " ++ reason
  | .notFound storeId => "Module '" ++ storeId ++ "' not found"
  | .notCompiled storeId => "Module '" ++ storeId ++ "' has not finished compiling"
  | .missingUrl => "Missing url"
  | .missingCode => "Missing code"
  | .missingFilename => "Missing filename"
  | .invalidUrl url reason => "Invalid module url '" ++ url ++ "': " ++ reason
  | .schemeNotAllowed scheme url =>
    "Loading modules over '" ++ scheme ++ "' is not allowed (" ++ url ++ ")"
  | .transport reason => "Network error: " ++ reason
  | .readBeforeInit name => "ReferenceError: Cannot access '" ++ name ++ "' before initialization"
  | .constantAssignment => "TypeError: Assignment to constant variable."
  | .readOnly name =>
    "TypeError: Cannot assign to read only property '" ++ name ++ "' of object '[object Module]'"
  | .notExtensible name =>
    "TypeError: Cannot add property " ++ name ++ ", object is not extensible"
  | .detached storeId => "Module '" ++ storeId ++ "' is no longer loaded"
  | .runtimeDropped => "The module runtime has been dropped"
  | .noBody storeId => "No executable body for module '" ++ storeId ++ "'"
  | .thrown reason => reason

/-- The phase in which an error arises. -/
def phase : LoadError → Phase
  | .compile _ | .config _ => .static
  | .notFound _ | .notCompiled _ | .missingUrl | .missingCode | .missingFilename
  | .invalidUrl .. | .schemeNotAllowed .. | .transport _ => .resource
  | .readBeforeInit _ | .constantAssignment | .readOnly _ | .notExtensible _ | .detached _
  | .runtimeDropped | .noBody _ | .thrown _ => .running

end LoadError

/-!
## The addresses of modules

A module is known by its *store id*, which is an absolute address. A specifier in the code of a
module is resolved against an address of that module.
-/

/-- The error of an address that is none. -/
def LoadError.ofUrl (url : String) (error : Url.UrlError) : LoadError :=
  .invalidUrl url error.message

/-- The address that a specifier stands for, relative to an address. -/
def resolve (base specifier : String) : Except LoadError Url := do
  let base ← (Url.parse base).mapError (.ofUrl base)
  (base.join specifier).mapError (.ofUrl specifier)

/-- The address that an id stands for: an absolute one stands for itself, and any other one is
relative to a given base, if there is one. -/
def resolveId (base : Option Url) (id : String) : Except LoadError Url :=
  match Url.parse id, base with
  | .ok url, _ => .ok url
  | .error .relativeWithoutBase, some base => (base.join id).mapError (.ofUrl id)
  | .error .relativeWithoutBase, none =>
    .error (.invalidUrl id "relative module url and no base_url configured")
  | .error error, _ => .error (.ofUrl id error)

end EsModule.Loader

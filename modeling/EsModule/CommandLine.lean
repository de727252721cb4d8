import EsModule.Compile.Output
import EsModule.Loader.Error
import EsModule.Loader.Resource

/-!
# The command line

The one command is `compile FILE`. It compiles a module without a look at the modules that it
imports, and gives the code, either with the source map at its end or with the source map apart.
-/

namespace EsModule.CommandLine

open EsModule.Compile EsModule.Loader

/-! ## Arguments -/

/-- Where the source map goes. -/
inductive MapPlace where
  /-- Nowhere. -/
  | nowhere
  /-- To the end of the code. -/
  | inCode
  /-- To a file of its own. -/
  | file (name : String)
deriving DecidableEq

/-- What is to be compiled, and how. -/
structure Job where
  /-- The file, if it is named already. -/
  file : Option String
  /-- The id of the module. Without one it is the address of the file. -/
  storeId : Option String
  /-- Where the source map goes. -/
  map : MapPlace
deriving DecidableEq

/-- Why arguments make no sense. -/
inductive UsageError where
  | noCommand
  | unknownCommand (word : String)
  | noFile
  | noValue (option : String)
  | unexpected (word : String)
  /-- The source map is to go to two places. -/
  | twoMaps
deriving DecidableEq

/-- The message for a reader. -/
def UsageError.message : UsageError → String
  | .noCommand => "usage: compile FILE [--store-id ID] [--map FILE | --inline-map]"
  | .unknownCommand word => "unknown command '" ++ word ++ "'"
  | .noFile => "no file is named"
  | .noValue option => "the option '" ++ option ++ "' needs a value"
  | .unexpected word => "unexpected argument '" ++ word ++ "'"
  | .twoMaps => "the options '--map' and '--inline-map' exclude each other"

/-- A job whose source map goes to a place. -/
def Job.withMap (job : Job) (place : MapPlace) : Except UsageError Job :=
  if job.map = .nowhere then .ok { job with map := place } else .error .twoMaps

/-- A job with more arguments. -/
def Job.withArguments (job : Job) : List String → Except UsageError Job
  | [] => .ok job
  | "--inline-map" :: rest => do (← job.withMap .inCode).withArguments rest
  | "--map" :: name :: rest => do (← job.withMap (.file name)).withArguments rest
  | "--store-id" :: id :: rest => { job with storeId := some id }.withArguments rest
  | word :: rest =>
    if word = "--map" ∨ word = "--store-id" then .error (.noValue word)
    else if word.startsWith "-" ∨ job.file.isSome then .error (.unexpected word)
    else { job with file := some word }.withArguments rest

/-- The job that arguments ask for, and its file. -/
def Job.ofArguments : List String → Except UsageError (String × Job)
  | [] => .error .noCommand
  | word :: rest => do
    if word ≠ "compile" ∧ word ≠ "c" then throw (.unknownCommand word)
    let job ← Job.withArguments ⟨none, none, .nowhere⟩ rest
    match job.file with
    | some file => return (file, job)
    | none => throw .noFile

/-! ## Files -/

/-- The last part of a path. -/
def baseName (path : List Char) : List Char :=
  (path.reverse.takeWhile (· ≠ '/')).reverse

/-- The address of a file, given its absolute path. -/
def fileAddress (path : List Char) : String :=
  Url.fileScheme ++ "://" ++
    String.ofList (Url.percentEncode (fun c => Url.encodedInPath c || c == '%') path)

/-! ## Running -/

/-- Compiles the text of a file. -/
def compile (source file storeId : String) : Except CompileError Resource := do
  let m ← Module.ofSource source file
  let output ← m.output noExports
  return ⟨storeId, storeId, output.code, output.map, output.exports⟩

/-- What a job prints. -/
def Job.printed (job : Job) (r : Resource) : String :=
  if job.map = .inCode then r.annotatedCode else r.code

end EsModule.CommandLine

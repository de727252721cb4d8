import EsModule.CommandLine

/-!
# The program

Reads the file that the arguments name, and prints what compiling it gives.
-/

namespace EsModule.CommandLine

/-- Does a job for a file. Gives the error of a module that cannot be compiled. -/
def Job.run (job : Job) (file : String) : IO (Except Compile.CompileError Unit) := do
  let source ← IO.FS.readFile file
  let path ← IO.FS.realPath file
  let storeId := job.storeId.getD (fileAddress path.toString.toList)
  match compile source (String.ofList (baseName file.toList)) storeId with
  | .error e => return .error e
  | .ok r =>
    if let .file name := job.map then
      IO.FS.writeFile name r.map.jsonText
    IO.println (job.printed r)
    return .ok ()

/-- Runs the command line. The answer is 0 if all went well. -/
def run (arguments : List String) : IO UInt32 := do
  match Job.ofArguments arguments with
  | .error e =>
    IO.eprintln ("Error: " ++ e.message)
    return 2
  | .ok (file, job) =>
    try
      match ← job.run file with
      | .ok () => return 0
      | .error e =>
        IO.eprintln ("Error: " ++ e.message)
        return 1
    catch e =>
      IO.eprintln ("Error: " ++ toString e)
      return 1

end EsModule.CommandLine

/-- The program. -/
def main (arguments : List String) : IO UInt32 := EsModule.CommandLine.run arguments

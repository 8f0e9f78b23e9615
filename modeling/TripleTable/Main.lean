import TripleTable.CommandLine.Session
set_option autoImplicit false

/-!
The program: a session among the files of the system.
-/
open TripleTable CommandLine

def readFailure : IO.Error → Text
  | .noFileOrDirectory _ _ _ => "No such file or directory (os error 2)"
  | e => (toString e).toList

def readWhole (path : Text) : IO (Except Text Text) := do
  try
    return .ok (← IO.FS.readFile (String.ofList path)).toList
  catch e => return .error (readFailure e)

def perform : Session → IO Result
  | .done result => return result
  | .readInput next => do
    let input ← (← IO.getStdin).readToEnd
    perform (next input.toList)
  | .readFile path next => do
    perform (next (← readWhole path))

def main (arguments : List String) : IO UInt32 := do
  let mut env : Environment := []
  for name in Settings.variableNames do
    if let some value ← IO.getEnv name then
      env := env.insert name value
  let result ← perform (.ofArguments env (arguments.map String.toList))
  IO.print (String.ofList result.output)
  IO.eprint (String.ofList result.errors)
  return result.code.toUInt32

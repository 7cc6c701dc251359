import SqlPipeline.Command.Run

/-!
# The command

Reads the files that the command line names, and writes what the command gives.
-/

open SqlPipeline

def readText (path : String) : IO Command.FileText := do
  try
    return .ok (← IO.FS.readFile path)
  catch error =>
    return .error (toString error)

def main (args : List String) : IO UInt32 := do
  match Command.parse? args with
  | none =>
    (← IO.getStderr).putStrLn "error: the arguments are not understood"
    return 2
  | some invocation =>
    let catalog ← invocation.catalog.mapM readText
    let files ← invocation.files.mapM readText
    let output := Command.run invocation catalog files
    let stdout ← IO.getStdout
    stdout.putStr output.stdout
    stdout.flush
    return output.exit.toUInt32

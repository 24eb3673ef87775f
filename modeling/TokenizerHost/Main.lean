import TokenizerHost.CommandLine.Run

namespace TokenizerHost

def readFile (path : String) : IO (Except ReadFailure ByteArray) := do
  try
    return .ok (← IO.FS.readBinFile path)
  catch e =>
    return match e with
      | .noFileOrDirectory .. => .error .notFound
      | .inappropriateType .. => .error .isDirectory
      | _ => .error .notADirectory

partial def readAll (stream : IO.FS.Stream) (read : ByteArray) : IO ByteArray := do
  let next ← stream.read 65536
  if next.isEmpty then return read
  readAll stream (read ++ next)

def readVariables : IO Environment := do
  let mut vars : Environment := .empty
  for o in overrides do
    if let some value ← IO.getEnv o.name then vars := vars.insert o.name value
  return vars

def readMachine (i : Invocation) : IO (Machine Unit) := do
  let home ← IO.getEnv "HOME"
  let configPaths := (home.map userConfigPath).toList ++ i.configFile.toList
  let configFiles ← configPaths.mapM fun path => return (path, ← readFile path)
  let find (files : List (String × Except ReadFailure ByteArray)) (path : String) :=
    (files.lookup path).getD (.error .notFound)
  let input ← match i.command with
    | .analyze c => if c.fromInput then readAll (← IO.getStdin) .empty else pure .empty
    | .showConfig => pure .empty
  let m : Machine Unit :=
    { read := find configFiles, home, vars := ← readVariables, input, engine := fun _ => none,
      around := ⟨0, 0⟩ }
  match m.loadConfig i.configFile, i.command with
  | .ok resolved, .analyze c =>
    match resolved.config.moduleSource c.source with
    | .file path => return { m with read := find ((path, ← readFile path) :: configFiles) }
    | _ => return m
  | _, _ => return m

end TokenizerHost

open TokenizerHost in
def main (args : List String) : IO UInt32 := do
  let result ← match Invocation.parse args with
    | .error e => pure (RunResult.ofNoRun e)
    | .ok i => do pure ((← readMachine i).perform i)
  (← IO.getStdout).putStr result.output
  (← IO.getStderr).putStr result.diagnostics
  return result.code

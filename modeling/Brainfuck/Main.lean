/-
The command line program. A session is pure, so it is run again whenever it can get further: with one more line when a
question waits for its answer, with more fuel when the program still runs. Each time only what is new is written.
-/
import Brainfuck.Session

namespace Brainfuck

/-- is `code` the system's code `n`, whose sign depends on the call that failed? -/
def isSystemCode (n code : UInt32) : Bool := code = n ∨ code = -n

/-- the reason a file could not be read -/
def deviceError : IO.Error → DeviceError
  | .noFileOrDirectory .. => .notFound
  | .inappropriateType file code details =>
    if isSystemCode 20 code then .notADirectory
    else if isSystemCode 21 code then .isADirectory
    else .reported (toString (IO.Error.inappropriateType file code details))
  | e => .reported (toString e)

/-- the text of one file -/
def readFileNow (path : List Char) : IO (Except DeviceError (List Char)) := do
  try
    let content ← IO.FS.readBinFile (String.ofList path)
    match Text.decode? content.toList with
    | some text => return .ok text
    | none => return .error .notText
  catch e => return .error (deviceError e)

/-- a reader for the paths that options and environment name -/
def readerFor (o : Options) (environment : Environment) : IO Reader := do
  let paths := o.file.toList ++ o.inputFile.toList ++ (Settings.configPath? environment).toList
  let contents ← paths.mapM fun path => do return (path, ← readFileNow path)
  return fun path => (contents.lookup path).getD (.error .notFound)

/-- the environment variables the program looks at -/
def environmentNow : IO Environment := do
  let names := [Settings.configPathVariable, Settings.stepLimitVariable, Settings.memorySizeVariable,
    Settings.configHomeVariable, Settings.homeVariable, Session.logVariable]
  let found ← names.filterMapM fun name => do return (← IO.getEnv name).map fun value => (name, value.toUTF8.toList)
  return ⟨found⟩

/-- write the bytes after the first `written` ones; how many are written then -/
def writeNew (stream : IO.FS.Stream) (bytes : Array UInt8) (written : Nat) : IO Nat := do
  stream.write ⟨bytes.extract written⟩
  stream.flush
  return bytes.size

/-- run the session until it ends, having written `out` and `err` bytes so far -/
partial def drive (s : Surroundings) (fuel out err : Nat) : IO UInt32 := do
  let ending := Session.run fuel s
  let out ← writeNew (← IO.getStdout) ending.stdout out
  let err ← writeNew (← IO.getStderr) ending.stderr err
  let code := (Session.exitCode ending.standing).toUInt32
  match ending.standing with
  | .exited _ => return code
  | .refused e =>
    (← IO.getStderr).putStrLn ("error: " ++ e.message)
    return code
  | .running => drive s (16 * fuel) out err
  | .asking =>
    let line ← (← IO.getStdin).getLine
    if line.isEmpty then drive { s with stdinOpen := false } fuel out err
    else drive { s with stdin := s.stdin ++ line.toUTF8.toList } fuel out err

end Brainfuck

def main (arguments : List String) : IO UInt32 := do
  let raw := arguments.map fun a => a.toUTF8.toList
  let environment ← Brainfuck.environmentNow
  let reader ← match Brainfuck.Options.parse raw with
    | .ok o => Brainfuck.readerFor o environment
    | .error _ => pure fun _ => .error .notFound
  let terminal ← (← IO.getStderr).isTty
  Brainfuck.drive { name := "bf", arguments := raw, environment, reader, terminal, stdinOpen := true } 1000000 0 0

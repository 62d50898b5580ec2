/-
Limits from the surroundings: environment variables and the config file. An invalid value counts as absent and is
noted; so does a variable that is not text, without a note.
-/
import Brainfuck.ConfigFile
import Brainfuck.Files

namespace Brainfuck

/-- environment variables with their raw values -/
structure Environment where
  bindings : List (String × List UInt8) := []
  deriving Repr

namespace Environment

/-- a variable's value, when it is set and is text -/
def text? (env : Environment) (name : String) : Option (List Char) :=
  (env.bindings.lookup name).bind Text.decode?

end Environment

/-- a value together with what is noted on the way to it -/
structure Noted (α : Type) where
  value : α
  notes : List Event := []
  deriving Repr

namespace Settings

def configPathVariable : String := "BF_CONFIG"
def stepLimitVariable : String := "BF_MAX_STEPS"
def memorySizeVariable : String := "BF_MEMORY_SIZE"
def configHomeVariable : String := "XDG_CONFIG_HOME"
def homeVariable : String := "HOME"

/-- a limit from a variable: its trimmed text must read as one -/
def fromVariable {α : Type} (env : Environment) (name : String) (read? : List Char → Option α) : Noted (Option α) :=
  match env.text? name with
  | none => ⟨none, []⟩
  | some text =>
    match read? (Text.trim text) with
    | some a => ⟨some a, []⟩
    | none => ⟨none, [.variableIgnored name (String.ofList text)]⟩

/-- the limits the environment sets -/
def fromEnvironment (env : Environment) : Noted Limits :=
  let steps := fromVariable env stepLimitVariable Count.parse?
  let memory := fromVariable env memorySizeVariable ConfigFile.cellCount?
  ⟨⟨steps.value, memory.value⟩, steps.notes ++ memory.notes⟩

/-- a name below a directory; an empty directory adds nothing, a slash at its end is not doubled -/
def join (directory name : List Char) : List Char :=
  if directory = [] ∨ directory.getLast? = some '/' then directory ++ name else directory ++ '/' :: name

/-- where the config file is looked for: the path given, else the directory for settings, else the home directory, which
is no directory when empty -/
def configPath? (env : Environment) : Option (List Char) :=
  match env.text? configPathVariable with
  | some path => some path
  | none =>
    match env.text? configHomeVariable with
    | some directory => some (join directory "bf.toml".toList)
    | none => ((env.text? homeVariable).filter (· ≠ [])).map fun home => join home ".config/bf.toml".toList

/-- the limits the config file sets; a file that cannot be read sets none -/
def fromFile (env : Environment) (reader : Reader) : Noted Limits :=
  match configPath? env with
  | none => ⟨.unset, []⟩
  | some path =>
    match reader path with
    | .error _ => ⟨.unset, []⟩
    | .ok text => ⟨ConfigFile.limits text, .configLoaded (String.ofList path) :: ConfigFile.notes text⟩

/-- environment first, then the config file -/
def fallback (env : Environment) (reader : Reader) : Noted Limits :=
  let e := fromEnvironment env
  let f := fromFile env reader
  ⟨e.value.or f.value, e.notes ++ f.notes⟩

end Settings

end Brainfuck

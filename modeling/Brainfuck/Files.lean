/-
Reading files. A reader gives the text of the file at a path or the reason why there is none; that is all the program
knows of the file system. `Files` is a finite tree under the current directory with a reader of its own: a path is
walked name by name, every name but the last must lead to a directory, and so must the last when a slash follows it.
Above the current directory there are directories too, but nothing is known of what else they hold.
-/
import Brainfuck.Device
import Brainfuck.Text.Utf8

namespace Brainfuck

/-- the text of the file at a path, or why there is none -/
abbrev Reader := List Char → Except DeviceError (List Char)

/-- what a name stands for -/
inductive Entry where
  | file (content : List UInt8)
  | directory
  deriving DecidableEq, Repr

/-- entries by their path from the current directory; directories above an entry exist too -/
structure Files where
  entries : List (List (List Char) × Entry) := []
  deriving Repr

namespace Files

/-- the names between slashes, empty ones included -/
def namesFrom (name : List Char) : List Char → List (List Char)
  | [] => [name.reverse]
  | c :: cs => if c = '/' then name.reverse :: namesFrom [] cs else namesFrom (c :: name) cs

def names (path : List Char) : List (List Char) := namesFrom [] path

/-- empty names and single dots lead nowhere -/
def isIdle (name : List Char) : Bool := name = [] || name = ['.']

/-- files given by path and content; no content makes a directory -/
def ofList (files : List (List Char × Option (List UInt8))) : Files where
  entries := files.map fun f =>
    ((names f.1).filter fun n => !isIdle n, match f.2 with | some content => .file content | none => .directory)

/-- where a walk stands -/
inductive Place where
  /-- in the current directory or below it, given the names on the way, the innermost first -/
  | below (names : List (List Char))
  /-- somewhere above the current directory -/
  | above
  deriving DecidableEq, Repr

def Place.parent : Place → Place
  | below (_ :: names) => below names
  | below [] | above => above

/-- the place of a name in a directory, where names are known -/
def Place.child? (name : List Char) : Place → Option Place
  | below names => some (below (name :: names))
  | above => none

/-- what stands at a place; a place above some entry is a directory -/
def at? (fs : Files) : Place → Option Entry
  | .above => some .directory
  | .below [] => some .directory
  | .below names =>
    let path := names.reverse
    match fs.entries.find? fun e => e.1 = path with
    | some e => some e.2
    | none => if fs.entries.any fun e => path.isPrefixOf e.1 then some .directory else none

/-- longest name and longest path, in bytes -/
def longestName : Nat := 255
def longestPath : Nat := 4095

/-- go on from a place by names -/
def walk (fs : Files) (place : Place) : List (List Char) → Except DeviceError Entry
  | [] =>
    match fs.at? place with
    | some e => .ok e
    | none => .error .notFound
  | name :: rest =>
    match fs.at? place with
    | none => .error .notFound
    | some (.file _) => .error .notADirectory
    | some .directory =>
      if isIdle name then walk fs place rest
      else if name = ['.', '.'] then walk fs place.parent rest
      else if longestName < (Text.encode name).length then .error .nameTooLong
      else
        match place.child? name with
        | some place => walk fs place rest
        | none => .error .notFound

/-- the entry a path leads to; a slash in front starts at the uppermost directory -/
def find (fs : Files) (path : List Char) : Except DeviceError Entry :=
  if '\x00' ∈ path then .error .nulInName
  else if path = [] then .error .notFound
  else if longestPath < (Text.encode path).length then .error .nameTooLong
  else walk fs (if path.head? = some '/' then .above else .below []) (names path)

/-- the text a path leads to -/
def read (fs : Files) : Reader := fun path =>
  match fs.find path with
  | .error e => .error e
  | .ok .directory => .error .isADirectory
  | .ok (.file content) =>
    match Text.decode? content with
    | some text => .ok text
    | none => .error .notText

end Files

end Brainfuck

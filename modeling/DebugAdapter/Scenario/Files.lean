import DebugAdapter.Program
import DebugAdapter.Scenario.Debuggee

namespace DebugAdapter.Scenario

open Debuggee

/-- Nothing new can be made in the `sealed` directories. A link is a path and the directory that it
leads to. The `screens` are the files that stand for the screen of the program. -/
structure Files where
  directories : List String
  sealed : List String := []
  links : List (String × String) := []
  files : List String
  screens : List String := []

namespace Files

abbrev Directory := List (List Char)

/-- What a path leads to. Nothing may stand yet where it ends. -/
inductive Place where
  | directory (directory : Directory)
  | file (directory : Directory) (name : List Char)
  | vacant (directory : Directory)
deriving DecidableEq, Repr

inductive PathError where
  | missing
  | notDirectory
  | tooLong
deriving DecidableEq, Repr

def PathError.failure : PathError → SpawnFailure
  | missing => .notFound
  | notDirectory => .other "Not a directory (os error 20)"
  | tooLong => .other "File name too long (os error 36)"

def names (path : String) : List (List Char) :=
  (Path.partsFrom [] path.toList).filter Path.isNamed

def listed (paths : List String) (place : List (List Char)) : Bool :=
  paths.any (names · = place)

def linked? (f : Files) (place : List (List Char)) : Option Directory :=
  (f.links.find? fun link => names link.1 = place).map fun link => names link.2

def named? (f : Files) (d : Directory) (name : List Char) : Option Place :=
  if listed f.directories (d ++ [name]) then some (.directory (d ++ [name]))
  else if listed f.files (d ++ [name]) then some (.file d name)
  else (f.linked? (d ++ [name])).map .directory

def maxName : Nat := 255

def maxPath : Nat := 4095

def enter (f : Files) (place : Place) (part : List Char) : Except PathError Place :=
  match place with
  | .file .. => .error .notDirectory
  | .vacant _ => .error .missing
  | .directory d =>
    if !Path.isNamed part then .ok place
    else if part = ['.', '.'] then .ok (.directory d.dropLast)
    else if maxName < (String.ofList part).utf8ByteSize then .error .tooLong
    else .ok ((f.named? d part).getD (.vacant d))

def resolve (f : Files) (base : Directory) (path : String) : Except PathError Place :=
  if path.isEmpty then .error .missing
  else if maxPath < path.utf8ByteSize then .error .tooLong
  else
    let start := if path.startsWith "/" then [] else base
    (Path.partsFrom [] path.toList).foldlM f.enter (.directory start)

def log? (f : Files) (path : String) : Option Program.Log :=
  match f.resolve [] path with
  | .ok (.file d name) =>
    some (if listed f.screens (d ++ [name]) then .screen else .file)
  | .ok (.vacant d) => if listed f.sealed d then none else some .file
  | _ => none

/-- Where a program would be found. Its directory is entered before it is looked for. -/
def find (f : Files) (spec : LaunchSpec) : Except PathError Place := do
  match ← f.resolve [] spec.cwd with
  | .directory d => f.resolve d spec.executable
  | .file .. => throw .notDirectory
  | .vacant _ => throw .missing

def failure (f : Files) (spec : LaunchSpec) : SpawnFailure :=
  (nulFailure? (spec.executable :: spec.args)).getD
    (match f.find spec with
    | .ok (.directory _) | .ok (.file ..) => .permissionDenied
    | .ok (.vacant _) => .notFound
    | .error e => e.failure)

end Files
end DebugAdapter.Scenario

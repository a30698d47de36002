namespace DebugAdapter

namespace Path

/-- The parts of a path between slashes, empty ones included; `part` holds the current one, last
character first. -/
def partsFrom (part : List Char) : List Char → List (List Char)
  | [] => [part.reverse]
  | '/' :: cs => part.reverse :: partsFrom [] cs
  | c :: cs => partsFrom (c :: part) cs

def isNamed (part : List Char) : Bool :=
  part ≠ [] && part ≠ ['.']

/-- The components of a path. The slash at the front is one; the current directory is one only at
the front. -/
def components (path : String) : List (List Char) :=
  match partsFrom [] path.toList with
  | [] => []
  | first :: parts =>
    let parts := parts.filter isNamed
    if first = [] then if path.isEmpty then parts else ['/'] :: parts
    else first :: parts

def isWithin (path root : String) : Bool :=
  (components root).isPrefixOf (components path)

/-- The path of `name` seen from `base`. A name that begins with a slash stands for itself. -/
def join (base name : String) : String :=
  if name.startsWith "/" then name
  else if base.isEmpty || base.endsWith "/" then base ++ name
  else base ++ "/" ++ name

end Path

namespace Workspace

/-- The deepest root, the last of those equally deep. -/
def deepest : List String → Option String
  | [] => none
  | root :: roots =>
    match deepest roots with
    | none => some root
    | some other =>
      if (Path.components other).length < (Path.components root).length then some root
      else some other

def owningRoot (roots : List String) (path : String) : Option String :=
  deepest (roots.filter (Path.isWithin path))

/-- The owning root, or else the first root. -/
def resolve (roots : List String) (path : String) : Option String :=
  owningRoot roots path <|> roots.head?

end Workspace
end DebugAdapter

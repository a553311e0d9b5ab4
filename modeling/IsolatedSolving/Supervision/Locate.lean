import IsolatedSolving.Failure.Error
import IsolatedSolving.Settings.File

/-! Finding the executable of a worker.

A path given in the settings comes first if there is anything at it. Then the worker is looked for
next to the running program, among the installed workers of the user, and in the directories of the
search path, where only executable files count. -/
namespace IsolatedSolving.Supervision

/-- What is at a place. -/
inductive Entry where
  | directory
  | file (executable : Bool)
deriving DecidableEq, Repr

/-- Files by their paths. A directory is there if it is named or if anything lies in it. -/
structure FileTree where
  directories : List String
  files : List (String × Bool)
deriving DecidableEq, Repr

/-- The parts of a path. -/
def components (path : String) : List String := path.splitOn "/"

namespace FileTree

/-- The parts of a path that name something. -/
def names (path : String) : List String := (components path).filter (· != "")

/-- What is at the place with these names. -/
def at? (t : FileTree) (place : List String) : Option Entry :=
  match t.files.find? fun (path, _) => names path == place with
  | some (_, executable) => some (.file executable)
  | none =>
    let below (path : String) := place.isPrefixOf (names path)
    if place.isEmpty || t.directories.any below || t.files.any (below ·.1) then some .directory
    else none

/-- What a path leads to from a place. Only directories have something below them. -/
def follow (t : FileTree) : List String → List String → Option Entry
  | place, [] => t.at? place
  | place, name :: rest =>
    match t.at? place with
    | some .directory =>
      if name = "" ∨ name = "." then t.follow place rest
      else if name = ".." then t.follow place.dropLast rest
      else t.follow (place ++ [name]) rest
    | _ => none

/-- What is at a path. -/
def entry? (t : FileTree) (path : String) : Option Entry := t.follow [] (components path)

/-- Whether there is anything at a path. -/
def has (t : FileTree) (path : String) : Bool := (t.entry? path).isSome

end FileTree

/-- The path to a name in a directory. A name that starts at the root stands for itself. -/
def join (directory name : String) : String :=
  if name.startsWith "/" || directory.isEmpty then name
  else if directory.endsWith "/" then directory ++ name
  else directory ++ "/" ++ name

/-- The places of a computer where workers may be. -/
structure Installation where
  /-- The directory of the running program. -/
  directory : String
  home : Home
  searchPath : List String
  files : FileTree

namespace Installation

/-- A directory, and those around it as long as they are named for dependencies. The parts of the
path come in reverse. -/
def outwards : List String → List (List String)
  | [] => []
  | "deps" :: rest => ("deps" :: rest) :: outwards rest
  | place => [place]

/-- The directories next to the running program. -/
def neighbours (i : Installation) : List String :=
  (outwards (components i.directory).reverse).map fun place => "/".intercalate place.reverse

/-- The first place on the search path with an executable file of this name. Names with several parts
are not searched for. -/
def onSearchPath? (i : Installation) (name : String) : Option String :=
  if name.contains '/' then none
  else
    (i.searchPath.map (join · name)).find? fun path =>
      i.files.entry? path == some (.file true)

/-- The executable of a worker. -/
def locate (i : Installation) (configured : Option String) (name : String) :
    Except SolverError String :=
  let near := (i.neighbours ++ [i.home.workerDirectory]).map (join · name)
  let found :=
    configured.filter i.files.has <|> near.find? i.files.has <|> i.onSearchPath? name
  match found with
  | some path => .ok path
  | none => .error (.notInstalled name)

end Installation

end IsolatedSolving.Supervision

import ExprLang.Entries
import ExprLang.Text.Search
/-!
# Files

What commands need of files: reading a text, listing a directory, and writing a text with the
directories on the way. `Files.Tree` holds files in memory under their paths; a directory exists
when a file is below it.
-/

namespace ExprLang.Shell

inductive FileError where
  | missing
  | isDirectory
  | notDirectory
  | alreadyExists
  | notText
  | other (text : String)
  deriving DecidableEq, Repr

def FileError.message : FileError → String
  | missing => "No such file or directory (os error 2)"
  | isDirectory => "Is a directory (os error 21)"
  | notDirectory => "Not a directory (os error 20)"
  | alreadyExists => "File exists (os error 17)"
  | notText => "stream did not contain valid UTF-8"
  | other text => text

namespace Files

/-- The names on a path from the root of a tree down. -/
abbrev Steps := List String

/-- The steps of a path. A point stays where it is, and two points go up. -/
def steps (path : String) : Steps :=
  ((Text.splitAt ['/'] path.toList).map String.ofList).foldl
    (fun taken name =>
      if name = "" || name = "." then taken
      else if name = ".." then taken.dropLast
      else taken ++ [name])
    []

/-- Whether a path can only mean a directory. -/
def namesDirectory (path : String) : Bool :=
  path.toList.getLast? = some '/'

/-- Files in memory. -/
structure Tree where
  files : List (Steps × String)

/-- What a path leads to. -/
inductive Found where
  | file (text : String)
  | directory (names : List String)
  | failure (error : FileError)

namespace Tree

def ofList (files : List (String × String)) : Tree :=
  ⟨files.map fun (path, text) => (steps path, text)⟩

/-- The names directly below some steps, in ascending order. -/
def below (tree : Tree) (place : Steps) : List String :=
  Entries.keys <| Entries.ofList <| tree.files.filterMap fun (path, _) =>
    if place.isPrefixOf path then (path[place.length]?).map fun name => (name, ()) else none

/-- Whether a file stands where a directory on the way is needed. -/
def isBlocked (tree : Tree) (path : Steps) : Bool :=
  tree.files.any fun (file, _) => file.isPrefixOf path && file != path

def find (tree : Tree) (path : String) : Found :=
  let place := steps path
  match tree.files.lookup place with
  | some text => if namesDirectory path then .failure .notDirectory else .file text
  | none =>
    let names := tree.below place
    if !names.isEmpty || place.isEmpty then .directory names
    else if tree.isBlocked place then .failure .notDirectory
    else .failure .missing

def read (tree : Tree) (path : String) : Except FileError String :=
  match tree.find path with
  | .file text => .ok text
  | .directory _ => .error .isDirectory
  | .failure error => .error error

/-- The names in a directory, in ascending order. -/
def list (tree : Tree) (path : String) : Option (List String) :=
  match tree.find path with
  | .directory names => some names
  | _ => none

/-- Whether all directories on a path exist or can be made. -/
def makeDirectories (tree : Tree) (path : String) : Except FileError Unit :=
  match tree.find path with
  | .file _ => .error .alreadyExists
  | .failure .notDirectory => .error .notDirectory
  | _ => .ok ()

/-- The tree with a text at a path. -/
def write (tree : Tree) (path text : String) : Except FileError Tree :=
  match tree.find path with
  | .directory _ => .error .isDirectory
  | .failure .notDirectory => .error .notDirectory
  | _ =>
    if namesDirectory path then .error .isDirectory
    else
      let place := steps path
      .ok ⟨(place, text) :: tree.files.filter fun file => file.1 ≠ place⟩

end Tree

end Files

end ExprLang.Shell

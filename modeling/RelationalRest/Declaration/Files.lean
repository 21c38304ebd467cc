import RelationalRest.Declaration.Reader
import RelationalRest.Text.Cut
import RelationalRest.Json.Reader

/-
  This file defines how declarations are loaded from files.
  A file holds one resource or a list of them.  A directory
  is loaded by its entries with the extension `json`, in the
  order of their names; directories in it are not entered.
  What cannot be loaded is named by its path as it was
  written.

  Key definitions include:
    * `FileTree`
    * `FileTree.locate?`
    * `FileTree.load`
-/

namespace RelationalRest

/- A path by its names, from the top directory. -/
abbrev FilePath :=
  List String

/- A file with its text, or a directory. -/
inductive FileNode where
| file (text : String)
| directory
deriving DecidableEq, Repr

/- The files and directories below a top directory. -/
structure FileTree where
  entries : List (FilePath × FileNode) := []

namespace FileTree

/-
  The path that a name leads to.  An empty name and a point
  stay in place, and two points lead one directory up.
-/
def step
    (place : FilePath)
    (name : String) : FilePath :=
  if name = "" ∨ name = "." then
    place
  else if name = ".." then
    place.dropLast
  else
    place ++ [name]

/- The path that a text writes. -/
def pathOf (s : String) : FilePath :=
  (Text.split '/' s).foldl step []

/- Put a file or a directory at a path. -/
def put
    (t : FileTree)
    (path : FilePath)
    (node : FileNode) : FileTree :=
  { entries :=
      t.entries.filter (fun entry => entry.1 ≠ path) ++
        [(path, node)] }

/- What stands at a path. -/
def find?
    (t : FileTree)
    (path : FilePath) : Option FileNode :=
  if path = [] then
    some .directory
  else
    t.entries.lookup path

/-
  The path that a written one leads to.  Every name in it must
  be looked up in a directory, also an empty one after the
  last slash; a path from the root of all leads to nothing.
-/
def locate?
    (t : FileTree)
    (written : String) : Option FilePath :=
  if written.toList.head? = some '/' then
    none
  else
    (Text.split '/' written).foldlM
      (fun place name =>
        if t.find? place = some .directory then
          some (step place name)
        else
          none)
      []

/- The names in a directory. -/
def names
    (t : FileTree)
    (directory : FilePath) : List String :=
  t.entries.filterMap fun (path, _) =>
    if path.dropLast = directory then path.getLast? else none

/-
  A name has the extension `json`: something stands before
  the last point of the name.
-/
def isJsonName (name : String) : Bool :=
  match "nosj.".toList.isPrefixOf? name.toList.reverse with
  | some stem => stem ≠ []
  | none => false

/- The resources that a file holds, if it can be read. -/
def fileAt?
    (t : FileTree)
    (place : FilePath) : Option (List Declaration) :=
  match t.find? place with
  | some (.file text) =>
      (Json.ofText? text).bind Declaration.fileOfJson?
  | _ => none

/- The names of the files that a directory is loaded by. -/
def jsonNames
    (t : FileTree)
    (directory : FilePath) : List String :=
  ((t.names directory).filter isJsonName).mergeSort
    fun a b => a ≤ b

/-
  The written path of a name in a directory, with one slash
  added where none ends the directory.
-/
def within (directory name : String) : String :=
  match directory.toList.getLast? with
  | none => name
  | some '/' => directory ++ name
  | some _ => directory ++ "/" ++ name

/- A value, or the written path that cannot be loaded. -/
def named
    {α : Type}
    (written : String) : Option α → Except String α
| some a => .ok a
| none => .error written

/-
  The resources at a written path, or the written path of what
  cannot be loaded.
-/
def load
    (t : FileTree)
    (written : String) : Except String (List Declaration) := do
  let place ← named written (t.locate? written)
  if t.find? place = some .directory then
    let lists ← (t.jsonNames place).mapM fun name =>
      named (within written name) (t.fileAt? (place ++ [name]))
    return lists.flatten
  else
    named written (t.fileAt? place)

end FileTree

end RelationalRest

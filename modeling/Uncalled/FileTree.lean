import Uncalled.Text.Utf8
/-! A tree of files below a working directory, and what the commands do with it: look up a path,
read and write a file, list a directory. Paths are taken as written, step by step, so `x/../y` asks
for a directory `x`. -/
namespace Uncalled
open Text (Bytes)

/-- The names on the way from the working directory. A way that leaves it upwards begins with as
many `".."`, one that starts at the root with `"/"`. -/
abbrev Route := List String

def Route.up (r : Route) : Route :=
  match r.getLast? with
  | none => [".."]
  | some last => if last = ".." then r ++ [".."] else if last = "/" then r else r.dropLast

structure FileTree where
  folders : List Route  -- directories beyond those that hold files
  files : List (Route × Bytes)  -- files with their contents, newest first
  deriving DecidableEq, Repr

inductive FileError
  | notFound
  | isDirectory
  | notDirectory
  | notText
  deriving DecidableEq, Repr

def FileError.message : FileError → String
  | .notFound => "No such file or directory (os error 2)"
  | .isDirectory => "Is a directory (os error 21)"
  | .notDirectory => "Not a directory (os error 20)"
  | .notText => "stream did not contain valid UTF-8"

def splitSlash : List Char → List (List Char)
  | [] => [[]]
  | c :: cs =>
    if c = '/' then [] :: splitSlash cs
    else
      match splitSlash cs with
      | [] => [[c]]
      | part :: parts => (c :: part) :: parts

def pathParts (path : String) : List String := (splitSlash path.toList).map String.ofList

def joinPath (dir name : String) : String :=
  if dir.isEmpty || dir.toList.getLast? = some '/' then dir ++ name else dir ++ "/" ++ name

def fileName? (path : String) : Option String :=
  match (pathParts path).reverse.filter fun part => part ≠ "" ∧ part ≠ "." with
  | [] => none
  | last :: _ => if last = ".." then none else some last

def isName (s : String) : Bool := s ≠ "" && s ≠ "." && s ≠ ".." && !s.toList.contains '/'

namespace FileTree

def empty : FileTree := ⟨[], []⟩

def file? (t : FileTree) (r : Route) : Option Bytes := t.files.lookup r

def isDirectory (t : FileTree) (r : Route) : Bool :=
  r.all (· = "..") || r = ["/"] || t.folders.any r.isPrefixOf ||
    t.files.any fun f => r.isPrefixOf f.1 && r.length < f.1.length

def step (t : FileTree) (here : Route) (part : String) : Except FileError Route :=
  if t.isDirectory here then
    if part = "" ∨ part = "." then .ok here
    else if part = ".." then .ok (Route.up here)
    else .ok (here ++ [part])
  else if (t.file? here).isSome then .error .notDirectory
  else .error .notFound

def route (t : FileTree) (path : String) : Except FileError Route :=
  if path.isEmpty then .error .notFound
  else (pathParts path).foldlM t.step (if path.toList.head? = some '/' then ["/"] else [])

def isDirectoryPath (t : FileTree) (path : String) : Bool :=
  match t.route path with
  | .ok r => t.isDirectory r
  | .error _ => false

def isFilePath (t : FileTree) (path : String) : Bool :=
  match t.route path with
  | .ok r => (t.file? r).isSome
  | .error _ => false

def read (t : FileTree) (path : String) : Except FileError Bytes := do
  let r ← t.route path
  match t.file? r with
  | some bytes => return bytes
  | none => if t.isDirectory r then throw .isDirectory else throw .notFound

def readText (t : FileTree) (path : String) : Except FileError String := do
  match Text.decode? (← t.read path) with
  | some s => return s
  | none => throw .notText

def put (t : FileTree) (r : Route) (bytes : Bytes) : FileTree :=
  ⟨t.folders, (r, bytes) :: t.files.filter fun f => f.1 ≠ r⟩

def write (t : FileTree) (path : String) (bytes : Bytes) : Except FileError FileTree := do
  let named := String.ofList (path.toList.reverse.dropWhile (· = '/')).reverse
  let r ← t.route (if named.isEmpty then path else named)
  if t.isDirectory r || named ≠ path then throw .isDirectory
  else return t.put r bytes

/-- The files directly in a directory, by name, as far as a path leads to them: what an older entry
says of a file does not count. -/
def filesIn (t : FileTree) (dir : Route) : List (String × Bytes) :=
  t.files.filterMap fun f =>
    match f.1.reverse with
    | name :: up =>
      if up.reverse = dir ∧ isName name ∧ t.file? f.1 = some f.2 then some (name, f.2) else none
    | [] => none

end FileTree
end Uncalled

import Conduit.Basic

/-! A tree of files with a current directory, and what the operating system says about paths in it. -/
namespace Conduit

inductive FileError where
  | notFound | notDirectory | isDirectory | notText
  deriving DecidableEq, Repr

def FileError.message : FileError → String
  | .notFound => "No such file or directory (os error 2)"
  | .notDirectory => "Not a directory (os error 20)"
  | .isDirectory => "Is a directory (os error 21)"
  | .notText => "stream did not contain valid UTF-8"

abbrev Route := List String

inductive FileNode where
  | file (content : Bytes)
  | directory
  deriving DecidableEq, Repr

/-- Files, and directories in their own right; every directory above one of them is there too. -/
structure FileTree where
  nodes : List (Route × FileNode) := []
  current : Route := []
  deriving DecidableEq, Repr

namespace FileTree

def splitSlash : List Char → List (List Char)
  | [] => [[]]
  | c :: rest =>
    if c = '/' then [] :: splitSlash rest
    else
      match splitSlash rest with
      | part :: parts => (c :: part) :: parts
      | [] => [[c]]

def parts (path : String) : List String :=
  ((splitSlash path.toList).map String.ofList).filter fun s => s ≠ "" && s ≠ "."

def endsInDirectory (path : String) : Bool :=
  match (splitSlash path.toList).getLast? with
  | some part => part = [] || part = ['.']
  | none => false

def isAbsolute (path : String) : Bool := path.toList.head? = some '/'

def join (dir path : String) : String :=
  if isAbsolute path || dir = "" then path
  else if dir.toList.getLast? = some '/' then dir ++ path
  else dir ++ "/" ++ path

private def settled (reversed : List (List Char)) : List (List Char) :=
  match reversed with
  | [] => []
  | [part] => [part]
  | part :: above => if part = [] || part = ['.'] then settled above else part :: above

def parent (path : String) : String :=
  match settled ((settled (splitSlash path.toList).reverse).drop 1) with
  | [] => ""
  | [[]] => "/"
  | above => "/".intercalate (above.reverse.map String.ofList)

def node? (t : FileTree) (route : Route) : Option FileNode :=
  match t.nodes.lookup route with
  | some n => some n
  | none =>
    if route.isPrefixOf t.current || t.nodes.any fun n => route.isPrefixOf n.1 then some .directory
    else none

def walk (t : FileTree) (here : Route) : List String → Except FileError Route
  | [] => .ok here
  | name :: rest =>
    match t.node? here with
    | none => .error .notFound
    | some (.file _) => .error .notDirectory
    | some .directory => walk t (if name = ".." then here.dropLast else here ++ [name]) rest

def start (t : FileTree) (path : String) : Route := if isAbsolute path then [] else t.current

def locate (t : FileTree) (path : String) : Except FileError Route :=
  if path = "" then .error .notFound
  else do
    let route ← t.walk (t.start path) (parts path)
    match endsInDirectory path, t.node? route with
    | true, some (.file _) => .error .notDirectory
    | _, _ => return route

def read (t : FileTree) (path : String) : Except FileError Bytes := do
  match t.node? (← t.locate path) with
  | some (.file content) => return content
  | some .directory => .error .isDirectory
  | none => .error .notFound

def readText (t : FileTree) (path : String) : Except FileError String := do
  match Text.ofUtf8? (← t.read path) with
  | some s => return s
  | none => .error .notText

def fileExists (t : FileTree) (path : String) : Bool :=
  match t.locate path with
  | .ok route => (t.node? route).isSome
  | .error _ => false

def list (t : FileTree) (path : String) : Except FileError (List String) := do
  let route ← t.locate path
  match t.node? route with
  | none => .error .notFound
  | some (.file _) => .error .notDirectory
  | some .directory =>
    let below := t.nodes.filterMap fun n =>
      if route.isPrefixOf n.1 then (n.1.drop route.length).head? else none
    return (Table.ofList (below.map fun name => (name, ()))).names

def putAt (t : FileTree) (route : Route) (node : FileNode) : FileTree :=
  { t with nodes := t.nodes.filter (·.1 ≠ route) ++ [(route, node)] }

def put (t : FileTree) (path : String) (node : FileNode) : FileTree :=
  t.putAt (t.start path ++ parts path) node

def write (t : FileTree) (path : String) (content : Bytes) : FileTree := t.put path (.file content)

def makeDirectory (t : FileTree) (path : String) : FileTree := t.put path .directory

def save (t : FileTree) (path : String) (content : Bytes) : Except FileError FileTree :=
  match (parts path).reverse with
  | [] => .error (if path = "" then .notFound else .isDirectory)
  | name :: above => do
    let dir ← t.walk (t.start path) above.reverse
    match t.node? dir with
    | none => .error .notFound
    | some (.file _) => .error .notDirectory
    | some .directory =>
      let route := dir ++ [name]
      let here := t.node? route
      if name = ".." || here = some .directory then .error .isDirectory
      else if !endsInDirectory path then return t.putAt route (.file content)
      else if path.toList.getLast? = some '/' then .error .isDirectory
      else .error (if here.isNone then .notFound else .notDirectory)

def nearest? (t : FileTree) (name : String) : Option Bytes :=
  let depth := t.current.length
  (List.range (depth + 1)).findSome? fun n =>
    match t.nodes.lookup (t.current.take (depth - n) ++ [name]) with
    | some (.file content) => some content
    | _ => none

def remove (t : FileTree) (path : String) : FileTree × Bool :=
  match t.locate path with
  | .ok route =>
    match t.nodes.lookup route with
    | some (.file _) =>
      ({ t with nodes := t.nodes.filter (·.1 ≠ route) ++ [(route.dropLast, .directory)] }, true)
    | _ => (t, false)
  | .error _ => (t, false)

def jsonStem? (name : String) : Option String :=
  let cs := name.toList
  let stem := cs.take (cs.length - 5)
  if cs.drop (cs.length - 5) = ".json".toList && !stem.isEmpty then some (String.ofList stem) else none

end FileTree

end Conduit

/-!
Trees of files, and what stands at a path in them. A path leads only through directories, and a
directory exists if something stands in it.
-/
namespace FleetControl

inductive FileState
  | absent
  | unreadable
  | text (content : String)
deriving DecidableEq, Repr

inductive FileTree.Node
  | directory
  | file (content : ByteArray)

structure FileTree where
  root : String
  nodes : List (List String × FileTree.Node)

namespace FileTree

def names (path : String) : List String :=
  let found := (path.splitOn "/").filter (· ≠ "")
  if path.endsWith "/" then found ++ ["."] else found

def enter? (place : List String) (name : String) : Option (List String) :=
  if name = "." then some place
  else if name = ".." then (if place = [] then none else some place.dropLast)
  else some (place ++ [name])

def directoriesAbove (place : List String) : List (List String × Node) :=
  (List.range place.length).map fun n => (place.take n, .directory)

def ofList (root : String) (given : List (String × Node)) : FileTree :=
  let given := given.map fun (path, node) => (names path, node)
  ⟨root, given ++ given.flatMap (fun n => directoriesAbove n.1) ++ [([], .directory)]⟩

def below? (t : FileTree) (path : String) : Option (List String) :=
  if path.startsWith "/" then
    if path.startsWith (t.root ++ "/") then some (names (path.drop t.root.length).toString) else none
  else some (names path)

def node? (t : FileTree) (place : List String) : Option Node :=
  (t.nodes.find? fun n => n.1 == place).map (·.2)

def isDirectory (t : FileTree) (place : List String) : Bool :=
  match t.node? place with
  | some .directory => true
  | _ => false

def isFile (t : FileTree) (place : List String) : Bool :=
  match t.node? place with
  | some (.file _) => true
  | _ => false

def follow (t : FileTree) (place : List String) : List String → Option (List String)
  | [] => some place
  | name :: rest =>
    if t.isDirectory place then
      match enter? place name with
      | some place => t.follow place rest
      | none => none
    else none

def state (t : FileTree) (path : String) : FileState :=
  match ((t.below? path).bind (t.follow [])).bind t.node? with
  | none => .absent
  | some .directory => .unreadable
  | some (.file content) => match String.fromUTF8? content with
    | some s => .text s
    | none => .unreadable

def obstacle? (t : FileTree) (path : String) : Option String :=
  let place := (t.below? path).getD []
  if (directoriesAbove place).any fun n => t.isFile n.1 then some "Not a directory (os error 20)"
  else if t.isDirectory place then some "Is a directory (os error 21)"
  else none

end FileTree
end FleetControl

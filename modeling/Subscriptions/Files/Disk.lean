import Subscriptions.Files.Basic
import Subscriptions.Path.Basic

namespace Subscriptions

/-- A file with its text, if it has one, or a directory. -/
inductive Entry
  | file (text : Option String)
  | directory (entries : List (String × Entry))
deriving Repr, Inhabited

namespace Entry

mutual

def listing : Entry → Listing
  | .file _ => .file
  | .directory entries => .directory (listings entries)

def listings : List (String × Entry) → List (String × Listing)
  | [] => []
  | (name, e) :: es => (name, e.listing) :: listings es

end

mutual

def depth : Entry → Nat
  | .file _ => 0
  | .directory entries => depths entries + 1

def depths : List (String × Entry) → Nat
  | [] => 0
  | (_, e) :: es => max e.depth (depths es)

end

def isDirectory : Entry → Bool
  | .directory _ => true
  | .file _ => false

end Entry

/-- A tree of files with the directory that paths start from and the directory of the user. -/
structure Disk where
  root : Entry
  current : List String
  home : Option String
deriving Repr, Inhabited

namespace Disk

/-- One part of a path further; the entries on the way are given from the last one on. -/
def follow (way : List Entry) (part : List Char) : Except ReadError (List Entry) :=
  match way with
  | .directory entries :: above =>
    if part.isEmpty || part == ['.'] then .ok way
    else if part == ['.', '.'] then .ok (if above.isEmpty then way else above)
    else
      match entries.lookup (String.ofList part) with
      | some e => .ok (e :: way)
      | none => .error .missing
  | _ => .error .notDirectory

def followAll (way : List Entry) (parts : List (List Char)) : Except ReadError (List Entry) :=
  parts.foldlM follow way

def find (disk : Disk) (path : String) : Except ReadError Entry := do
  if path.isEmpty then .error .missing
  else
    let start ← if Path.isAbsolute path then pure [disk.root]
      else followAll [disk.root] (disk.current.map String.toList)
    let way ← followAll start (Path.parts path.toList)
    return way.headD disk.root

def read (disk : Disk) (path : String) : Except ReadError String := do
  match ← disk.find path with
  | .file (some text) => return text
  | .file none => .error .notText
  | .directory _ => .error .isDirectory

def entries? (disk : Disk) (path : String) : Option (List (String × Entry)) :=
  match disk.find path with
  | .ok (.directory entries) => some entries
  | _ => none

def files (disk : Disk) : FileSystem Id where
  read path := disk.read path
  present path := (disk.find path).toOption.isSome
  isDirectory path := (disk.entries? path).isSome
  names path := ((disk.entries? path).getD []).map (·.1)
  below? path := (disk.entries? path).map Entry.listings
  home? := disk.home
  depth := disk.root.depth

end Disk

end Subscriptions

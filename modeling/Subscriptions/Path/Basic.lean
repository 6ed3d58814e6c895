namespace Subscriptions.Path

def parts : List Char → List (List Char)
  | [] => [[]]
  | c :: cs =>
    if c == '/' then [] :: parts cs
    else
      match parts cs with
      | [] => [[c]]
      | p :: ps => (c :: p) :: ps

/-- What a path is made of. -/
inductive Component
  | root
  | current
  | parent
  | name (s : String)
deriving Repr, DecidableEq, Inhabited

/-- A part that is not empty and does not stand for the directory it is in. -/
def componentOf? (part : List Char) : Option Component :=
  if part.isEmpty || part == ['.'] then none
  else if part == ['.', '.'] then some .parent
  else some (.name (String.ofList part))

/-- The components of a path. A full stop counts in front only, and further slashes do not. -/
def components (path : String) : List Component :=
  match parts path.toList with
  | [] :: p :: ps => .root :: (p :: ps).filterMap componentOf?
  | ['.'] :: ps => .current :: ps.filterMap componentOf?
  | ps => ps.filterMap componentOf?

def isAbsolute (path : String) : Bool := path.toList.head? == some '/'

/-- A path below another one. An absolute path stands for itself. -/
def join (base path : String) : String :=
  if isAbsolute path || base.isEmpty then path
  else if base.toList.getLast? == some '/' then base ++ path
  else base ++ "/" ++ path

def Component.text : Component → String
  | .root => "/"
  | .current => "."
  | .parent => ".."
  | .name s => s

def ofComponents (cs : List Component) : String := cs.foldl (fun path c => join path c.text) ""

def directory (path : String) : String :=
  match components path with
  | [] | [.root] => "."
  | cs => ofComponents cs.dropLast

def fileName? (path : String) : Option String :=
  match (components path).getLast? with
  | some (.name s) => some s
  | _ => none

/-- What follows the last full stop of the name. A full stop in front starts no extension. -/
def extension (path : String) : String :=
  let name := ((fileName? path).getD "").toList
  let tail := (name.reverse.takeWhile (· != '.')).reverse
  if tail.length + 1 < name.length then String.ofList tail else ""

namespace Component

def rank : Component → Nat
  | .root => 0
  | .current => 1
  | .parent => 2
  | .name _ => 3

/-- Components come by kind, and names by their characters. -/
def before : Component → Component → Bool
  | .name s, .name t => s < t
  | a, b => a.rank < b.rank

end Component

def upTo : List Component → List Component → Bool
  | [], _ => true
  | _ :: _, [] => false
  | a :: as, b :: bs => a.before b || (a == b && upTo as bs)

def same (p q : String) : Bool := components p == components q

def inOrder (p q : String) : Bool := upTo (components p) (components q)

/-- Of paths that follow each other and are the same the first one stays. -/
def withoutRepeats : List String → List String
  | [] => []
  | p :: ps =>
    match withoutRepeats ps with
    | [] => [p]
    | q :: qs => if same p q then p :: qs else p :: q :: qs

def sorted (paths : List String) : List String := withoutRepeats (paths.mergeSort inOrder)

end Subscriptions.Path

import Subscriptions.Files.Basic
import Subscriptions.Glob.Filter
import Subscriptions.Path.Basic

namespace Subscriptions

namespace FileFilter

mutual

def pick (filter : FileFilter) (path : String) : Listing → List String
  | .file => if filter.accepts path then [path] else []
  | .directory entries => if filter.isExcluded path then [] else filter.pickBelow path entries
  | .other => []

def pickBelow (filter : FileFilter) (path : String) : List (String × Listing) → List String
  | [] => []
  | (name, l) :: ls => filter.pick (Path.join path name) l ++ filter.pickBelow path ls

end

/-- The files that an input stands for: those found below a directory, or the file itself unless
it is excluded. -/
def filesOf (filter : FileFilter) (input : String × Option (List (String × Listing))) :
    List String :=
  match input.2 with
  | some entries => filter.pickBelow input.1 entries
  | none => if filter.isExcluded input.1 then [] else [input.1]

def collect (filter : FileFilter) (inputs : List (String × Option (List (String × Listing)))) :
    List String :=
  Path.sorted (inputs.flatMap filter.filesOf)

end FileFilter

def collectFiles {m : Type → Type} [Monad m] (files : FileSystem m) (filter : FileFilter)
    (paths : List String) : m (List String) := do
  let inputs ← paths.mapM fun path => return (path, ← files.below? path)
  return filter.collect inputs

end Subscriptions

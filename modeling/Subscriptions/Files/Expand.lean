import Subscriptions.Files.Basic
import Subscriptions.Path.Wildcard

namespace Subscriptions

open Subscriptions.Path

/-- Where a pattern is looked for: the directory that relative patterns start in has no name. -/
def underBase (base name : String) : String := if base == "." then name else join base name

/-- The patterns after the stars in front, of which several say no more than one. -/
def afterRecursive : List (List Wildcard) → List (List Wildcard)
  | [] => []
  | w :: ws => if Wildcard.isRecursive w then afterRecursive ws else w :: ws

section
variable {m : Type → Type} [Monad m] (files : FileSystem m)

mutual

/-- The paths under a base that match the components of a pattern. -/
def expandUnder : Nat → List (List Wildcard) → String → m (List String)
  | 0, _, _ => return []
  | _, [], _ => return []
  | fuel + 1, w :: ws, base => do
    match Wildcard.plainText? w with
    | some name =>
      let path := underBase base name
      let there ← if name == "." || name == ".." then files.isDirectory base else files.present path
      if there then expandPast fuel ws path else return []
    | none =>
      if !(← files.isDirectory base) then return []
      let special := if w.head? == some (.char '.') then
          ["..", "."].filter fun name => Wildcard.matchAll w name.toList
        else []
      let fromSpecial ← special.mapM fun name => expandPast fuel ws (join base name)
      let names := (← files.names base).mergeSort fun a b => a ≤ b
      let fromNames ← names.mapM fun name => expandAt fuel (w :: ws) (underBase base name)
      return fromSpecial.flatten ++ fromNames.flatten

/-- The path itself if no component is left, or the paths under it. -/
def expandPast : Nat → List (List Wildcard) → String → m (List String)
  | _, [], path => return [path]
  | 0, _, _ => return []
  | fuel + 1, ws, path => expandUnder fuel ws path

/-- The paths at or under one whose name has still to match the first component. -/
def expandAt : Nat → List (List Wildcard) → String → m (List String)
  | 0, _, _ => return []
  | _, [], _ => return []
  | fuel + 1, w :: ws, path => do
    if Wildcard.isRecursive w then
      let rest := afterRecursive ws
      let inside ← if ← files.isDirectory path then expandUnder fuel (w :: rest) path else pure []
      if rest.isEmpty then
        return if ← files.isDirectory path then path :: inside else []
      else return (← expandAt fuel rest path) ++ inside
    else if Wildcard.matchAll w ((fileName? path).getD "").toList then expandPast fuel ws path
    else return []

end

/-- The paths that match a pattern. One that ends in a slash matches directories only. -/
def expand (text : String) : m (Except Wildcard.Fault (List String)) := do
  match Wildcard.components text with
  | .error fault => return .error fault
  | .ok ws =>
    let base := if isAbsolute text then "/" else "."
    let paths ← expandUnder files (4 * (files.depth + ws.length + 1)) ws base
    if text.toList.getLast? == some '/' then return .ok (← paths.filterM files.isDirectory)
    else return .ok paths

end

end Subscriptions

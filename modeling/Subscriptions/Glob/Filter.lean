import Subscriptions.Glob.Match

namespace Subscriptions

namespace Glob

def Token.isLiteral : Token → Bool
  | .literal _ => true
  | _ => false

def Token.isChar (c : Char) : Token → Bool
  | .literal d => c == d
  | _ => false

def Token.afterLeading : List Token → List Token
  | .leading :: ts => ts
  | ts => ts

/-- Tokens that settle a match by the end of the path: a wildcard or nothing, and literals. -/
def Token.settleByEnd : List Token → Bool
  | .anything :: ts => ts.all isLiteral
  | ts => ts.all isLiteral

/-- The glob ends in a full stop and is looked up by the name of the file. A path that ends in a
full stop has no such name. Looked up by the name are literals after two leading stars, a full
stop after a wildcard, and all that the end of the path does not settle. -/
def wantsName (g : Glob) : Bool :=
  let rest := Token.afterLeading g.tokens
  (g.tokens.getLast?.any (·.isChar '.')) &&
    (match rest with
    | [.anything, _] => true
    | ts =>
      if ts.length < g.tokens.length && ts.all Token.isLiteral then !ts.any (·.isChar '/')
      else !Token.settleByEnd ts)

def picks (g : Glob) (path : String) : Bool := g.matchesPath path && !g.wantsName

end Glob

/-- Which files are looked at. -/
structure FileFilter where
  included : List Glob
  excluded : List Glob
deriving Repr, Inhabited

namespace FileFilter

/-- Reads the globs, or gives the first one that cannot be read. -/
def ofTexts (included excluded : List String) : Except Glob.Error FileFilter := do
  return ⟨← Glob.ofTexts included, ← Glob.ofTexts excluded⟩

def isExcluded (f : FileFilter) (path : String) : Bool := f.excluded.any (·.picks path)

def accepts (f : FileFilter) (path : String) : Bool :=
  f.included.any (·.picks path) && !f.isExcluded path

end FileFilter

/-- What reads the globs of the files that are looked at, and of those that are not. -/
abbrev GlobReader := List String → List String → Except Glob.Error FileFilter

end Subscriptions

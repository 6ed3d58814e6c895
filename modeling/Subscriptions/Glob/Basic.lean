namespace Subscriptions

namespace Glob

/-- A part of a glob. Wildcards cross slashes unless they say otherwise. -/
inductive Token
  | literal (c : Char)
  /-- One byte. -/
  | any
  | anything
  /-- In front: nothing, or directories with the slash after them. -/
  | leading
  /-- At the end: a slash and what is below it. -/
  | under
  /-- A slash, or directories between two slashes. -/
  | between
  | oneOf (negated : Bool) (ranges : List (Char × Char))
  | choice (branches : List (List Token))
deriving Repr, Inhabited

/-- What is wrong with a glob. -/
inductive Fault
  | unclosedClass
  | invalidRange (first last : Char)
  | unopenedChoice
  | unclosedChoice
  | danglingEscape
deriving Repr, DecidableEq, Inhabited

def Fault.text : Fault → String
  | .unclosedClass => "unclosed character class; missing ']'"
  | .invalidRange first last =>
    "invalid range; '" ++ first.toString ++ "' > '" ++ last.toString ++ "'"
  | .unopenedChoice =>
    "unopened alternate group; missing '\x7b' (maybe escape '\x7d' with '[\x7d]'?)"
  | .unclosedChoice =>
    "unclosed alternate group; missing '\x7d' (maybe escape '\x7b' with '[\x7b]'?)"
  | .danglingEscape => "dangling '\\'"

/-- A glob that cannot be read, and why. -/
structure Error where
  glob : String
  fault : Fault
deriving Repr, DecidableEq, Inhabited

def Error.message (e : Error) : String :=
  "error parsing glob '" ++ e.glob ++ "': " ++ e.fault.text

end Glob

/-- A pattern for whole paths. -/
structure Glob where
  text : String
  tokens : List Glob.Token
deriving Repr, Inhabited

end Subscriptions

import Subscriptions.Yaml.Basic
import Subscriptions.Yaml.Scalar

namespace Subscriptions.Yaml

/-- What separates two nodes: blanks, comments and line ends. -/
structure Gap where
  lineEnded : Bool
  /-- The column of the next character, if a line has ended or the first column was given. -/
  column : Nat
  rest : List Char
deriving Repr, DecidableEq, Inhabited

/-- Where a gap stands. -/
inductive GapPlace
  /-- Between nodes, where tabs separate or not. -/
  | between (tabs : Bool)
  | comment
deriving Repr, DecidableEq, Inhabited

/-- The gap in front. In block collections no tab starts a line. -/
def gap (flow : Bool) : GapPlace → Bool → Nat → List Char → Gap
  | _, ended, column, [] => ⟨ended, column, []⟩
  | .comment, ended, column, c :: cs =>
    if c == '\n' then gap flow (.between flow) true 0 cs
    else gap flow .comment ended (column + 1) cs
  | .between tabs, ended, column, c :: cs =>
    if c == '\n' then gap flow (.between flow) true 0 cs
    else if c == '#' then gap flow .comment ended (column + 1) cs
    else if c == ' ' || (c == '\t' && tabs) then gap flow (.between tabs) ended (column + 1) cs
    else ⟨ended, column, c :: cs⟩

def flowGap (cs : List Char) : List Char := (gap true (.between true) false 0 cs).rest

def name? : Yaml → Option String
  | .scalar text _ => some text
  | _ => none

mutual

def flowNode? : Nat → List Char → Option (Yaml × List Char)
  | 0, _ => none
  | fuel + 1, cs =>
    match cs with
    | '[' :: rest => (flowItems? fuel rest).map fun r => (.list r.1, r.2)
    | '{' :: rest => (flowEntries? fuel rest).map fun r => (.map r.1, r.2)
    | cs =>
      if startsQuoted cs then (quoted? cs).map fun r => (.scalar r.1 false, r.2)
      else if startsPlain true cs then (plain? true 0 cs).map fun r => (.scalar r.1 true, r.2)
      else none

def flowValue? : Nat → List Char → Option (Yaml × List Char)
  | 0, _ => none
  | fuel + 1, cs =>
    match flowGap cs with
    | ',' :: rest => some (.empty, ',' :: rest)
    | ']' :: rest => some (.empty, ']' :: rest)
    | '}' :: rest => some (.empty, '}' :: rest)
    | rest => flowNode? fuel rest

/-- A node and what follows its colon, if there is one on the same line. -/
def flowEntry? : Nat → List Char → Option (Yaml × Option Yaml × List Char)
  | 0, _ => none
  | fuel + 1, cs => do
    let (node, rest) ← flowNode? fuel cs
    match flowGap rest with
    | ':' :: after =>
      if sameLine cs (':' :: after) then
        let (value, rest) ← flowValue? fuel after
        return (node, some value, flowGap rest)
      else none
    | rest => return (node, none, rest)

/-- The items of a flow list up to its closing bracket. An entry makes a map of its own. -/
def flowItems? : Nat → List Char → Option (List Yaml × List Char)
  | 0, _ => none
  | fuel + 1, cs =>
    match flowGap cs with
    | ']' :: rest => some ([], rest)
    | cs => do
      let (node, value, rest) ← flowEntry? fuel cs
      let item ← match value with
        | some value => (name? node).map fun name => .map [(name, value)]
        | none => some node
      match rest with
      | ',' :: rest => (flowItems? fuel rest).map fun r => (item :: r.1, r.2)
      | ']' :: rest => some ([item], rest)
      | _ => none

def flowEntries? : Nat → List Char → Option (List (String × Yaml) × List Char)
  | 0, _ => none
  | fuel + 1, cs =>
    match flowGap cs with
    | '}' :: rest => some ([], rest)
    | cs => do
      let (node, value, rest) ← flowEntry? fuel cs
      let entry := (← name? node, value.getD .empty)
      match rest with
      | ',' :: rest => (flowEntries? fuel rest).map fun r => (entry :: r.1, r.2)
      | '}' :: rest => some ([entry], rest)
      | _ => none

end

end Subscriptions.Yaml

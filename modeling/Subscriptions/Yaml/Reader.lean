import Subscriptions.Yaml.Flow

namespace Subscriptions.Yaml

def key? (cs : List Char) : Option (String × List Char) := do
  let (name, rest) ←
    if startsQuoted cs then (quoted? cs).filter fun r => sameLine cs r.2
    else if startsPlain false cs then
      let r := plainLine false false cs
      some (String.ofList r.1, r.2)
    else none
  match rest.dropWhile isGapChar with
  | ':' :: after => if blankNext after then some (name, after) else none
  | _ => none

def startsItem : List Char → Bool
  | '-' :: cs => blankNext cs
  | _ => false

def blockGap (tabs : Bool) (column : Nat) (cs : List Char) : Gap :=
  gap false (.between tabs) false column cs

/-- A scalar or a flow collection outside flow collections. -/
def inline? (fuel least : Nat) (cs : List Char) : Option (Yaml × List Char) :=
  if startsQuoted cs then (quoted? cs).map fun r => (.scalar r.1 false, r.2)
  else if startsPlain false cs then (plain? false least cs).map fun r => (.scalar r.1 true, r.2)
  else flowNode? fuel cs

mutual

/-- A node that starts at a column. Its lines are indented to the least column at least. Behind
a name on the same line no block collection starts. -/
def node? : Nat → Nat → Bool → Nat → List Char → Option (Yaml × List Char)
  | 0, _, _, _, _ => none
  | fuel + 1, least, blocks, column, cs =>
    if startsItem cs then
      if blocks then (dashes? fuel column cs).map fun r => (.list r.1, r.2) else none
    else if (key? cs).isSome then
      if blocks then (pairs? fuel column cs).map fun r => (.map r.1, r.2) else none
    else inline? fuel least cs

/-- What follows the name of an entry in a map at a column. A list may start in the column of
the name. -/
def valueAfter? : Nat → Nat → List Char → Option (Yaml × List Char)
  | 0, _, _ => none
  | fuel + 1, column, cs =>
    let g := blockGap true 0 cs
    if g.rest.isEmpty then some (.empty, cs)
    else if !g.lineEnded then node? fuel (column + 1) false 0 g.rest
    else if column < g.column then node? fuel (column + 1) true g.column g.rest
    else if g.column == column && startsItem g.rest then
      (dashes? fuel column g.rest).map fun r => (.list r.1, r.2)
    else some (.empty, cs)

/-- The entries of a map at a column, one at least. -/
def pairs? : Nat → Nat → List Char → Option (List (String × Yaml) × List Char)
  | 0, _, _ => none
  | fuel + 1, column, cs => do
    let (name, after) ← key? cs
    let (value, rest) ← valueAfter? fuel column after
    let g := blockGap true 0 rest
    if g.rest.isEmpty then return ([(name, value)], rest)
    else if !g.lineEnded then none
    else if g.column == column then
      (pairs? fuel column g.rest).map fun r => ((name, value) :: r.1, r.2)
    else return ([(name, value)], rest)

def dash? : Nat → Nat → List Char → Option (Yaml × List Char)
  | 0, _, _ => none
  | fuel + 1, column, cs =>
    let g := blockGap false (column + 1) cs
    if g.rest.isEmpty then some (.empty, cs)
    else if !g.lineEnded || column < g.column then node? fuel (column + 1) true g.column g.rest
    else some (.empty, cs)

def dashes? : Nat → Nat → List Char → Option (List Yaml × List Char)
  | 0, _, _ => none
  | fuel + 1, column, cs => do
    let (item, rest) ← dash? fuel column (cs.drop 1)
    let g := blockGap true 0 rest
    if g.rest.isEmpty then return ([item], rest)
    else if !g.lineEnded then none
    else if g.column == column && startsItem g.rest then
      (dashes? fuel column g.rest).map fun r => (item :: r.1, r.2)
    else return ([item], rest)

end

def isAllowed (c : Char) : Bool :=
  let n := c.toNat
  n == 0x09 || n == 0x0A || n == 0x0D || (0x20 ≤ n && n ≤ 0x7E) || n == 0x85 ||
    (0xA0 ≤ n && n ≤ 0xFFFD) || 0x10000 ≤ n

def withLineFeeds : List Char → List Char
  | [] => []
  | '\r' :: '\n' :: cs => '\n' :: withLineFeeds cs
  | c :: cs => (if c == '\r' || c == '\u0085' then '\n' else c) :: withLineFeeds cs

/-- The text without a byte order mark in front. -/
def withoutMark : List Char → List Char
  | '\ufeff' :: cs => cs
  | cs => cs

/-- The text behind a line that starts a document, and whether it stands on that line. -/
def afterStart (g : Gap) : Gap :=
  match g.rest with
  | '-' :: '-' :: '-' :: cs =>
    if g.column == 0 && blankNext cs then blockGap true 3 cs else { g with lineEnded := true }
  | _ => { g with lineEnded := true }

/-- The text ends here, perhaps with the line that ends a document. -/
def endsHere (cs : List Char) : Bool :=
  let g := blockGap true 0 cs
  match g.rest with
  | [] => true
  | '.' :: '.' :: '.' :: rest =>
    g.lineEnded && g.column == 0 && blankNext rest && (blockGap true 0 rest).rest.isEmpty
  | _ => false

/-- Each character starts a few nodes, entries and items at most. -/
def fuelFor (cs : List Char) : Nat := 4 * cs.length + 8

def ofText? (text : String) : Option Yaml :=
  if !text.toList.all isAllowed then none
  else
    let cs := withLineFeeds (withoutMark text.toList)
    let start := afterStart (blockGap false 0 cs)
    if start.rest.isEmpty then some .empty
    else
      match node? (fuelFor cs) 0 start.lineEnded start.column start.rest with
      | some (node, rest) => if endsHere rest then some node else none
      | none => none

end Subscriptions.Yaml

import Subscriptions.Document
import Subscriptions.Text.Digits

namespace Subscriptions

/-- A node of a YAML text. Unquoted scalars are plain: what they stand for is for their reader to
say. -/
inductive Yaml
  | scalar (text : String) (plain : Bool)
  | list (items : List Yaml)
  | map (entries : List (String × Yaml))
deriving Repr, Inhabited

namespace Yaml

/-- The node where nothing is written. -/
def empty : Yaml := .scalar "" true

def truths : List String := ["true", "True", "TRUE"]

def falsehoods : List String := ["false", "False", "FALSE"]

def nulls : List String := ["", "null", "Null", "NULL", "~"]

def flag? : Yaml → Option Bool
  | .scalar text true =>
    if truths.contains text then some true
    else if falsehoods.contains text then some false
    else none
  | _ => none

/-- A count may have a plus in front and be written in radix 16, 8 or 2. In radix 10 it has no
leading zeros. -/
def countOf? (cs : List Char) : Option Nat :=
  match cs with
  | '+' :: rest => magnitude? rest
  | rest => magnitude? rest
where
  magnitude? : List Char → Option Nat
    | '0' :: 'x' :: cs => Text.number? 16 cs
    | '0' :: 'o' :: cs => Text.number? 8 cs
    | '0' :: 'b' :: cs => Text.number? 2 cs
    | '0' :: _ :: _ => none
    | cs => Text.number? 10 cs

def count? : Yaml → Option Nat
  | .scalar text true => (countOf? text.toList).filter (· < countLimit)
  | _ => none

def items? : Yaml → Option (List Yaml)
  | .list items => some items
  | .scalar "" true => some []
  | _ => none

def entries? : Yaml → Option (List (String × Yaml))
  | .map entries => some entries
  | .scalar "" true => some []
  | _ => none

instance : Document Yaml where
  text? node := match node with | .scalar text _ => some text | _ => none
  flag? := flag?
  count? := count?
  word? node := match node with | .scalar text _ => some text | _ => none
  isAbsent node := match node with | .scalar text plain => plain && nulls.contains text | _ => false
  items? := items?
  entries? := entries?
  fields? names node := (entries? node).bind (Document.knownFields? names)

end Yaml

end Subscriptions

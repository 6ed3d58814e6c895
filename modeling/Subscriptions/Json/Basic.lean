import Subscriptions.Document
import Subscriptions.Text.Digits

namespace Subscriptions

/-- A value of a JSON text. Numbers keep the text that they are written in. -/
inductive Json
  | null
  | bool (b : Bool)
  | number (text : String)
  | string (s : String)
  | array (items : List Json)
  | object (fields : List (String × Json))
  /-- A value with an escape for half a character: it can be passed over and nothing else. -/
  | unreadable
deriving Repr, Inhabited

namespace Json

def natural (n : Nat) : Json := .number (toString n)

/-- A value with a text in it, or no value. -/
def ofOption (s : Option String) : Json :=
  match s with
  | some s => .string s
  | none => .null

end Json

end Subscriptions

namespace Subscriptions.Json

/-- A count is written without sign, fraction and exponent. -/
def count? : Json → Option Nat
  | .number text => (Text.number? 10 text.toList).filter (· < countLimit)
  | _ => none

/-- A choice is a string, or an object with that string as its one name and no value. -/
def word? : Json → Option String
  | .string s => some s
  | .object [(s, .null)] => some s
  | _ => none

def record? (names : List String) : Json → Option (Fields Json)
  | .object entries => Document.knownFields? names entries
  | .array items => Document.placedFields? names items
  | _ => none

instance : Document Json where
  text? v := match v with | .string s => some s | _ => none
  flag? v := match v with | .bool b => some b | _ => none
  count? := count?
  word? := word?
  isAbsent v := match v with | .null => true | _ => false
  items? v := match v with | .array items => some items | _ => none
  entries? v := match v with | .object entries => some entries | _ => none
  fields? := record?

end Subscriptions.Json

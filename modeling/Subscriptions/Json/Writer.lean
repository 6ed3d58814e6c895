import Subscriptions.Json.Basic

namespace Subscriptions.Json

def hexChar (n : Nat) : Char := Nat.digitChar n

/-- A character inside a string: quotes, backslashes and controls are escaped. -/
def stringChar (c : Char) : String :=
  if c == '"' then "\\\""
  else if c == '\\' then "\\\\"
  else if c == '\n' then "\\n"
  else if c == '\r' then "\\r"
  else if c == '\t' then "\\t"
  else if c == '\x08' then "\\b"
  else if c == '\x0c' then "\\f"
  else if c.toNat < 0x20 then
    "\\u00" ++ String.ofList [hexChar (c.toNat / 16), hexChar (c.toNat % 16)]
  else c.toString

def writeString (s : String) : String := "\"" ++ String.join (s.toList.map stringChar) ++ "\""

/-- A value of one word. An unreadable value is written as none. -/
def writeScalar : Json → String
  | .bool true => "true"
  | .bool false => "false"
  | .number text => text
  | .string s => writeString s
  | _ => "null"

mutual

/-- A value without blanks. -/
def compact : Json → String
  | .array items => "[" ++ ",".intercalate (compactItems items) ++ "]"
  | .object fields => "\x7b" ++ ",".intercalate (compactFields fields) ++ "\x7d"
  | value => writeScalar value

def compactItems : List Json → List String
  | [] => []
  | v :: vs => compact v :: compactItems vs

def compactFields : List (String × Json) → List String
  | [] => []
  | (name, v) :: fs => (writeString name ++ ":" ++ compact v) :: compactFields fs

end

def lineAt (depth : Nat) : String := "\n" ++ String.ofList (List.replicate (2 * depth) ' ')

/-- Parts on lines of their own, one level deeper than their brackets. -/
def writeBlock (opening closing : String) (depth : Nat) (parts : List String) : String :=
  if parts.isEmpty then opening ++ closing
  else
    opening ++ ",".intercalate (parts.map (lineAt (depth + 1) ++ ·)) ++ lineAt depth ++ closing

mutual

/-- A value on lines indented by two blanks for each level. -/
def pretty (depth : Nat) : Json → String
  | .array items => writeBlock "[" "]" depth (prettyItems (depth + 1) items)
  | .object fields => writeBlock "\x7b" "\x7d" depth (prettyFields (depth + 1) fields)
  | value => writeScalar value

def prettyItems (depth : Nat) : List Json → List String
  | [] => []
  | v :: vs => pretty depth v :: prettyItems depth vs

def prettyFields (depth : Nat) : List (String × Json) → List String
  | [] => []
  | (name, v) :: fs => (writeString name ++ ": " ++ pretty depth v) :: prettyFields depth fs

end

end Subscriptions.Json

import Subscriptions.Grammar.Parse

namespace Subscriptions.Grammar

def memberModifiers : List String := [
  "public", "private", "protected", "readonly", "static", "abstract", "override", "declare",
  "async", "accessor"]

def fieldModifiers : List String := ["public", "private", "protected", "readonly", "override"]

def startsMemberName (t : Token) : Bool :=
  t.isWord || t.kind == .string || t.kind == .number || t.isPunctOf ["[", "*", "\x7b"]

/-- The number of words in front that are field modifiers, each before a name or a pattern. -/
def fieldModifierCount : List Token → Nat
  | t :: u :: ts =>
    if t.isWord && fieldModifiers.contains t.text && (u.isWord || u.isPunctOf ["\x7b", "["]) then
      fieldModifierCount (u :: ts) + 1
    else 0
  | _ => 0

/-- The number of words in front that are member modifiers, each before a name in the same
line. -/
def memberModifierCount : List Token → Nat
  | t :: u :: ts =>
    if t.isWord && memberModifiers.contains t.text && startsMemberName u && !u.newlineBefore then
      memberModifierCount (u :: ts) + 1
    else 0
  | _ => 0

/-- The text without quotes at its ends. -/
def unquoted (text : String) : String :=
  String.ofList (Text.strip (fun c => c == '"' || c == '\'') text.toList)

/-- A word, string or number, or a computed name in brackets. -/
def memberName : Parse (Option Name) := do
  let s ← look
  let t := s.current
  if t.isWord || t.kind == .string || t.kind == .number then
    advance
    return some ⟨unquoted t.text, t.span⟩
  else if s.isAt "[" then
    let start ← here
    let tokens ← skip (balanced 0)
    let stop := (← look).readTo
    return some ⟨textOfTokens tokens, ⟨start, max stop start⟩⟩
  else
    report .memberName
    return none

section
variable (go : Recur)

def decorators : Parse (List Node) := gather do
  if (← look).isAt "@" then
    let start ← here
    advance
    let expression ← go .access
    return ([← build .decorator start [expression]], true)
  else return ([], false)

/-- The assigned value after `=`, if there is one. -/
def initializer : Parse (List Node) := do
  if ← accept "=" then return [← go .assignment]
  else return []

def parameterName : Parse (Option Name) := do
  let s ← look
  if s.current.isWord then return some (← takeName)
  else if s.isAt "\x7b" || s.isAt "[" then
    skipBalanced
    return none
  else
    report .parameterName
    if !s.isAt ")" then advance
    return none

def parameter : Parse Node := do
  let start ← here
  let decorations ← decorators go
  let modifiers := fieldModifierCount (← look).rest
  advanceBy modifiers
  optional "..."
  let name ← parameterName
  optional "?"
  let declared ← annotation [",", ")", "="]
  let value ← initializer go
  let kind := if modifiers == 0 then Kind.parameter else Kind.parameterProperty
  buildNamed kind start name declared (decorations ++ value)

def parameters : Parse (List Node) := do
  if ← accept "(" then
    let nodes ← gather do
      let s ← look
      if s.isAt ")" || s.atEnd then return ([], false)
      else
        let node ← parameter go
        return ([node], ← accept ",")
    expect ")"
    return nodes
  else
    report (.token "(")
    return []

/-- Statements up to a closing brace. A statement that reads nothing is reported, and a token is
passed over. -/
def statementsToBrace : Parse (List Node) := gather do
  let s ← look
  if s.isAt "\x7d" || s.atEnd then return ([], false)
  else
    let (node, progress) ← moved (go .statement)
    if !progress then
      report .statement
      advance
    return ([node], true)

def block : Parse Node := do
  let start ← here
  expect "\x7b"
  let statements ← statementsToBrace go
  expect "\x7d"
  build .block start statements

def bodyOrSemicolon : Parse (List Node) := do
  if (← look).isAt "\x7b" then return [← block go]
  else
    optional ";"
    return []

def function (kind : Kind) : Parse Node := do
  let start ← here
  advance
  optional "*"
  let name ← takeNameIfWord
  skipAngles
  let params ← parameters go
  let returned ← annotation ["\x7b", ";"]
  let body ← bodyOrSemicolon go
  buildNamed kind start name returned (params ++ body)

def accessorKind : Parse Kind := do
  let s ← look
  if (s.isAtWord "get" || s.isAtWord "set") && startsMemberName (s.ahead 1) then
    advance
    return if s.isAtWord "get" then .getAccessor else .methodDeclaration
  else return .methodDeclaration

def constructorMember (start : Nat) : Parse Node := do
  advance
  let params ← parameters go
  let body ← bodyOrSemicolon go
  build .constructor start (params ++ body)

def methodMember (kind : Kind) (start : Nat) (name : Option Name) : Parse Node := do
  skipAngles
  let params ← parameters go
  let returned ← annotation ["\x7b", ";", "\x7d"]
  let body ← bodyOrSemicolon go
  buildNamed kind start name returned (params ++ body)

def propertyMember (start : Nat) (name : Option Name) : Parse Node := do
  let declared ← annotation ["=", ";", "\x7d"]
  let value ← initializer go
  optional ";"
  buildNamed .propertyDeclaration start name declared value

def undecoratedMember : Parse Node := do
  let start ← here
  let s ← look
  if s.isAtWord "static" && s.aheadIs 1 "\x7b" then
    advance
    block go
  else
    advanceBy (memberModifierCount s.rest)
    let kind ← accessorKind
    optional "*"
    let s ← look
    if s.isAtWord "constructor" && s.aheadIs 1 "(" then constructorMember go start
    else
      let name ← memberName
      optional "?"
      optional "!"
      let s ← look
      if s.isAt "(" || s.isAt "<" then methodMember go kind start name
      else propertyMember go start name

def classMembers : Parse (List Node) := gather do
  let s ← look
  if s.isAt "\x7d" || s.atEnd then return ([], false)
  else if s.isAt ";" then
    advance
    return ([], true)
  else
    let decorations ← decorators go
    let member ← undecoratedMember go
    if (← look).rest.length == s.rest.length then
      report .classMember
      advance
    return (decorations ++ [member], true)

def heritage : Parse (List Node) := do
  if ← acceptWord "extends" then
    let base ← go .access
    skipAngles
    return [base]
  else return []

def classBody (decorations : List Node) : Parse Node := do
  let start ← here
  advance
  let s ← look
  let name ← if s.isAtWord "extends" || s.isAtWord "implements" then pure none else takeNameIfWord
  skipAngles
  let base ← heritage go
  if ← acceptWord "implements" then
    let _ ← typeUpTo ["\x7b"]
  expect "\x7b"
  let members ← classMembers go
  expect "\x7d"
  buildNamed .classDeclaration start name none (decorations ++ base ++ members)

end

end Subscriptions.Grammar

import Subscriptions.Grammar.Members

namespace Subscriptions.Grammar

def assignmentOperators : List String := [
  "=", "+=", "-=", "*=", "/=", "%=", "**=", "<<=", ">>=", ">>>=", "&=", "|=", "^=", "&&=",
  "||=", "??="]

/-- Tokens that end the type of a cast inside an expression. -/
def castStops : List String := [
  ")", "]", "\x7d", ",", ";", "=", "==", "===", "!=", "!==", "&&", "||", "??", "?", ":", "=>"]

def precedence? (op : String) : Option Nat :=
  if op == "??" then some 1
  else if op == "||" then some 2
  else if op == "&&" then some 3
  else if op == "|" then some 4
  else if op == "^" then some 5
  else if op == "&" then some 6
  else if ["==", "!=", "===", "!=="].contains op then some 7
  else if ["<", ">", "<=", ">=", "instanceof", "in", "as", "satisfies"].contains op then some 8
  else if ["<<", ">>", ">>>"].contains op then some 9
  else if ["+", "-"].contains op then some 10
  else if ["*", "/", "%"].contains op then some 11
  else if op == "**" then some 12
  else none

/-- A cast is no operator at the start of a line. -/
def isCast (t : Token) : Bool := t.isTheWord "as" || t.isTheWord "satisfies"

/-- The precedence of the token as an operator that binds more tightly than `above`; the power
operator also continues at its own precedence, so that it groups to the right. -/
def operator? (above : Nat) (t : Token) : Option Nat :=
  let isOperator := t.kind == .punct || t.isTheWord "instanceof" || t.isTheWord "in" ||
    (isCast t && !t.newlineBefore)
  if isOperator then
    (precedence? t.text).filter fun p => above < p || (t.text == "**" && p == above)
  else none

def isWordOperator (s : State) : Bool :=
  s.current.isWord && ["typeof", "void", "delete", "await"].contains s.current.text &&
    !(s.ahead 1).isPunctOf [")", ";", ",", ".", "="]

def isUnaryOperator (s : State) : Bool :=
  s.current.isPunctOf ["!", "-", "+", "~", "++", "--"] || isWordOperator s

def endsYield (t : Token) : Bool := t.isPunctOf [")", "]", "\x7d", ",", ";"] || t.newlineBefore

/-- What a word starts as a primary expression. -/
inductive WordForm
  | function
  | asyncFunction
  | classLiteral
  | asyncArrow
  | thisWord
  | superWord
  | literal
  | arrow
  | identifier
deriving Repr, DecidableEq, Inhabited

def wordForm (s : State) : WordForm :=
  let t := s.current
  let next := s.ahead 1
  if t.text == "function" then .function
  else if t.text == "class" then .classLiteral
  else if t.text == "async" && !next.newlineBefore && next.text == "function" then .asyncFunction
  else if t.text == "async" && !next.newlineBefore && next.isWord && s.aheadIs 2 "=>" then
    .asyncArrow
  else if t.text == "async" && !next.newlineBefore && next.isPunct "(" &&
      opensArrow (s.rest.drop 1) then .asyncArrow
  else if t.text == "this" then .thisWord
  else if t.text == "super" then .superWord
  else if ["true", "false", "null"].contains t.text then .literal
  else if next.isPunct "=>" && !next.newlineBefore then .arrow
  else .identifier

/-- An expression is missing here; what stands in its place is left to the caller. -/
def missingExpression (start : Nat) : Parse Node := do
  report .expression
  build .unknown start []

section
variable (go : Recur)

def expression : Parse Node := do
  let start ← here
  let first ← go .assignment
  if (← look).isAt "," then
    let others ← gather do
      if ← accept "," then return ([← go .assignment], true)
      else return ([], false)
    build .binary start (first :: others)
  else return first

def spreadOrAssignment : Parse Node := do
  if (← look).isAt "..." then
    let start ← here
    advance
    let value ← go .assignment
    build .spreadElement start [value]
  else go .assignment

def arguments : Parse (List Node) := do
  expect "("
  let nodes ← gather do
    let s ← look
    if s.isAt ")" || s.atEnd then return ([], false)
    else
      let node ← spreadOrAssignment go
      return ([node], ← accept ",")
  expect ")"
  return nodes

def elementAccess (start : Nat) (object : Node) : Parse Node := do
  expect "["
  let index ← expression go
  expect "]"
  build .elementAccess start [object, index]

/-- An arrow function from its parameters on; any `async` before them has been read. -/
def arrow (start : Nat) : Parse Node := do
  let params ←
    if (← look).current.isWord then do
      let paramStart ← here
      let name ← takeName
      pure [← buildNamed .parameter paramStart (some name) none []]
    else parameters go
  let returned ← annotation ["=>"]
  expect "=>"
  let body ← if (← look).isAt "\x7b" then block go else go .assignment
  buildNamed .arrowFunction start none returned (params ++ [body])

def arrayLiteral : Parse Node := do
  let start ← here
  expect "["
  let elements ← gather do
    let s ← look
    if s.isAt "]" || s.atEnd then return ([], false)
    else if s.isAt "," then
      advance
      return ([], true)
    else
      let node ← spreadOrAssignment go
      return ([node], ← accept ",")
  expect "]"
  build .arrayLiteral start elements

/-- The keyword of an accessor or an async method in an object literal. -/
def objectMemberKind : Parse Kind := do
  let s ← look
  let next := s.ahead 1
  if s.current.isWord && ["get", "set", "async"].contains s.current.text &&
      startsMemberName next && !next.isPunct "\x7b" then
    advance
    return if s.isAtWord "get" then .getAccessor else .methodDeclaration
  else return .methodDeclaration

def objectMethod (kind : Kind) (start : Nat) (name : Option Name) : Parse Node := do
  skipAngles
  let params ← parameters go
  let returned ← annotation ["\x7b"]
  let body ← block go
  buildNamed kind start name returned (params ++ [body])

/-- A shorthand member stands for an identifier of its name, with a default if it is a pattern. -/
def shorthandMember (start : Nat) (name : Option Name) : Parse Node := do
  let value ← match name with
    | none => pure []
    | some n => pure [← fun _ s =>
        let word : Node := ⟨s.built, .identifier, n.span, some n, none, []⟩
        some (word, s.alloc word)]
  let default ← initializer go
  buildNamed .propertyAssignment start name none (value ++ default)

def objectMember : Parse Node := do
  if (← look).isAt "..." then spreadOrAssignment go
  else
    let start ← here
    let kind ← objectMemberKind
    optional "*"
    let name ← memberName
    let s ← look
    if s.isAt "(" || s.isAt "<" then objectMethod go kind start name
    else if s.isAt ":" then
      advance
      let value ← go .assignment
      buildNamed .propertyAssignment start name none [value]
    else shorthandMember go start name

def objectLiteral : Parse Node := do
  let start ← here
  expect "\x7b"
  let members ← gather do
    let s ← look
    if s.isAt "\x7d" || s.atEnd then return ([], false)
    else
      let node ← objectMember go
      return ([node], ← accept ",")
  expect "\x7d"
  build .objectLiteral start members

/-- A template from its head on; each substitution is a child. -/
def template : Parse Node := do
  let start ← here
  advance
  let substitutions ← gather do
    let node ← expression go
    match (← look).current.kind with
    | .templateMiddle =>
      advance
      return ([node], true)
    | .templateTail =>
      advance
      return ([node], false)
    | _ =>
      report .substitutionEnd
      return ([node], false)
  build .templateLiteral start substitutions

def wordPrimary : Parse Node := do
  let start ← here
  match wordForm (← look) with
  | .function => function go .functionExpression
  | .asyncFunction =>
    advance
    function go .functionExpression
  | .classLiteral => classBody go []
  | .asyncArrow =>
    advance
    arrow go start
  | .thisWord =>
    advance
    build .thisExpression start []
  | .superWord =>
    advance
    build .superExpression start []
  | .literal =>
    advance
    build .literal start []
  | .arrow => arrow go start
  | .identifier =>
    let name ← takeName
    buildNamed .identifier start (some name) none []

def parenthesized (start : Nat) : Parse Node := do
  advance
  let inner ← expression go
  expect ")"
  build .parenthesized start [inner]

/-- An arrow function with type parameters; nothing else starts with `<`. -/
def genericArrow (start : Nat) : Parse Node := do
  skipAngles
  let s ← look
  if s.isAt "(" && opensArrow s.rest then arrow go start
  else missingExpression start

def punctPrimary (start : Nat) : Parse Node := do
  let s ← look
  if s.isAt "(" then
    if opensArrow s.rest then arrow go start else parenthesized go start
  else if s.isAt "[" then arrayLiteral go
  else if s.isAt "\x7b" then objectLiteral go
  else if s.isAt "<" then genericArrow go start
  else if s.current.isPunctOf [")", "]", "\x7d", ";"] then missingExpression start
  else
    report .expression
    advance
    build .unknown start []

def primary : Parse Node := do
  let start ← here
  match (← look).current.kind with
  | .word => wordPrimary go
  | .number | .string | .regex =>
    advance
    build .literal start []
  | .template =>
    advance
    build .templateLiteral start []
  | .templateHead => template go
  | .punct => punctPrimary go start
  | .templateMiddle | .templateTail | .endOfFile => missingExpression start

/-- The callee of a construction grows by members and indices, but not by calls. -/
def calleeStep (start : Nat) (callee : Node) : Parse (Node × Bool) := do
  let s ← look
  if s.isAt "." then
    advance
    if (← look).current.isWord then
      let name ← takeName
      return (← buildNamed .propertyAccess start (some name) none [callee], true)
    else
      report .propertyName
      return (callee, false)
  else if s.isAt "[" then return (← elementAccess go start callee, true)
  else return (callee, false)

/-- A construction from `new` on; `new.target` is an identifier. -/
def construction : Parse Node := do
  let start ← here
  advance
  if ← accept "." then
    let name ← takeName
    buildNamed .identifier start (some name) none []
  else
    let calleeStart ← here
    let first ← if (← look).isAtWord "new" then go .construction else primary go
    let callee ← climb (calleeStep go calleeStart) first
    skipAngles
    let args ← if (← look).isAt "(" then arguments go else pure []
    build .construction start (callee :: args)

def callOf (start : Nat) (callee : Node) : Parse Node := do
  let args ← arguments go
  build .call start (callee :: args)

/-- After a dot: a member name, or an optional call or index. -/
def memberStep (start : Nat) (object : Node) : Parse (Node × Bool) := do
  advance
  let s ← look
  if s.isAt "(" then return (← callOf go start object, true)
  else if s.isAt "[" then return (← elementAccess go start object, true)
  else if s.current.isWord then
    let name ← takeName
    return (← buildNamed .propertyAccess start (some name) none [object], true)
  else
    report .propertyName
    return (object, false)

/-- One more member access, index, call, template or non-null mark after an expression. -/
def accessStep (start : Nat) (object : Node) : Parse (Node × Bool) := do
  let s ← look
  let t := s.current
  if s.isAt "." || s.isAt "?." then memberStep go start object
  else if s.isAt "[" && !t.newlineBefore then return (← elementAccess go start object, true)
  else if s.isAt "(" then return (← callOf go start object, true)
  else if s.isAt "<" && typeArgumentsThenCall maxTypeArgumentTokens 0 s.rest then
    skipAngles
    return (← callOf go start object, true)
  else if t.kind == .template || t.kind == .templateHead then
    let template ← primary go
    return (← build .call start [object, template], true)
  else if s.isAt "!" && !t.newlineBefore then
    advance
    return (object, true)
  else return (object, false)

def access : Parse Node := do
  let start ← here
  let first ← if (← look).isAtWord "new" then go .construction else primary go
  climb (accessStep go start) first

def unary : Parse Node := do
  let start ← here
  if isUnaryOperator (← look) then
    advance
    let operand ← go .unary
    build .unary start [operand]
  else
    let expression ← go .access
    let t := (← look).current
    if t.isPunctOf ["++", "--"] && !t.newlineBefore then
      advance
      build .unary start [expression]
    else return expression

def castType : Parse (Option String) := do
  if ← acceptWord "const" then return none
  else typeUpTo castStops

/-- One more operator and what stands to its right. -/
def binaryStep (above start : Nat) (left : Node) : Parse (Node × Bool) := do
  let t := (← look).current
  match operator? above t with
  | none => return (left, false)
  | some precedence =>
    advance
    if isCast t then
      let declared ← castType
      return (← buildNamed .asExpression start none declared [left], true)
    else
      let right ← go (.binary precedence)
      return (← build .binary start [left, right], true)

def binary (above : Nat) : Parse Node := do
  let start ← here
  let first ← go .unary
  climb (binaryStep go above start) first

def conditional : Parse Node := do
  let start ← here
  let condition ← go (.binary 0)
  if ← accept "?" then
    let whenTrue ← go .assignment
    expect ":"
    let whenFalse ← go .assignment
    build .conditional start [condition, whenTrue, whenFalse]
  else return condition

def yielded (start : Nat) : Parse Node := do
  advance
  optional "*"
  if endsYield (← look).current then build .unary start []
  else
    let value ← go .assignment
    build .unary start [value]

def assignment : Parse Node := do
  let start ← here
  if (← look).isAtWord "yield" then yielded go start
  else
    let target ← conditional go
    if (← look).current.isPunctOf assignmentOperators then
      advance
      let value ← go .assignment
      build .assignment start [target, value]
    else return target

end

end Subscriptions.Grammar

import Subscriptions.Grammar.Expression

namespace Subscriptions.Grammar

/-- What a statement is, told by its first tokens. -/
inductive StatementForm
  | block
  | empty
  | decorated
  | importClause
  | exportClause
  | declared
  | namespaceBody
  | constEnum
  | enumeration
  | variables
  | function
  | asyncFunction
  | classDeclaration
  | abstractClass
  | interface
  | typeAlias
  | returning
  | branch
  | forLoop
  | whileLoop
  | doLoop
  | switch
  | trying
  | throwing
  | jump
  | labelled
  | expression
deriving Repr, DecidableEq, Inhabited

def punctForm (t : Token) : StatementForm :=
  if t.text == "\x7b" then .block
  else if t.text == ";" then .empty
  else if t.text == "@" then .decorated
  else .expression

/-- A word that only sometimes is a keyword needs the token after it to say so; where it does not,
a colon makes it a label. -/
def wordStatementForm (s : State) : StatementForm :=
  let w := s.current.text
  let next := s.ahead 1
  if w == "import" && !next.isPunctOf ["(", "."] then .importClause
  else if w == "export" then .exportClause
  else if w == "declare" && next.isWord then .declared
  else if (w == "namespace" || w == "module") && !next.newlineBefore &&
      (next.isWord || next.kind == .string) then .namespaceBody
  else if w == "const" && next.text == "enum" then .constEnum
  else if w == "enum" && next.isWord then .enumeration
  else if ["const", "let", "var"].contains w && (next.isWord || next.isPunctOf ["\x7b", "["]) then
    .variables
  else if w == "function" then .function
  else if w == "async" && next.text == "function" && !next.newlineBefore then .asyncFunction
  else if w == "class" then .classDeclaration
  else if w == "abstract" && next.text == "class" then .abstractClass
  else if w == "interface" && next.isWord then .interface
  else if w == "type" && next.isWord && !next.newlineBefore then .typeAlias
  else if w == "return" then .returning
  else if w == "if" then .branch
  else if w == "for" then .forLoop
  else if w == "while" then .whileLoop
  else if w == "do" then .doLoop
  else if w == "switch" then .switch
  else if w == "try" then .trying
  else if w == "throw" then .throwing
  else if ["break", "continue", "debugger"].contains w then .jump
  else if next.isPunct ":" then .labelled
  else .expression

def statementForm (s : State) : StatementForm :=
  match s.current.kind with
  | .punct => punctForm s.current
  | .word => wordStatementForm s
  | _ => .expression

def moduleClause (keyword : Token) : Parse Unit := do
  let _ ← skip (clauseTokens 0 true keyword)

def importClause : Parse Node := do
  let start ← here
  let keyword := (← look).current
  advance
  moduleClause keyword
  build .importDeclaration start []

def enumeration : Parse Node := do
  let start ← here
  advance
  let name ← takeNameIfWord
  if (← look).isAt "\x7b" then skipBalanced
  buildNamed .typeDeclaration start name none []

/-- The tokens before the body of an interface, its type arguments as a whole. -/
def interfaceHeading : Parse (List Node) := gather do
  let s ← look
  if s.isAt "\x7b" || s.atEnd then return ([], false)
  else
    if s.isAt "<" then skipAngles else advance
    return ([], true)

def interface : Parse Node := do
  let start ← here
  advance
  let name ← takeName
  let _ ← interfaceHeading
  skipBalanced
  buildNamed .typeDeclaration start (some name) none []

def typeAlias : Parse Node := do
  let start ← here
  advance
  let name ← takeName
  skipAngles
  expect "="
  let declared ← typeUpTo [";"]
  optional ";"
  buildNamed .typeDeclaration start (some name) declared []

/-- `break`, `continue` or `debugger`, with a label in the same line. -/
def jump : Parse Node := do
  let start ← here
  advance
  let t := (← look).current
  if t.isWord && !t.newlineBefore then advance
  optional ";"
  build .jumpStatement start []

def variableName : Parse (Option Name) := do
  let s ← look
  if s.current.isWord then return some (← takeName)
  else if s.isAt "\x7b" || s.isAt "[" then
    skipBalanced
    return none
  else
    report .variableName
    return none

def caughtName : Parse (Option Name) := do
  if (← look).current.isWord then return some (← takeName)
  else
    skipBalanced
    return none

/-- The tokens between the word `namespace` and its body. -/
def namespaceName : List Token → Split
  | [] => ([], [])
  | t :: ts => if t.isPunctOf ["\x7b", ";"] then ([], t :: ts) else take t (namespaceName ts)

section
variable (go : Recur)

def variableDeclaration : Parse Node := do
  let start ← here
  let name ← variableName
  optional "!"
  let declared ← annotation ["=", ",", ";", ")", "\x7d", "of", "in"]
  let value ← initializer go
  buildNamed .variableDeclaration start name declared value

/-- Declarations from `const`, `let` or `var` on, without a semicolon. -/
def variableStatement : Parse Node := do
  let start ← here
  advance
  let declarations ← gather do
    let node ← variableDeclaration go
    return ([node], ← accept ",")
  build .variableStatement start declarations

def expressionStatement (start : Nat) : Parse Node := do
  let value ← expression go
  optional ";"
  build .expressionStatement start [value]

def exportClause : Parse Node := do
  let start ← here
  let keyword := (← look).current
  advance
  let s ← look
  if s.isAt "\x7b" || s.isAt "*" || (s.isAtWord "type" && s.aheadIs 1 "\x7b") then
    moduleClause keyword
    build .importDeclaration start []
  else if s.isAt "=" then
    advance
    expressionStatement go start
  else
    optionalWord "default"
    go .statement

def namespaceBody : Parse Node := do
  advance
  let _ ← skip namespaceName
  if (← look).isAt "\x7b" then block go
  else
    let start ← here
    optional ";"
    build .typeDeclaration start []

def decoratedStatement : Parse Node := do
  let start ← here
  let decorations ← decorators go
  optionalWord "export"
  optionalWord "default"
  optionalWord "abstract"
  if (← look).isAtWord "class" then classBody go decorations
  else
    let statement ← go .statement
    build .unknown start (decorations ++ [statement])

def returning : Parse Node := do
  let start ← here
  advance
  let s ← look
  let value ←
    if s.isAt ";" || s.isAt "\x7d" || s.atEnd || s.current.newlineBefore then pure []
    else pure [← expression go]
  optional ";"
  build .returnStatement start value

def condition : Parse Node := do
  expect "("
  let value ← expression go
  expect ")"
  return value

def branch : Parse Node := do
  let start ← here
  advance
  let test ← condition go
  let whenTrue ← go .statement
  let whenFalse ← if ← acceptWord "else" then pure [← go .statement] else pure []
  build .ifStatement start (test :: whenTrue :: whenFalse)

/-- The parts of a loop head between its parentheses. A part that reads nothing ends the head. -/
def forHead : Parse (List Node) := gather do
  let s ← look
  if s.isAt ")" || s.atEnd then return ([], false)
  else if s.isAt ";" || s.isAtWord "of" || s.isAtWord "in" then
    advance
    return ([], true)
  else if s.isAtWord "const" || s.isAtWord "let" || s.isAtWord "var" then
    return ([← variableStatement go], true)
  else
    let (node, progress) ← moved (expression go)
    return ([node], progress)

def forLoop : Parse Node := do
  let start ← here
  advance
  optionalWord "await"
  expect "("
  let head ← forHead go
  expect ")"
  let body ← go .statement
  build .loopStatement start (head ++ [body])

def whileLoop : Parse Node := do
  let start ← here
  advance
  let test ← condition go
  let body ← go .statement
  build .loopStatement start [test, body]

def doLoop : Parse Node := do
  let start ← here
  advance
  let body ← go .statement
  let test ← if ← acceptWord "while" then pure [← condition go] else pure []
  optional ";"
  build .loopStatement start (body :: test)

def caseStatements : Parse (List Node) := gather do
  let s ← look
  if s.isAt "\x7d" || s.isAtWord "case" || s.isAtWord "default" || s.atEnd then
    return ([], false)
  else
    let (node, progress) ← moved (go .statement)
    if !progress then advance
    return ([node], true)

def caseBody (start : Nat) (value : List Node) : Parse Node := do
  expect ":"
  let statements ← caseStatements go
  build .caseClause start (value ++ statements)

/-- The cases of a switch; a token that starts none is reported and passed over. -/
def cases : Parse (List Node) := gather do
  let s ← look
  if s.isAt "\x7d" || s.atEnd then return ([], false)
  else
    let start ← here
    if s.isAtWord "case" then
      advance
      let value ← expression go
      return ([← caseBody go start [value]], true)
    else if s.isAtWord "default" then
      advance
      return ([← caseBody go start []], true)
    else
      report .caseOrDefault
      advance
      return ([], true)

def switch : Parse Node := do
  let start ← here
  advance
  let value ← condition go
  expect "\x7b"
  let clauses ← cases go
  expect "\x7d"
  build .switchStatement start (value :: clauses)

/-- The caught value in parentheses, if it is named. -/
def caught : Parse (List Node) := do
  if ← accept "(" then
    let start ← here
    let name ← caughtName
    let declared ← annotation [")"]
    let node ← buildNamed .parameter start name declared []
    expect ")"
    return [node]
  else return []

def catchClause : Parse (List Node) := do
  if (← look).isAtWord "catch" then
    let start ← here
    advance
    let value ← caught
    let body ← block go
    return [← build .catchClause start (value ++ [body])]
  else return []

def trying : Parse Node := do
  let start ← here
  advance
  let body ← block go
  let clause ← catchClause go
  let last ← if ← acceptWord "finally" then pure [← block go] else pure []
  build .tryStatement start (body :: clause ++ last)

def throwing : Parse Node := do
  let start ← here
  advance
  let value ← expression go
  optional ";"
  build .throwStatement start [value]

def statement : Parse Node := do
  let start ← here
  match statementForm (← look) with
  | .block => block go
  | .empty =>
    advance
    build .emptyStatement start []
  | .decorated => decoratedStatement go
  | .importClause => importClause
  | .exportClause => exportClause go
  | .declared =>
    advance
    go .statement
  | .namespaceBody => namespaceBody go
  | .constEnum =>
    advance
    enumeration
  | .enumeration => enumeration
  | .variables =>
    let node ← variableStatement go
    optional ";"
    return node
  | .function => function go .functionDeclaration
  | .asyncFunction =>
    advance
    function go .functionDeclaration
  | .classDeclaration => classBody go []
  | .abstractClass =>
    advance
    classBody go []
  | .interface => interface
  | .typeAlias => typeAlias
  | .returning => returning go
  | .branch => branch go
  | .forLoop => forLoop go
  | .whileLoop => whileLoop go
  | .doLoop => doLoop go
  | .switch => switch go
  | .trying => trying go
  | .throwing => throwing go
  | .jump => jump
  | .labelled =>
    advance
    advance
    go .statement
  | .expression => expressionStatement go start

end

end Subscriptions.Grammar

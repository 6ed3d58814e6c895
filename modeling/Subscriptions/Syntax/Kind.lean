namespace Subscriptions

/-- What a node of the syntax tree stands for. -/
inductive Kind
  | sourceFile
  | block
  | emptyStatement
  | expressionStatement
  | variableStatement
  | variableDeclaration
  | functionDeclaration
  | classDeclaration
  | importDeclaration
  | typeDeclaration
  | returnStatement
  | ifStatement
  | loopStatement
  | switchStatement
  | caseClause
  | tryStatement
  | catchClause
  | throwStatement
  | jumpStatement
  | propertyDeclaration
  | methodDeclaration
  | getAccessor
  | constructor
  | parameter
  /-- A constructor parameter that also declares a field. -/
  | parameterProperty
  | decorator
  | arrowFunction
  | functionExpression
  | identifier
  | thisExpression
  | superExpression
  | literal
  | templateLiteral
  | arrayLiteral
  | objectLiteral
  | propertyAssignment
  | spreadElement
  | propertyAccess
  | elementAccess
  | call
  | construction
  | binary
  | assignment
  | conditional
  | unary
  | parenthesized
  | asExpression
  /-- Anything that does not read as one of the others. -/
  | unknown
deriving Repr, DecidableEq, Inhabited

namespace Kind

def name : Kind → String
  | .sourceFile => "SourceFile"
  | .block => "Block"
  | .emptyStatement => "EmptyStatement"
  | .expressionStatement => "ExpressionStatement"
  | .variableStatement => "VariableStatement"
  | .variableDeclaration => "VariableDeclaration"
  | .functionDeclaration => "FunctionDeclaration"
  | .classDeclaration => "ClassDeclaration"
  | .importDeclaration => "ImportDeclaration"
  | .typeDeclaration => "TypeDeclaration"
  | .returnStatement => "ReturnStatement"
  | .ifStatement => "IfStatement"
  | .loopStatement => "LoopStatement"
  | .switchStatement => "SwitchStatement"
  | .caseClause => "CaseClause"
  | .tryStatement => "TryStatement"
  | .catchClause => "CatchClause"
  | .throwStatement => "ThrowStatement"
  | .jumpStatement => "JumpStatement"
  | .propertyDeclaration => "PropertyDeclaration"
  | .methodDeclaration => "MethodDeclaration"
  | .getAccessor => "GetAccessor"
  | .constructor => "Constructor"
  | .parameter => "Parameter"
  | .parameterProperty => "ParameterProperty"
  | .decorator => "Decorator"
  | .arrowFunction => "ArrowFunction"
  | .functionExpression => "FunctionExpression"
  | .identifier => "Identifier"
  | .thisExpression => "ThisExpression"
  | .superExpression => "SuperExpression"
  | .literal => "Literal"
  | .templateLiteral => "TemplateLiteral"
  | .arrayLiteral => "ArrayLiteral"
  | .objectLiteral => "ObjectLiteral"
  | .propertyAssignment => "PropertyAssignment"
  | .spreadElement => "SpreadElement"
  | .propertyAccess => "PropertyAccess"
  | .elementAccess => "ElementAccess"
  | .call => "Call"
  | .construction => "New"
  | .binary => "Binary"
  | .assignment => "Assignment"
  | .conditional => "Conditional"
  | .unary => "Unary"
  | .parenthesized => "Parenthesized"
  | .asExpression => "AsExpression"
  | .unknown => "Unknown"

def isFunction : Kind → Bool
  | .arrowFunction | .functionExpression | .functionDeclaration => true
  | _ => false

def isCallable (k : Kind) : Bool :=
  k.isFunction ||
    match k with
    | .methodDeclaration | .getAccessor | .constructor => true
    | _ => false

def isParameter : Kind → Bool
  | .parameter | .parameterProperty => true
  | _ => false

/-- Whatever applies its first child: to members, to an index or to arguments. -/
def hasReceiver : Kind → Bool
  | .propertyAccess | .elementAccess | .call | .construction => true
  | _ => false

theorem isCallable_of_isFunction {k : Kind} (h : k.isFunction = true) : k.isCallable = true := by
  simp [isCallable, h]

end Kind

end Subscriptions

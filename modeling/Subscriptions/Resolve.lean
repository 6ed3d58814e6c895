import Subscriptions.Source.Position
import Subscriptions.Syntax.Cursor
import Subscriptions.TypeName

namespace Subscriptions

/-- Names the type of an expression, where it is known and has a name. -/
abbrev Resolver := Cursor → Option String

namespace Resolve

/-- What a member is looked up for. -/
inductive MemberUse
  | value
  | call
deriving Repr, DecidableEq, Inhabited

def nearestClass? (c : Cursor) : Option Cursor := c.nearest? (·.kind == .classDeclaration)

def classNamed? (anywhere : Cursor) (name : String) : Option Cursor :=
  anywhere.root.preorder.find? fun c => c.kind == .classDeclaration && c.focus.isNamed name

/-- The name of the class that a class extends, without its qualifiers. -/
def baseName? (c : Cursor) : Option String := do
  let base ← c.children.find? fun b => [.identifier, .propertyAccess, .call].contains b.kind
  TypeName.lastSegment? (← base.focus.dottedName)

def declaredBy? (name : String) (statement : Cursor) : Option Cursor :=
  match statement.kind with
  | .variableStatement => statement.children.find? (·.focus.isNamed name)
  | .functionDeclaration | .classDeclaration =>
    if statement.focus.isNamed name then some statement else none
  | _ => none

def parameterNamed? (name : String) (scope : Cursor) : Option Cursor :=
  scope.parameters.find? (·.focus.isNamed name)

/-- The declaration of a name in one scope: parameters of a callable, the name of a function
expression, a caught value, or a statement of a block. -/
def declaredIn? (name : String) (scope : Cursor) : Option Cursor :=
  if scope.kind.isCallable then
    (parameterNamed? name scope).or
      (if scope.kind == .functionExpression && scope.focus.isNamed name then some scope else none)
  else
    match scope.kind with
    | .catchClause => parameterNamed? name scope
    | .sourceFile | .block | .caseClause | .loopStatement =>
      scope.children.findSome? (declaredBy? name)
    | _ => none

/-- The declaration of a name in the nearest scope around a node that has one. -/
def declaration? (c : Cursor) (name : String) : Option Cursor :=
  c.ancestors.findSome? (declaredIn? name)

/-- The member of a class that a child declares, when it is the kind of member asked for. -/
def directMember? (use : MemberUse) (name : String) (child : Cursor) : Option Cursor :=
  match child.kind, use with
  | .constructor, .value =>
    child.parameters.find? fun p => p.kind == .parameterProperty && p.focus.isNamed name
  | .propertyDeclaration, .value | .getAccessor, .value | .methodDeclaration, .call =>
    if child.focus.isNamed name then some child else none
  | _, _ => none

/-- A member of the other kind, taken when the class has none of the kind asked for. -/
def otherMember? (use : MemberUse) (name : String) (child : Cursor) : Option Cursor :=
  match child.kind, use with
  | .propertyDeclaration, .call | .getAccessor, .call | .methodDeclaration, .value =>
    if child.focus.isNamed name then some child else none
  | _, _ => none

def ownMember? (use : MemberUse) (name : String) (c : Cursor) : Option Cursor :=
  (c.children.findSome? (directMember? use name)).or
    (c.children.findSome? (otherMember? use name))

/-- The member of a class or of the classes it extends, in this file, as far as the budget
reaches. A class that extends itself has no more members. -/
def member? (use : MemberUse) (name : String) : Nat → Cursor → Option Cursor
  | 0, _ => none
  | budget + 1, c =>
    (ownMember? use name c).or do
      let base ← classNamed? c (← baseName? c)
      if base.same c then none else member? use name budget base

def declaredSymbol? (c : Cursor) : Option String := c.focus.declared.bind TypeName.symbol?

/-- The expression inside all parentheses around it. -/
def unwrap (above : List (Node × Nat)) : Node → Cursor
  | ⟨i, .parenthesized, s, n, d, inner :: others⟩ =>
    unwrap ((⟨i, .parenthesized, s, n, d, inner :: others⟩, 0) :: above) inner
  | node => ⟨node, above⟩

section
variable (resolve : Resolver)

/-- The type of what a declaration declares: its annotation, or else that of its initializer. -/
def valueType? (c : Cursor) : Option String :=
  match c.kind with
  | .variableDeclaration | .propertyDeclaration | .parameter | .parameterProperty =>
    match c.focus.declared with
    | some text => TypeName.symbol? text
    | none => (c.lastChild?.filter (·.kind != .decorator)).bind resolve
  | .getAccessor => declaredSymbol? c
  | _ => none

def classOf? (c : Cursor) : Option Cursor :=
  if c.kind == .thisExpression then nearestClass? c
  else (resolve c).bind (classNamed? c)

def calledBy? (c : Cursor) : Option Cursor :=
  if c.kind == .variableDeclaration then (c.child? 0).filter (·.kind.isFunction) else some c

def target? (budget : Nat) (callee : Cursor) : Option Cursor :=
  match callee.kind with
  | .identifier => do calledBy? (← declaration? callee (← callee.focus.nameText))
  | .propertyAccess => do
    member? .call (← callee.focus.nameText) budget (← classOf? resolve (← callee.receiver?))
  | _ => none

def returnType? (budget : Nat) (callee : Cursor) : Option String :=
  ((target? resolve budget (unwrap callee.above callee.focus)).filter (·.kind.isCallable)).bind
    declaredSymbol?

end

/-- The type of an expression as far as a budget of declarations reaches. -/
def typeWithin : Nat → Resolver
  | 0, _ => none
  | budget + 1, c =>
    match c.kind with
    | .parenthesized => (c.child? 0).bind (typeWithin budget)
    | .asExpression =>
      match c.focus.declared with
      | some text => TypeName.symbol? text
      | none => (c.child? 0).bind (typeWithin budget)
    | .construction => do
      let callee ← c.receiver?
      TypeName.lastSegment? (← callee.focus.dottedName)
    | .thisExpression => (nearestClass? c).bind (·.focus.nameText)
    | .identifier => do
      valueType? (typeWithin budget) (← declaration? c (← c.focus.nameText))
    | .propertyAccess => do
      let owner ← classOf? (typeWithin budget) (← c.receiver?)
      valueType? (typeWithin budget) (← member? .value (← c.focus.nameText) budget owner)
    | .call => c.receiver?.bind (returnType? (typeWithin budget) budget)
    | _ => none

end Resolve

namespace Resolver

/-- How many declarations are followed for one expression unless told otherwise. -/
def defaultDepth : Nat := 16

def declared (depth : Nat) : Resolver := Resolve.typeWithin (depth + 1)

/-- Knows the types of some source texts and no others. -/
def ofTexts (source : List Char) (types : List (String × Option String)) : Resolver := fun c =>
  (types.lookup (textOf source c.span)).join

end Resolver

end Subscriptions

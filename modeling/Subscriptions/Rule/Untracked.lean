import Subscriptions.Pattern.Reader
import Subscriptions.Resolve
import Subscriptions.Rule.Info

namespace Subscriptions

/-- What the rule against untracked subscriptions looks for: member accesses named by the verb on
receivers whose type name holds one of the patterns. -/
structure UntrackedRule where
  verb : String
  /-- What to call instead. -/
  trackedVerb : String
  patterns : List NamePattern
  /-- Names of classes whose construction may return an inner subscription. -/
  constructors : List String
deriving Inhabited

/-- What a matched access amounts to. -/
inductive Disposition
  /-- Returned as teardown logic from a construction. -/
  | exempt
  | plain
  /-- Inside a construction without being returned. -/
  | constructionSite
deriving Repr, DecidableEq, Inhabited

/-- A flagged access. -/
structure Violation where
  place : Cursor
  /-- Where the member name stands. -/
  span : Span
  /-- The access stands inside a construction without being returned from it. -/
  inConstruction : Bool
deriving Repr, Inhabited

namespace UntrackedRule

def ruleId : String := "no-subscribe"

def defaultVerb : String := "subscribe"

def defaultTrackedVerb : String := "subscribeAndTrack"

def defaultPatternTexts : List String := ["^Observable$", "Subject$", "^EventEmitter$"]

def defaultConstructors : List String := ["Observable"]

def default : UntrackedRule :=
  ⟨defaultVerb, defaultTrackedVerb, defaultPatternTexts.filterMap PatternCompiler.standard.pattern?,
    defaultConstructors⟩

section
variable (rule : UntrackedRule)

def isSubscription (resolve : Resolver) (c : Cursor) : Bool :=
  c.kind == .propertyAccess && c.focus.isNamed rule.verb &&
    (c.receiver?.bind resolve).any (NamePattern.anyFound rule.patterns)

/-- A `new` expression of one of the configured classes. -/
def isConstruction (c : Cursor) : Bool :=
  c.kind == .construction && (c.receiver?.bind (·.focus.dottedName)).any rule.constructors.contains

def isTeardownFunction (c : Cursor) : Bool :=
  c.parent?.any rule.isConstruction && c.indexInParent?.any (0 < ·)

def nearestFunction? (c : Cursor) : Option Cursor := c.nearest? (·.kind.isFunction)

/-- The nearest return statement belongs to a teardown function. -/
def underReturn (c : Cursor) : Bool :=
  ((c.nearest? (·.kind == .returnStatement)).bind nearestFunction?).any rule.isTeardownFunction

/-- The declaration that the call of an access initializes. -/
def assignedTo? (c : Cursor) : Option Cursor := do
  let call ← c.parent?.filter (·.kind == .call)
  let callee ← call.receiver?
  if callee.same c then call.parent?.filter (·.kind == .variableDeclaration) else none

/-- The function itself, and not one inside it, returns the name. -/
def returnsName (function : Cursor) (name : String) (c : Cursor) : Bool :=
  c.kind == .returnStatement &&
    (c.child? 0).any (fun v => v.kind == .identifier && v.focus.isNamed name) &&
    (nearestFunction? c).any (·.same function)

/-- The subscription is kept in a variable that its teardown function returns. -/
def assignedThenReturned (c : Cursor) : Bool :=
  ((do
    let declaration ← assignedTo? c
    let name ← declaration.focus.nameText
    let function ← nearestFunction? declaration
    return rule.isTeardownFunction function && function.preorder.any (returnsName function name)) :
    Option Bool).getD false

def inExpressionBody (c : Cursor) : Bool :=
  (nearestFunction? c).any fun function =>
    function.kind == .arrowFunction && rule.isTeardownFunction function &&
      (function.body?.filter (·.kind != .block)).any fun body =>
        body.same c || c.ancestors.any (·.same body)

def returnsOwnTeardown (c : Cursor) : Bool :=
  rule.underReturn c || rule.assignedThenReturned c || rule.inExpressionBody c

/-- What a matched access amounts to. Only the nearest construction counts. -/
def classify (c : Cursor) : Disposition :=
  if rule.returnsOwnTeardown c then .exempt
  else if (c.nearest? (·.kind == .construction)).any rule.isConstruction then .constructionSite
  else .plain

def violation? (resolve : Resolver) (c : Cursor) : Option Violation :=
  if rule.isSubscription resolve c then
    let span := (c.focus.name.map Name.span).getD c.span
    match rule.classify c with
    | .exempt => none
    | .plain => some ⟨c, span, false⟩
    | .constructionSite => some ⟨c, span, true⟩
  else none

def violations (resolve : Resolver) (root : Node) : List Violation :=
  root.asRoot.preorder.filterMap (rule.violation? resolve)

def message (inConstruction : Bool) : String :=
  if inConstruction then
    "Remember to return an observable's inner subscription as its teardown logic"
  else "Do not use '" ++ rule.verb ++ "(...)'. Use the tracked-acquisition call instead."

def help (inConstruction : Bool) : String :=
  if inConstruction then
    "return the inner subscription from the function passed to the constructor"
  else
    "use '" ++ rule.trackedVerb ++
      "(registry, ...)' so the subscription is released with its owning scope"

def toMatch (v : Violation) : RuleMatch :=
  ⟨v.span, rule.message v.inConstruction, some (rule.help v.inConstruction)⟩

def check (resolve : Resolver) (root : Node) : List RuleMatch :=
  (rule.violations resolve root).map rule.toMatch

def info : RuleInfo where
  id := ruleId
  description := some ("'" ++ rule.verb ++ "' on receivers typed " ++
    " | ".intercalate (rule.patterns.map (·.text)) ++ " must go through '" ++ rule.trackedVerb ++ "'")
  severity := .warning
  category := .correctness
  rationale := some ("An untracked subscription outlives the scope that created it and keeps its " ++
    "listener alive until the source completes")
  exampleBad := some "this.events$.subscribe(e => this.handle(e));"
  exampleGood := some "this.events$.subscribeAndTrack(this.registry, e => this.handle(e));"
  tags := ["rxjs", "lifecycle"]

end

end UntrackedRule

end Subscriptions

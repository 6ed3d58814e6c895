import Subscriptions.Source.Position

namespace Subscriptions

/-- What runs to the end of its line or of the source without being closed. -/
inductive Unclosed
  | blockComment
  | string
  | template
  | regex
deriving Repr, DecidableEq, Inhabited

def Unclosed.name : Unclosed → String
  | .blockComment => "block comment"
  | .string => "string literal"
  | .template => "template literal"
  | .regex => "regular expression"

/-- What the grammar asks for at a token that does not fit. -/
inductive Expectation
  | token (text : String)
  | statement
  | variableName
  | parameterName
  | memberName
  | propertyName
  | classMember
  | caseOrDefault
  | expression
  | substitutionEnd
deriving Repr, DecidableEq, Inhabited

def Expectation.phrase : Expectation → String
  | .token text => "'" ++ text ++ "'"
  | .statement => "statement"
  | .variableName => "variable name"
  | .parameterName => "parameter name"
  | .memberName => "member name"
  | .propertyName => "property name"
  | .classMember => "class member"
  | .caseOrDefault => "'case' or 'default'"
  | .expression => "expression"
  | .substitutionEnd => "'\x7d' closing the template substitution"

/-- Something that does not read as source text, with the text it is about. -/
inductive Fault
  | unterminated (what : Unclosed) (span : Span)
  | unexpectedChar (char : Char) (span : Span)
  | tooDeep (limit : Nat) (span : Span)
  /-- No text is found at the end of the file. -/
  | expected (what : Expectation) (found : Option String) (span : Span)
deriving Repr, DecidableEq, Inhabited

namespace Fault

def span : Fault → Span
  | .unterminated _ s | .unexpectedChar _ s | .tooDeep _ s | .expected _ _ s => s

def message : Fault → String
  | .unterminated what _ => "unterminated " ++ what.name
  | .unexpectedChar c _ => "unexpected character '" ++ c.toString ++ "'"
  | .tooDeep limit _ => "nesting exceeds " ++ toString limit ++ " levels"
  | .expected what found _ =>
    "expected " ++ what.phrase ++ ", found '" ++ found.getD "end of file" ++ "'"

end Fault

end Subscriptions

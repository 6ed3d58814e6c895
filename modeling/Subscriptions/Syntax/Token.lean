import Subscriptions.Source.Position

namespace Subscriptions

/-- Keywords are words; a template with substitutions is cut at each of them. -/
inductive TokenKind
  | word
  | number
  | string
  | template
  | templateHead
  | templateMiddle
  | templateTail
  | regex
  | punct
  | endOfFile
deriving Repr, DecidableEq, Inhabited

/-- A token with the blanks and comments before it. -/
structure Token where
  kind : TokenKind
  /-- The trivia between the token before and this one. -/
  lead : String
  text : String
  span : Span
  /-- The trivia before the token holds a line feed that is not inside an unclosed comment. -/
  newlineBefore : Bool
deriving Repr, DecidableEq, Inhabited

namespace Token

def isPunct (t : Token) (p : String) : Bool := t.kind == .punct && t.text == p

def isPunctOf (t : Token) (ps : List String) : Bool := t.kind == .punct && ps.contains t.text

def isTheWord (t : Token) (w : String) : Bool := t.kind == .word && t.text == w

def isWord (t : Token) : Bool := t.kind == .word

def isEnd (t : Token) : Bool := t.kind == .endOfFile

end Token

def textOfTokens : List Token → String
  | [] => ""
  | t :: ts => t.text ++ String.join (ts.map fun u => u.lead ++ u.text)

end Subscriptions

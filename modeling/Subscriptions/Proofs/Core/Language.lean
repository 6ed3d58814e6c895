import Subscriptions.Proofs.Grammar.Faultless

namespace Subscriptions.Core

open Piece

/-- The words that have a meaning of their own somewhere in the grammar. -/
def keywords : List String := [
  "abstract", "accessor", "as", "async", "await", "break", "case", "catch", "class", "const",
  "constructor", "continue", "debugger", "declare", "default", "delete", "do", "else", "enum",
  "export", "extends", "false", "finally", "for", "from", "function", "get", "if", "implements",
  "import", "in", "instanceof", "interface", "keyof", "let", "module", "namespace", "new", "null",
  "of", "override", "private", "protected", "public", "readonly", "return", "satisfies", "set",
  "static", "super", "switch", "this", "throw", "true", "try", "type", "typeof", "var", "void",
  "while", "yield"]

/-- A word without a meaning of its own. -/
structure Word where
  first : Char
  others : List Char
  starts : (Scanner.isWordStart first || first == '#') = true
  goesOn : others.all Scanner.isWordPart = true
  plain : String.ofList (first :: others) ∉ keywords

def Word.text (w : Word) : String := String.ofList (w.first :: w.others)

/-- A decimal integer. -/
structure Numeral where
  first : Char
  others : List Char
  starts : first.isDigit = true
  goesOn : others.all Char.isDigit = true

def Numeral.text (n : Numeral) : String := String.ofList (n.first :: n.others)

/-- The text of a template beside its substitutions: letters and digits. -/
structure Letters where
  chars : List Char
  plain : chars.all Text.isAlphanumeric = true

structure Param where
  name : Word
  type : Option Word

/-- A single name, or a list in parentheses. -/
inductive Params
  | bare (x : Word)
  | listed (xs : List Param)

/-- The dotted name of a class. -/
inductive Path
  | word (x : Word)
  | member (d : Path) (x : Word)

mutual
inductive Expr
  | member (m : Member)
  | arrow (params : Params) (body : Expr)
  | arrowBlock (params : Params) (body : List Stmt)

inductive Member
  | word (x : Word)
  | this
  | number (n : Numeral)
  | paren (a : Expr)
  | template (head : Letters) (parts : Parts)
  | property (m : Member) (x : Word)
  | index (m : Member) (a : Expr)
  | call (m : Member) (args : List Expr)
  | construct (d : Path) (args : List Expr)

/-- The substitutions of a template, each with the text behind it. -/
inductive Parts
  | last (a : Expr) (tail : Letters)
  | more (a : Expr) (middle : Letters) (parts : Parts)

inductive Stmt
  | const (x : Word) (type : Option Word) (a : Expr)
  | ret (a : Expr)
  | expr (a : Expr)
end

def separated : List (List Piece) → List Piece
  | [] => []
  | [ps] => ps
  | ps :: qs :: rest => ps ++ punct "," :: separated (qs :: rest)

def typed : Option Word → List Piece
  | none => []
  | some t => [punct ":", word t.text]

def Param.pieces (x : Param) : List Piece := word x.name.text :: typed x.type

def Params.pieces : Params → List Piece
  | .bare x => [word x.text]
  | .listed xs => punct "(" :: (separated (xs.map Param.pieces) ++ [punct ")"])

def Path.pieces : Path → List Piece
  | .word x => [Piece.word x.text]
  | .member d x => d.pieces ++ [punct ".", Piece.word x.text]

mutual
def Expr.pieces : Expr → List Piece
  | .member m => m.pieces
  | .arrow params body => params.pieces ++ punct "=>" :: body.pieces
  | .arrowBlock params body =>
    params.pieces ++ punct "=>" :: punct "\x7b" :: (Stmt.piecesAll body ++ [punct "\x7d"])

def Member.pieces : Member → List Piece
  | .word x => [Piece.word x.text]
  | .this => [Piece.word "this"]
  | .number n => [⟨.number, n.text, false⟩]
  | .paren a => punct "(" :: (a.pieces ++ [punct ")"])
  | .template head parts => templateHead head.chars :: parts.pieces
  | .property m x => m.pieces ++ [punct ".", Piece.word x.text]
  | .index m a => m.pieces ++ punct "[" :: (a.pieces ++ [punct "]"])
  | .call m args => m.pieces ++ punct "(" :: (separated (Expr.piecesEach args) ++ [punct ")"])
  | .construct d args => Piece.word "new" ::
    (d.pieces ++ punct "(" :: (separated (Expr.piecesEach args) ++ [punct ")"]))

def Parts.pieces : Parts → List Piece
  | .last a tail => a.pieces ++ [templateTail tail.chars]
  | .more a middle parts => a.pieces ++ templateMiddle middle.chars :: parts.pieces

def Expr.piecesEach : List Expr → List (List Piece)
  | [] => []
  | a :: as => a.pieces :: Expr.piecesEach as

def Stmt.pieces : Stmt → List Piece
  | .const x type a => Piece.word "const" :: Piece.word x.text :: (typed type ++
    punct "=" :: (a.pieces ++ [punct ";"]))
  | .ret a => Piece.word "return" :: (a.pieces ++ [punct ";"])
  | .expr a => a.pieces ++ [punct ";"]

def Stmt.piecesAll : List Stmt → List Piece
  | [] => []
  | s :: ss => s.pieces ++ Stmt.piecesAll ss
end

def identifier (x : Word) : Shape := .node .identifier (some x.text) none []

def Param.shape (x : Param) : Shape :=
  .node .parameter (some x.name.text) (x.type.map Word.text) []

def Params.shapes : Params → List Shape
  | .bare x => [.node .parameter (some x.text) none []]
  | .listed xs => xs.map Param.shape

def Path.shape : Path → Shape
  | .word x => identifier x
  | .member d x => .node .propertyAccess (some x.text) none [d.shape]

mutual
def Expr.shape : Expr → Shape
  | .member m => m.shape
  | .arrow params body => .node .arrowFunction none none (params.shapes ++ [body.shape])
  | .arrowBlock params body => .node .arrowFunction none none
    (params.shapes ++ [.node .block none none (Stmt.shapes body)])

def Member.shape : Member → Shape
  | .word x => identifier x
  | .this => .node .thisExpression none none []
  | .number _ => .node .literal none none []
  | .paren a => .node .parenthesized none none [a.shape]
  | .template _ parts => .node .templateLiteral none none parts.shapes
  | .property m x => .node .propertyAccess (some x.text) none [m.shape]
  | .index m a => .node .elementAccess none none [m.shape, a.shape]
  | .call m args => .node .call none none (m.shape :: Expr.shapes args)
  | .construct d args => .node .construction none none (d.shape :: Expr.shapes args)

def Parts.shapes : Parts → List Shape
  | .last a _ => [a.shape]
  | .more a _ parts => a.shape :: parts.shapes

def Expr.shapes : List Expr → List Shape
  | [] => []
  | a :: as => a.shape :: Expr.shapes as

def Stmt.shape : Stmt → Shape
  | .const x type a => .node .variableStatement none none
    [.node .variableDeclaration (some x.text) (type.map Word.text) [a.shape]]
  | .ret a => .node .returnStatement none none [a.shape]
  | .expr a => .node .expressionStatement none none [a.shape]

def Stmt.shapes : List Stmt → List Shape
  | [] => []
  | s :: ss => s.shape :: Stmt.shapes ss
end

mutual
/-- How many expressions stand inside one another, the outermost one counted. -/
def Expr.levels : Expr → Nat
  | .member m => m.levels + 1
  | .arrow _ body => body.levels + 1
  | .arrowBlock _ body => Stmt.levelsAll body + 1

def Member.levels : Member → Nat
  | .word _ => 0
  | .this => 0
  | .number _ => 0
  | .paren a => a.levels
  | .template _ parts => parts.levels
  | .property m _ => m.levels
  | .index m a => max m.levels a.levels
  | .call m args => max m.levels (Expr.levelsAll args)
  | .construct _ args => Expr.levelsAll args

def Parts.levels : Parts → Nat
  | .last a _ => a.levels
  | .more a _ parts => max a.levels parts.levels

def Expr.levelsAll : List Expr → Nat
  | [] => 0
  | a :: as => max a.levels (Expr.levelsAll as)

def Stmt.levels : Stmt → Nat
  | .const _ _ a => a.levels
  | .ret a => a.levels
  | .expr a => a.levels

def Stmt.levelsAll : List Stmt → Nat
  | [] => 0
  | s :: ss => max s.levels (Stmt.levelsAll ss)
end

abbrev Program := List Stmt

namespace Program

/-- The program as it is written, with one blank between each two tokens. -/
def text (program : Program) : List Char := spaced (Stmt.piecesAll program)

def shape (program : Program) : Shape := .node .sourceFile none none (Stmt.shapes program)

/-- How deep expressions are nested in an outermost one. -/
def nesting (program : Program) : Nat := Stmt.levelsAll program - 1

end Program

end Subscriptions.Core

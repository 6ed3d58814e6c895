import Subscriptions.Glob.Reader

namespace Subscriptions.Glob

/-- The bytes of a path or of a character in UTF-8. -/
def bytesOf (cs : List Char) : List UInt8 := cs.flatMap String.utf8EncodeChar

def slash : UInt8 := 0x2F

/-- What follows when the bytes start with others. -/
def afterBytes? : List UInt8 → List UInt8 → Option (List UInt8)
  | [], bs => some bs
  | _ :: _, [] => none
  | a :: as, b :: bs => if a == b then afterBytes? as bs else none

/-- The rest of the match succeeds after some number of bytes. -/
def afterAny (next : List UInt8 → Bool) : List UInt8 → Bool
  | [] => next []
  | b :: bs => next (b :: bs) || afterAny next bs

/-- The rest of the match succeeds after some slash. -/
def afterSlash (next : List UInt8 → Bool) : List UInt8 → Bool
  | [] => false
  | b :: bs => (b == slash && next bs) || afterSlash next bs

/-- Whether a byte belongs to the characters from one to another. A character of several bytes
counts as its bytes, and a range runs from the last byte of its first character to the first byte
of its last. -/
def inByteRange (first last : Char) (b : UInt8) : Bool :=
  let low := String.utf8EncodeChar first
  let high := String.utf8EncodeChar last
  if first == last then low.contains b
  else low.contains b || high.contains b ||
    (low.getLastD 0 ≤ b && b ≤ high.headD 0)

mutual

/-- Nothing is left of the token when empty branches are left out. -/
def Token.isVoid : Token → Bool
  | .choice branches => allVoid branches
  | _ => false

def allVoid : List (List Token) → Bool
  | [] => true
  | branch :: branches => areVoid branch && allVoid branches

def areVoid : List Token → Bool
  | [] => true
  | t :: ts => t.isVoid && areVoid ts

end

mutual

/-- The token matches bytes in front such that the rest of the match succeeds after them. -/
def Token.run (next : List UInt8 → Bool) : Token → List UInt8 → Bool
  | .literal c, bs => (afterBytes? (String.utf8EncodeChar c) bs).any next
  | .any, bs => match bs with | [] => false | _ :: rest => next rest
  | .anything, bs => afterAny next bs
  | .leading, bs => next bs || afterSlash next bs
  | .under, bs => match bs with | [] => false | b :: rest => b == slash && afterAny next rest
  | .between, bs =>
    match bs with
    | [] => false
    | b :: rest => b == slash && (next rest || afterSlash next rest)
  | .oneOf negated ranges, bs =>
    match bs with
    | [] => false
    | b :: rest => (ranges.any fun r => inByteRange r.1 r.2 b) != negated && next rest
  | .choice branches, bs => if allVoid branches then next bs else runSome next branches bs

/-- Some branch that is not empty matches. -/
def runSome (next : List UInt8 → Bool) : List (List Token) → List UInt8 → Bool
  | [], _ => false
  | branch :: branches, bs =>
    (!areVoid branch && runAll next branch bs) || runSome next branches bs

def runAll (next : List UInt8 → Bool) : List Token → List UInt8 → Bool
  | [], bs => next bs
  | t :: ts, bs => t.run (fun rest => runAll next ts rest) bs

end

/-- The glob matches the whole path. Two stars alone match every path. -/
def matchesPath (g : Glob) (path : String) : Bool :=
  match g.tokens with
  | [.leading] => true
  | ts => runAll List.isEmpty ts (bytesOf path.toList)

end Subscriptions.Glob

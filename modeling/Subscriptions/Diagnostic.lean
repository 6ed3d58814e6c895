import Subscriptions.Document
import Subscriptions.Severity

namespace Subscriptions

abbrev NumberedLines := List (Nat × String)

def numbered (lines : List String) : NumberedLines := lines.zipIdx.map fun l => (l.2 + 1, l.1)

/-- Lines before and after a line. -/
structure Window where
  before : NumberedLines
  after : NumberedLines
deriving Repr, DecidableEq, Inhabited

namespace Window

/-- As many lines as there are on each side of a line, a number of them at most. Line zero has
none. There is no window if the numbers of its lines do not fit 64 bits. -/
def around? (lines : List String) (line count : Nat) : Option Window :=
  if count == 0 || line == 0 then some ⟨[], []⟩
  else if countLimit ≤ count + 1 || countLimit ≤ line + count then none
  else
    let start := line - (count + 1)
    some {
      before := ((numbered lines).drop start).take (line - 1 - start)
      after := ((numbered lines).drop line).take (min (line + count) lines.length - line) }

end Window

/-- A place in a file. Line and column count from one, and characters. -/
structure Location where
  file : String
  line : Nat
  column : Nat
  length : Nat
deriving Repr, DecidableEq, Inhabited

/-- A problem in a file. -/
structure Diagnostic where
  ruleId : String
  severity : Severity
  message : String
  location : Location
  sourceLine : Option String := none
  context : Window := ⟨[], []⟩
  help : Option String := none
deriving Repr, DecidableEq, Inhabited

section
variable {δ : Type} [Document δ]

open Document

def Location.decode? (d : δ) : Option Location := do
  let fields ← fields? ["file", "line", "column", "length"] d
  return {
    file := ← fields.require "file" text?
    line := ← fields.require "line" count?
    column := ← fields.require "column" count?
    length := ← fields.require "length" count? }

def decodeLines? (d : δ) : Option NumberedLines := listOf (pair count? text?) d

def Diagnostic.decode? (d : δ) : Option Diagnostic := do
  let fields ← fields? ["rule_id", "severity", "message", "location", "source_line",
    "context_before", "context_after", "help"] d
  return {
    ruleId := ← fields.require "rule_id" text?
    severity := ← fields.require "severity" (choice Severity.ofName?)
    message := ← fields.require "message" text?
    location := ← fields.require "location" Location.decode?
    sourceLine := ← fields.getOptional "source_line" text?
    context := {
      before := ← fields.get "context_before" decodeLines? []
      after := ← fields.get "context_after" decodeLines? [] }
    help := ← fields.getOptional "help" text? }

end

end Subscriptions

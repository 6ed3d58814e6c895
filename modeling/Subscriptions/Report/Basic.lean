import Subscriptions.Decimal.Binary
import Subscriptions.Diagnostic

namespace Subscriptions

open Decimal

/-- A length of time in nanoseconds. -/
structure Duration where
  nanos : Nat
deriving Repr, DecidableEq, Inhabited

namespace Duration

def zero : Duration := ⟨0⟩

def add (a b : Duration) : Duration := ⟨a.nanos + b.nanos⟩

def nanosPerSecond : Nat := 1000000000

def ofMicros (n : Nat) : Duration := ⟨1000 * n⟩

def millis (d : Duration) : Nat := d.nanos / 1000000

def seconds (d : Duration) : Fraction :=
  nearest ((nearest (.ofNat (d.nanos / nanosPerSecond))).add
    (nearest ⟨d.nanos % nanosPerSecond, nanosPerSecond⟩))

def inUnits (d : Duration) (perSecond : Nat) : String :=
  twoPlaces (nearest (d.seconds.scale perSecond))

def secondsText (d : Duration) : String := twoPlaces d.seconds

def millisText (d : Duration) : String := d.inUnits 1000

def microsText (d : Duration) : String := d.inUnits 1000000

end Duration

/-- What a rule has done and how long it took. -/
structure RuleTiming where
  ruleId : String
  total : Duration
  /-- Files that the rule was applied to. -/
  evaluations : Nat
  /-- Findings before disable comments are looked at. -/
  matchCount : Nat
deriving Repr, DecidableEq, Inhabited

namespace RuleTiming

def add (a b : RuleTiming) : RuleTiming where
  ruleId := a.ruleId
  total := a.total.add b.total
  evaluations := a.evaluations + b.evaluations
  matchCount := a.matchCount + b.matchCount

/-- Averages are divided by a number of 32 bits. -/
def divisorLimit : Nat := UInt32.size

/-- The time per file in whole nanoseconds. The number of files is cut to 32 bits, and there is
no average if nothing is left of it. -/
def average? (t : RuleTiming) : Option Duration :=
  if t.evaluations == 0 then some .zero
  else
    let divisor := t.evaluations % divisorLimit
    if divisor == 0 then none else some ⟨t.total.nanos / divisor⟩

end RuleTiming

/-- The outcome of looking at files. -/
structure Report where
  diagnostics : List Diagnostic := []
  filesProcessed : Nat := 0
  filesWithErrors : Nat := 0
  filesWithWarnings : Nat := 0
  errorCount : Nat := 0
  warningCount : Nat := 0
  infoCount : Nat := 0
  /-- Findings dropped by disable comments. -/
  suppressedCount : Nat := 0
  duration : Duration := .zero
  timings : List RuleTiming := []
deriving Repr, DecidableEq, Inhabited

namespace Report

def hasErrors (r : Report) : Bool := 0 < r.errorCount

def hasWarnings (r : Report) : Bool := 0 < r.warningCount

def isClean (r : Report) : Bool := r.errorCount == 0 && r.warningCount == 0

/-- Two for errors, one for warnings and zero for anything less. -/
def exitCode (r : Report) : Nat :=
  if 0 < r.errorCount then 2 else if 0 < r.warningCount then 1 else 0

def addDiagnostic (r : Report) (d : Diagnostic) : Report :=
  let r := { r with diagnostics := r.diagnostics ++ [d] }
  match d.severity with
  | .error => { r with errorCount := r.errorCount + 1 }
  | .warning => { r with warningCount := r.warningCount + 1 }
  | .info => { r with infoCount := r.infoCount + 1 }

def addTiming (timings : List RuleTiming) (t : RuleTiming) : List RuleTiming :=
  match timings with
  | [] => [t]
  | u :: us => if u.ruleId == t.ruleId then u.add t :: us else u :: addTiming us t

/-- Adds up two reports. The time that the first one took stays. -/
def merge (a b : Report) : Report where
  diagnostics := a.diagnostics ++ b.diagnostics
  filesProcessed := a.filesProcessed + b.filesProcessed
  filesWithErrors := a.filesWithErrors + b.filesWithErrors
  filesWithWarnings := a.filesWithWarnings + b.filesWithWarnings
  errorCount := a.errorCount + b.errorCount
  warningCount := a.warningCount + b.warningCount
  infoCount := a.infoCount + b.infoCount
  suppressedCount := a.suppressedCount + b.suppressedCount
  duration := a.duration
  timings := b.timings.foldl addTiming a.timings

end Report

end Subscriptions

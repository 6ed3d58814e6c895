namespace Subscriptions

/-- How serious a finding is. -/
inductive Severity
  | info
  | warning
  | error
deriving Repr, DecidableEq, Inhabited

namespace Severity

def name : Severity → String
  | .info => "info"
  | .warning => "warning"
  | .error => "error"

def all : List Severity := [.info, .warning, .error]

def ofName? (text : String) : Option Severity := all.find? (·.name == text)

def synonyms : List (String × Severity) := [
  ("hint", .info), ("note", .info), ("warn", .warning), ("err", .error)]

def ofWord? (word : String) : Option Severity :=
  let w := word.toLower
  (ofName? w).or (synonyms.lookup w)

/-- The place in the order from the least serious on. -/
def rank : Severity → Nat
  | .info => 0
  | .warning => 1
  | .error => 2

theorem ofName?_name (s : Severity) : ofName? s.name = some s := by
  cases s <;> decide

theorem rank_inj {a b : Severity} : a.rank = b.rank ↔ a = b := by
  cases a <;> cases b <;> decide

end Severity

end Subscriptions

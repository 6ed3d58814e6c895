namespace Subscriptions.Text

/-- The value of a digit, letters in either case standing for the digits from ten on. -/
def digitValue? (radix : Nat) (c : Char) : Option Nat :=
  let value :=
    if c.isDigit then some (c.toNat - '0'.toNat)
    else if 'a' ≤ c && c ≤ 'z' then some (c.toNat - 'a'.toNat + 10)
    else if 'A' ≤ c && c ≤ 'Z' then some (c.toNat - 'A'.toNat + 10)
    else none
  value.filter (· < radix)

def numberAfter? (radix : Nat) : Nat → List Char → Option Nat
  | n, [] => some n
  | n, c :: cs => (digitValue? radix c).bind fun d => numberAfter? radix (radix * n + d) cs

def number? (radix : Nat) (cs : List Char) : Option Nat :=
  if cs.isEmpty then none else numberAfter? radix 0 cs

theorem digitValue?_lt {radix d : Nat} {c : Char} (h : digitValue? radix c = some d) :
    d < radix := by
  simp only [digitValue?, Option.filter_eq_some_iff, decide_eq_true_eq] at h
  exact h.2

end Subscriptions.Text

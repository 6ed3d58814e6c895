namespace Subscriptions.Decimal

/-- A fraction that is not negative. -/
structure Fraction where
  num : Nat
  den : Nat
deriving Repr, DecidableEq, Inhabited

namespace Fraction

def ofNat (n : Nat) : Fraction := ⟨n, 1⟩

def add (a b : Fraction) : Fraction := ⟨a.num * b.den + b.num * a.den, a.den * b.den⟩

def scale (a : Fraction) (n : Nat) : Fraction := ⟨a.num * n, a.den⟩

end Fraction

/-- The nearest whole number to a quotient. A half goes to the even neighbour. -/
def roundDiv (num den : Nat) : Nat :=
  let q := num / den
  let twice := 2 * (num % den)
  if twice < den || (twice == den && q % 2 == 0) then q else q + 1

theorem two_mul_roundDiv_mul_le (num den : Nat) : 2 * (roundDiv num den * den) ≤ 2 * num + den := by
  have h := Nat.div_add_mod num den
  have hc : den * (num / den) = num / den * den := Nat.mul_comm _ _
  simp only [roundDiv]
  split
  · omega
  · rename_i hn
    simp only [Bool.or_eq_true, decide_eq_true_eq, Bool.and_eq_true, beq_iff_eq, not_or] at hn
    rw [Nat.add_mul, Nat.one_mul]
    omega

/-- Digits of a number held in 64 bits of floating point. -/
def significandBits : Nat := 53

/-- The nearest fraction with so many binary digits. -/
def nearest (a : Fraction) : Fraction :=
  if a.num == 0 || a.den == 0 then ⟨0, 1⟩
  else
    let low := significandBits - 1
    let shift : Int := (low : Int) - (Nat.log2 a.num : Int) + (Nat.log2 a.den : Int)
    let shift := if scaled a shift < 1 <<< low then shift + 1 else shift
    if 0 ≤ shift then ⟨rounded a shift, 1 <<< shift.toNat⟩
    else ⟨rounded a shift <<< (-shift).toNat, 1⟩
where
  /-- The fraction by a power of two, cut to a whole number. -/
  scaled (a : Fraction) (shift : Int) : Nat :=
    if 0 ≤ shift then (a.num <<< shift.toNat) / a.den else a.num / (a.den <<< (-shift).toNat)
  rounded (a : Fraction) (shift : Int) : Nat :=
    if 0 ≤ shift then roundDiv (a.num <<< shift.toNat) a.den
    else roundDiv a.num (a.den <<< (-shift).toNat)

/-- A fraction with two places. A half goes to the even neighbour. -/
def twoPlaces (a : Fraction) : String :=
  let hundredths := roundDiv (100 * a.num) a.den
  let cents := toString (hundredths % 100)
  toString (hundredths / 100) ++ "." ++ (if cents.length < 2 then "0" ++ cents else cents)

end Subscriptions.Decimal

import Subscriptions.Pattern.CaseFold
import Subscriptions.Text.Classes

namespace Subscriptions.Pattern

/-- A set of characters. -/
inductive CharSet
  | empty
  | range (low high : Char)
  | decimal
  | blank
  | word
  | union (a b : CharSet)
  | intersection (a b : CharSet)
  | difference (a b : CharSet)
  | complement (a : CharSet)
  /-- All characters that differ in case only from one of the set. -/
  | folded (a : CharSet)
deriving Repr, DecidableEq, Inhabited

namespace CharSet

def holds : CharSet → Char → Bool
  | .empty, _ => false
  | .range low high, c => low.toNat ≤ c.toNat && c.toNat ≤ high.toNat
  | .decimal, c => Text.isDecimal c
  | .blank, c => Text.isBlank c
  | .word, c => Text.isWordChar c
  | .union a b, c => a.holds c || b.holds c
  | .intersection a b, c => a.holds c && b.holds c
  | .difference a b, c => a.holds c && !b.holds c
  | .complement a, c => !a.holds c
  | .folded a, c => (caseVariants c).any a.holds

def single (c : Char) : CharSet := .range c c

def ofRanges : List (Char × Char) → CharSet
  | [] => .empty
  | [(a, b)] => .range a b
  | (a, b) :: rs => .union (.range a b) (ofRanges rs)

/-- Any character but a line feed. -/
def notNewline : CharSet := .complement (single '\n')

def named? (name : String) : Option CharSet :=
  match name with
  | "alnum" => some (ofRanges [('0', '9'), ('A', 'Z'), ('a', 'z')])
  | "alpha" => some (ofRanges [('A', 'Z'), ('a', 'z')])
  | "ascii" => some (.range '\x00' '\x7f')
  | "blank" => some (ofRanges [('\t', '\t'), (' ', ' ')])
  | "cntrl" => some (ofRanges [('\x00', '\x1f'), ('\x7f', '\x7f')])
  | "digit" => some (.range '0' '9')
  | "graph" => some (.range '!' '~')
  | "lower" => some (.range 'a' 'z')
  | "print" => some (.range ' ' '~')
  | "punct" => some (ofRanges [('!', '/'), (':', '@'), ('[', '\x60'), ('{', '~')])
  | "space" => some (ofRanges [('\t', '\r'), (' ', ' ')])
  | "upper" => some (.range 'A' 'Z')
  | "word" => some (ofRanges [('0', '9'), ('A', 'Z'), ('_', '_'), ('a', 'z')])
  | "xdigit" => some (ofRanges [('0', '9'), ('A', 'F'), ('a', 'f')])
  | _ => none

theorem holds_single (a c : Char) : (single a).holds c = (a == c) := by
  have h : (a == c) = decide (a.toNat = c.toNat) := by
    rw [Bool.eq_iff_iff]
    simp only [beq_iff_eq, decide_eq_true_eq]
    exact ⟨fun h => by rw [h], fun h => Char.ext (UInt32.toNat_inj.1 h)⟩
  rw [h, Bool.eq_iff_iff]
  simp only [single, holds, Bool.and_eq_true, decide_eq_true_eq]
  omega

end CharSet

end Subscriptions.Pattern

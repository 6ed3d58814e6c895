import Subscriptions.Proofs.Syntax.Placing
import Subscriptions.Proofs.Syntax.Spelling

namespace Subscriptions

/-- A character behind this text is not escaped: an even number of backslashes is right before it. -/
def Unescaped (before : List Char) : Prop :=
  (before.reverse.takeWhile (· == '\\')).length % 2 = 0

/-- The text holds the character between the two parts, not escaped. -/
def SplitsAt (c : Char) (cs before after : List Char) : Prop :=
  cs = before ++ c :: after ∧ Unescaped before

/-- The text ends in the character, not escaped, and these behind it. -/
def EndsIn (c : Char) (after cs : List Char) : Prop := ∃ before, SplitsAt c cs before after

/-- The text holds the character, not escaped. -/
def Contains (c : Char) (cs : List Char) : Prop := ∃ before after, SplitsAt c cs before after

/-- A class opens in the text and does not close. -/
def InClass (cs : List Char) : Prop :=
  ∃ before after, SplitsAt '[' cs before after ∧ ¬ Contains ']' after

def TokenKind.literal? : TokenKind → Option Unclosed
  | .string => some .string
  | .template | .templateHead | .templateMiddle | .templateTail => some .template
  | .regex => some .regex
  | .word | .number | .punct | .endOfFile => none

/-- Behind its first character a literal of the kind ends as it should. -/
def TokenKind.Closes (kind : TokenKind) (opening : Char) (body : List Char) : Prop :=
  match kind with
  | .string => EndsIn opening [] body
  | .template | .templateTail => EndsIn '\x60' [] body
  | .templateHead | .templateMiddle => EndsIn '$' ['{'] body
  | .regex => ∃ pattern flags, SplitsAt '/' body pattern flags ∧ ¬ InClass pattern ∧
      flags.all Scanner.isWordPart = true
  | .word | .number | .punct | .endOfFile => True

def Token.Closed (t : Token) : Prop :=
  ∃ opening body, t.text.toList = opening :: body ∧ t.kind.Closes opening body

/-- What is wrong with a token, told by the token alone. -/
inductive Token.Faulty (t : Token) : Fault → Prop
  | unterminated {what : Unclosed} (hkind : t.kind.literal? = some what) (hopen : ¬ t.Closed) :
    Faulty t (.unterminated what t.span)
  | unexpectedChar {c : Char} (hkind : t.kind = .punct) (htext : t.text = String.singleton c)
    (hnone : t.text ∉ Scanner.punctuators) : Faulty t (.unexpectedChar c t.span)

def Span.Apart (s t : Span) : Prop := s.stop ≤ t.start ∨ t.stop ≤ s.start

def Fault.isOpenComment : Fault → Bool
  | .unterminated .blockComment _ => true
  | _ => false

section
variable {c d : Char} {cs before after : List Char}

theorem unescaped_nil : Unescaped [] := rfl

/-- What is in front of another character than a backslash does not count. -/
theorem unescaped_append_cons (before : List Char) (hd : d ≠ '\\') :
    Unescaped (before ++ d :: cs) ↔ Unescaped cs := by
  have hsplit : (before ++ d :: cs).reverse = cs.reverse ++ d :: before.reverse := by simp
  have hstop : (cs.reverse ++ d :: before.reverse).takeWhile (· == '\\') =
      cs.reverse.takeWhile (· == '\\') := by
    rw [List.takeWhile_append]
    split
    · rename_i hall
      simp [hd, (List.takeWhile_prefix _).eq_of_length hall]
    · rfl
  rw [Unescaped, Unescaped, hsplit, hstop]

theorem unescaped_cons (hd : d ≠ '\\') : Unescaped (d :: cs) ↔ Unescaped cs :=
  unescaped_append_cons [] hd

/-- A text of backslashes only, or up to the last other character. -/
theorem eq_backslashes_or_split (cs : List Char) :
    (∃ n, cs = List.replicate n '\\') ∨ ∃ before d after, cs = before ++ d :: after ∧ d ≠ '\\' := by
  by_cases hall : ∀ d ∈ cs, d = '\\'
  · exact .inl ⟨cs.length, List.eq_replicate_of_mem hall⟩
  · push Not at hall
    obtain ⟨d, hmem, hd⟩ := hall
    obtain ⟨before, after, rfl⟩ := List.append_of_mem hmem
    exact .inr ⟨before, d, after, rfl, hd⟩

theorem unescaped_replicate (n : Nat) : Unescaped (List.replicate n '\\') ↔ n % 2 = 0 := by
  simp [Unescaped]

/-- A backslash takes the next character with it. -/
theorem unescaped_escape : Unescaped ('\\' :: d :: cs) ↔ Unescaped cs := by
  rcases eq_backslashes_or_split cs with ⟨n, rfl⟩ | ⟨before, e, after, rfl, he⟩
  · by_cases hd : d = '\\'
    · have hmore : '\\' :: d :: List.replicate n '\\' = List.replicate (n + 2) '\\' := by
        rw [hd, List.replicate_succ, List.replicate_succ]
      rw [hmore, unescaped_replicate, unescaped_replicate]
      omega
    · exact unescaped_append_cons ['\\'] hd
  · rw [← List.cons_append, ← List.cons_append, unescaped_append_cons _ he, unescaped_append_cons _ he]

theorem not_unescaped_backslash : ¬ Unescaped ['\\'] := by
  simp [Unescaped]

theorem not_splitsAt_nil : ¬ SplitsAt c [] before after := fun h => by
  cases before <;> cases h.1

/-- Neither of the two characters of an escape is found. -/
theorem splitsAt_escape (hc : c ≠ '\\') : SplitsAt c ('\\' :: d :: cs) before after ↔
    ∃ more, before = '\\' :: d :: more ∧ SplitsAt c cs more after := by
  constructor
  · rintro ⟨htext, hbefore⟩
    match before, htext, hbefore with
    | [], htext, _ => exact absurd (List.cons.inj htext).1.symm hc
    | [_], htext, hbefore =>
      obtain ⟨rfl, -⟩ := List.cons.inj htext
      exact absurd hbefore not_unescaped_backslash
    | _ :: _ :: more, htext, hbefore =>
      simp only [List.cons_append, List.cons.injEq] at htext
      obtain ⟨rfl, rfl, rfl⟩ := htext
      exact ⟨more, rfl, rfl, unescaped_escape.mp hbefore⟩
  · rintro ⟨more, rfl, rfl, hmore⟩
    exact ⟨rfl, unescaped_escape.mpr hmore⟩

theorem splitsAt_cons (hd : d ≠ '\\') : SplitsAt c (d :: cs) before after ↔
    (d = c ∧ before = [] ∧ after = cs) ∨ ∃ more, before = d :: more ∧ SplitsAt c cs more after := by
  constructor
  · rintro ⟨htext, hbefore⟩
    cases before with
    | nil =>
      obtain ⟨rfl, rfl⟩ := List.cons.inj htext
      exact .inl ⟨rfl, rfl, rfl⟩
    | cons e more =>
      obtain ⟨rfl, rfl⟩ := List.cons.inj htext
      exact .inr ⟨more, rfl, rfl, (unescaped_cons hd).mp hbefore⟩
  · rintro (⟨rfl, rfl, rfl⟩ | ⟨more, rfl, rfl, hmore⟩)
    · exact ⟨rfl, unescaped_nil⟩
    · exact ⟨rfl, (unescaped_cons hd).mpr hmore⟩

/-- A backslash at the end takes nothing and is nothing else. -/
theorem not_splitsAt_backslash (hc : c ≠ '\\') : ¬ SplitsAt c ['\\'] before after := by
  rintro ⟨htext, -⟩
  cases before with
  | nil => exact hc (List.cons.inj htext).1.symm
  | cons d more => cases more <;> cases (List.cons.inj htext).2

theorem not_endsIn_nil : ¬ EndsIn c after [] := fun ⟨_, h⟩ => not_splitsAt_nil h

theorem endsIn_escape (hc : c ≠ '\\') : EndsIn c after ('\\' :: d :: cs) ↔ EndsIn c after cs := by
  simp only [EndsIn, splitsAt_escape hc]
  exact ⟨fun ⟨_, more, _, h⟩ => ⟨more, h⟩, fun ⟨more, h⟩ => ⟨_, more, rfl, h⟩⟩

theorem endsIn_cons (hd : d ≠ '\\') (hne : d :: cs ≠ c :: after) :
    EndsIn c after (d :: cs) ↔ EndsIn c after cs := by
  simp only [EndsIn, splitsAt_cons hd]
  constructor
  · rintro ⟨_, ⟨rfl, -, rfl⟩ | ⟨more, -, h⟩⟩
    · exact absurd rfl hne
    · exact ⟨more, h⟩
  · exact fun ⟨more, h⟩ => ⟨_, .inr ⟨more, rfl, h⟩⟩

theorem endsIn_self : EndsIn c after (c :: after) := ⟨[], rfl, unescaped_nil⟩

theorem not_endsIn_backslash (hc : c ≠ '\\') : ¬ EndsIn c after ['\\'] :=
  fun ⟨_, h⟩ => not_splitsAt_backslash hc h

/-- What is not followed by an escaped character, if it is a backslash, is the last character. -/
theorem eq_nil_of_backslash (hescape : ∀ e es, d = '\\' → cs = e :: es → False) (hd : d = '\\') :
    cs = [] := by
  cases cs with
  | nil => rfl
  | cons e es => exact (hescape e es hd rfl).elim

/-- A string is closed where it ends in its quote. -/
theorem closed_cutString (hc : c ≠ '\\') (cs : List Char) :
    (Scanner.cutString c cs).ending ≠ .unclosed ↔ EndsIn c [] (Scanner.cutString c cs).taken := by
  fun_induction Scanner.cutString c cs with
  | case1 d cs ih => exact ih.trans (endsIn_escape hc).symm
  | case2 d cs hescape hd =>
    obtain rfl := eq_of_beq hd
    obtain rfl := eq_nil_of_backslash hescape rfl
    exact iff_of_false (not_not.mpr rfl) (not_endsIn_backslash hc)
  | case3 => exact iff_of_false (not_not.mpr rfl) not_endsIn_nil
  | case4 d cs _ hd hline hquote =>
    obtain rfl := eq_of_beq hquote
    exact iff_of_true Scanner.Ending.noConfusion endsIn_self
  | case5 d cs _ hd _ hquote ih =>
    rw [beq_iff_eq] at hd hquote
    exact ih.trans (endsIn_cons hd fun h => hquote (List.cons.inj h).1).symm
  | case6 => exact iff_of_false (not_not.mpr rfl) not_endsIn_nil

/-- A template is closed where it ends in its quote, and cut at a substitution where it ends in the
opening of one. -/
theorem ending_cutTemplate (cs : List Char) :
    ((Scanner.cutTemplate cs).ending = .closed ↔
      EndsIn '\x60' [] (Scanner.cutTemplate cs).taken) ∧
    ((Scanner.cutTemplate cs).ending = .substitution ↔
      EndsIn '$' ['{'] (Scanner.cutTemplate cs).taken) := by
  have hsingle : ¬ EndsIn '$' ['{'] ['\x60'] := by
    rw [endsIn_cons (by decide) (by decide)]
    exact not_endsIn_nil
  have hdouble : ¬ EndsIn '\x60' [] ['$', '{'] := by
    rw [endsIn_cons (by decide) (by decide), endsIn_cons (by decide) (by decide)]
    exact not_endsIn_nil
  fun_induction Scanner.cutTemplate cs with
  | case1 d cs ih =>
    exact ⟨ih.1.trans (endsIn_escape (by decide)).symm, ih.2.trans (endsIn_escape (by decide)).symm⟩
  | case2 cs => exact ⟨iff_of_false Scanner.Ending.noConfusion hdouble, iff_of_true rfl endsIn_self⟩
  | case3 d cs _ _ hd =>
    obtain rfl := eq_of_beq hd
    exact ⟨iff_of_true rfl endsIn_self, iff_of_false Scanner.Ending.noConfusion hsingle⟩
  | case4 d cs hescape hopen hd ih =>
    by_cases hback : d = '\\'
    · obtain rfl := eq_nil_of_backslash hescape hback
      subst hback
      exact ⟨iff_of_false Scanner.Ending.noConfusion (not_endsIn_backslash (by decide)),
        iff_of_false Scanner.Ending.noConfusion (not_endsIn_backslash (by decide))⟩
    · rw [beq_iff_eq] at hd
      refine ⟨ih.1.trans (endsIn_cons hback fun h => hd (List.cons.inj h).1).symm,
        ih.2.trans (endsIn_cons hback fun h => ?_).symm⟩
      -- What is taken behind the sign is the start of the text, which opens no substitution.
      obtain ⟨hsign, hbrace⟩ := List.cons.inj h
      have happend := Scanner.cutTemplate_append cs
      rw [hbrace] at happend
      exact hopen _ hsign happend.symm
  | case5 => exact ⟨iff_of_false Scanner.Ending.noConfusion not_endsIn_nil,
      iff_of_false Scanner.Ending.noConfusion not_endsIn_nil⟩

theorem not_contains_nil : ¬ Contains c [] := fun ⟨_, _, h⟩ => not_splitsAt_nil h

theorem contains_escape (hc : c ≠ '\\') : Contains c ('\\' :: d :: cs) ↔ Contains c cs := by
  simp only [Contains, splitsAt_escape hc]
  exact ⟨fun ⟨_, after, more, _, h⟩ => ⟨more, after, h⟩, fun ⟨more, after, h⟩ => ⟨_, after, more, rfl, h⟩⟩

theorem contains_cons (hd : d ≠ '\\') : Contains c (d :: cs) ↔ d = c ∨ Contains c cs := by
  simp only [Contains, splitsAt_cons hd]
  constructor
  · rintro ⟨_, after, ⟨hdc, -⟩ | ⟨more, -, h⟩⟩
    · exact .inl hdc
    · exact .inr ⟨more, after, h⟩
  · rintro (hdc | ⟨more, after, h⟩)
    · exact ⟨_, _, .inl ⟨hdc, rfl, rfl⟩⟩
    · exact ⟨_, after, .inr ⟨more, rfl, h⟩⟩

theorem not_inClass_nil : ¬ InClass [] := fun ⟨_, _, h, _⟩ => not_splitsAt_nil h

theorem inClass_escape : InClass ('\\' :: d :: cs) ↔ InClass cs := by
  simp only [InClass, splitsAt_escape (show '[' ≠ '\\' by decide)]
  exact ⟨fun ⟨_, after, ⟨more, _, h⟩, hclose⟩ => ⟨more, after, h, hclose⟩,
    fun ⟨more, after, h, hclose⟩ => ⟨_, after, ⟨more, rfl, h⟩, hclose⟩⟩

theorem inClass_cons (hd : d ≠ '\\') :
    InClass (d :: cs) ↔ d = '[' ∧ ¬ Contains ']' cs ∨ InClass cs := by
  simp only [InClass, splitsAt_cons hd]
  constructor
  · rintro ⟨_, after, ⟨hopen, -, rfl⟩ | ⟨more, -, h⟩, hclose⟩
    · exact .inl ⟨hopen, hclose⟩
    · exact .inr ⟨more, after, h, hclose⟩
  · rintro (⟨hopen, hclose⟩ | ⟨more, after, h, hclose⟩)
    · exact ⟨_, _, .inl ⟨hopen, rfl, rfl⟩, hclose⟩
    · exact ⟨_, after, .inr ⟨more, rfl, h⟩, hclose⟩

/-- Behind the text a class is open, if one is open before it or not. -/
def StaysIn (inClass : Bool) (cs : List Char) : Prop :=
  InClass cs ∨ inClass = true ∧ ¬ Contains ']' cs

variable {inClass inClass' : Bool}

theorem staysIn_false : StaysIn false cs ↔ InClass cs :=
  or_iff_left fun h => Bool.false_ne_true h.1

theorem staysIn_nil : StaysIn inClass [] ↔ inClass = true := by
  simp [StaysIn, not_inClass_nil, not_contains_nil]

theorem staysIn_escape : StaysIn inClass ('\\' :: d :: cs) ↔ StaysIn inClass cs := by
  rw [StaysIn, StaysIn, inClass_escape, contains_escape (by decide)]

theorem staysIn_open : StaysIn inClass ('[' :: cs) ↔ StaysIn true cs := by
  simp only [StaysIn, inClass_cons (show '[' ≠ '\\' by decide),
    contains_cons (show '[' ≠ '\\' by decide)]
  simp only [true_and, show ('[' = ']') = False by decide, false_or]
  tauto

theorem staysIn_close : StaysIn inClass (']' :: cs) ↔ StaysIn false cs := by
  simp [StaysIn, inClass_cons, contains_cons]

theorem staysIn_cons (hd : d ≠ '\\') (hopen : d ≠ '[') (hclose : d ≠ ']') :
    StaysIn inClass (d :: cs) ↔ StaysIn inClass cs := by
  simp only [StaysIn, inClass_cons hd, contains_cons hd, hopen, hclose, false_and, false_or]

/-- The text ends in a slash outside of classes and flags behind it, where a class is open before it
or not. -/
def EndsRegex (inClass : Bool) (cs : List Char) : Prop :=
  ∃ pattern flags, SplitsAt '/' cs pattern flags ∧ ¬ StaysIn inClass pattern ∧
    flags.all Scanner.isWordPart = true

theorem not_endsRegex_nil : ¬ EndsRegex inClass [] := fun ⟨_, _, h, _⟩ => not_splitsAt_nil h

theorem endsRegex_escape : EndsRegex inClass ('\\' :: d :: cs) ↔ EndsRegex inClass cs := by
  simp only [EndsRegex, splitsAt_escape (show '/' ≠ '\\' by decide)]
  constructor
  · rintro ⟨_, flags, ⟨more, rfl, h⟩, hout, hflags⟩
    exact ⟨more, flags, h, mt staysIn_escape.mpr hout, hflags⟩
  · rintro ⟨more, flags, h, hout, hflags⟩
    exact ⟨_, flags, ⟨more, rfl, h⟩, mt staysIn_escape.mp hout, hflags⟩

/-- A character that is no end leaves a class open or not. -/
theorem endsRegex_cons (hd : d ≠ '\\') (hslash : d = '/' → inClass = true)
    (hin : ∀ pattern, StaysIn inClass (d :: pattern) ↔ StaysIn inClass' pattern) :
    EndsRegex inClass (d :: cs) ↔ EndsRegex inClass' cs := by
  simp only [EndsRegex, splitsAt_cons hd]
  constructor
  · rintro ⟨_, flags, ⟨hend, rfl, -⟩ | ⟨more, rfl, h⟩, hout, hflags⟩
    · exact absurd (staysIn_nil.mpr (hslash hend)) hout
    · exact ⟨more, flags, h, mt (hin more).mpr hout, hflags⟩
  · rintro ⟨more, flags, h, hout, hflags⟩
    exact ⟨_, flags, .inr ⟨more, rfl, h⟩, mt (hin more).mp hout, hflags⟩

/-- A regular expression is closed where it ends in a slash outside of classes, with flags. -/
theorem closed_cutRegex (inClass : Bool) (cs : List Char) :
    (Scanner.cutRegex inClass cs).ending ≠ .unclosed ↔
      EndsRegex inClass (Scanner.cutRegex inClass cs).taken := by
  fun_induction Scanner.cutRegex inClass cs with
  | case1 inClass d cs ih => exact ih.trans endsRegex_escape.symm
  | case2 => exact iff_of_false (not_not.mpr rfl) not_endsRegex_nil
  | case3 inClass d cs _ _ hopen ih =>
    obtain rfl := eq_of_beq hopen
    exact ih.trans (endsRegex_cons (by decide) (absurd · (by decide)) fun _ => staysIn_open).symm
  | case4 inClass d cs _ _ _ hclose ih =>
    obtain rfl := eq_of_beq hclose
    exact ih.trans (endsRegex_cons (by decide) (absurd · (by decide)) fun _ => staysIn_close).symm
  | case5 inClass d cs _ _ _ _ hend =>
    rw [Bool.and_eq_true, beq_iff_eq, Bool.not_eq_true'] at hend
    obtain ⟨rfl, rfl⟩ := hend
    have hout : ¬ StaysIn false [] := mt staysIn_nil.mp Bool.false_ne_true
    exact iff_of_true Scanner.Ending.noConfusion ⟨[], _, ⟨rfl, unescaped_nil⟩, hout, List.all_takeWhile⟩
  | case6 inClass d cs hescape _ hopen hclose hend ih =>
    rw [beq_iff_eq] at hopen hclose
    by_cases hback : d = '\\'
    · obtain rfl := eq_nil_of_backslash hescape hback
      subst hback
      refine iff_of_false (not_not.mpr rfl) ?_
      rintro ⟨_, _, h, -⟩
      exact not_splitsAt_backslash (by decide) h
    · refine ih.trans (endsRegex_cons hback (fun hslash => ?_) fun _ =>
        staysIn_cons hback hopen hclose).symm
      simpa [hslash] using hend
  | case7 => exact iff_of_false (not_not.mpr rfl) not_endsRegex_nil

end

namespace Scanner

open Text

/-- What is found wrong with the token is what is wrong with it. -/
def Judges (l : Lexeme) : Prop :=
  ∀ t : Token, t.kind = l.kind → t.text = String.ofList l.taken →
    ∀ f, l.fault.map (· t.span) = some f ↔ t.Faulty f

section
variable {braces outer : List Nat} {previous : Option Token} {c : Char} {cs : List Char} {t : Token}
  {f : Fault}

theorem closed_iff {body : List Char} (htext : t.text = String.ofList (c :: body)) :
    t.Closed ↔ t.kind.Closes c body := by
  rw [Token.Closed, htext, String.toList_ofList]
  constructor
  · rintro ⟨_, _, h, hcloses⟩
    obtain ⟨rfl, rfl⟩ := List.cons.inj h
    exact hcloses
  · exact fun hcloses => ⟨c, body, rfl, hcloses⟩

/-- Words, numbers and the end of the file are never wrong. -/
theorem not_faulty (hliteral : t.kind.literal? = none) (hpunct : t.kind ≠ .punct) :
    ¬ t.Faulty f := by
  rintro (⟨hkind, -⟩ | ⟨hkind, -, -⟩)
  · cases hliteral.symm.trans hkind
  · exact hpunct hkind

theorem judges_literal {kind : TokenKind} {what : Unclosed} {k : Cut}
    (hkind : kind.literal? = some what) (hcut : k.ending ≠ .unclosed ↔ kind.Closes c k.taken) :
    Judges (literalLexeme kind braces what c k) := by
  intro t ht htext f
  replace ht : t.kind = kind := ht
  have hliteral : t.kind.literal? = some what := by rw [ht, hkind]
  have hclosed : k.ending ≠ .unclosed ↔ t.Closed := by rw [hcut, closed_iff htext, ht]
  have hpunct : t.kind ≠ .punct := by
    intro hpunct
    rw [hpunct] at hliteral
    cases hliteral
  by_cases hending : k.ending = .unclosed
  · have hopen : ¬ t.Closed := mt hclosed.mpr (not_not.mpr hending)
    have hfault : (literalLexeme kind braces what c k).fault = some (.unterminated what) :=
      if_pos (beq_iff_eq.mpr hending)
    rw [hfault, Option.map_some, Option.some.injEq]
    constructor
    · rintro rfl
      exact .unterminated hliteral hopen
    · rintro (⟨hwhat, -⟩ | ⟨hkind, -, -⟩)
      · rw [Option.some.inj (hliteral.symm.trans hwhat)]
      · exact absurd hkind hpunct
  · have hfault : (literalLexeme kind braces what c k).fault = none :=
      if_neg (mt beq_iff_eq.mp hending)
    rw [hfault]
    refine iff_of_false nofun ?_
    rintro (⟨-, hopen⟩ | ⟨hkind, -, -⟩)
    · exact hopen (hclosed.mp hending)
    · exact hpunct hkind

/-- A template that is cut at no substitution ends in its quote or is not closed. -/
theorem closed_cutTemplate (h : ¬ ((cutTemplate cs).ending == .substitution) = true) :
    (cutTemplate cs).ending ≠ .unclosed ↔ EndsIn '\x60' [] (cutTemplate cs).taken := by
  rw [← (ending_cutTemplate cs).1]
  revert h
  cases (cutTemplate cs).ending <;> decide

theorem judges_substitution {kind : TokenKind} (hkind : kind = .templateHead ∨ kind = .templateMiddle)
    (h : ((cutTemplate cs).ending == .substitution) = true) :
    Judges (literalLexeme kind braces .template c (cutTemplate cs)) := by
  have hending := eq_of_beq h
  have hends := (ending_cutTemplate cs).2.mp hending
  have hopen : (cutTemplate cs).ending ≠ .unclosed := by
    rw [hending]
    exact Ending.noConfusion
  rcases hkind with rfl | rfl
  · exact judges_literal rfl (iff_of_true hopen hends)
  · exact judges_literal rfl (iff_of_true hopen hends)

theorem singleton_not_mem (h : punctuator? (c :: cs) = none) : String.singleton c ∉ punctuators := by
  intro hmem
  have hnone := List.findSome?_eq_none_iff.mp h _ hmem
  simp [afterStart?] at hnone

theorem judges_punct : Judges (punctLexeme braces c cs) := by
  intro t ht htext f
  rw [kind_punctLexeme] at ht
  have hliteral : t.kind.literal? = none := by rw [ht]; rfl
  unfold punctLexeme at htext ⊢
  split at htext
  · rename_i taken rest hfound
    obtain ⟨p, hp, hafter⟩ := List.exists_of_findSome?_eq_some hfound
    obtain ⟨_, -, heq⟩ := Option.map_eq_some_iff.mp hafter
    obtain ⟨rfl, -⟩ := Prod.mk.inj heq
    refine iff_of_false nofun ?_
    rintro (⟨hkind, -⟩ | ⟨-, -, hnone⟩)
    · cases hliteral.symm.trans hkind
    · rw [htext, String.ofList_toList] at hnone
      exact hnone hp
  · rename_i hnone
    rw [Option.map_some, Option.some.injEq]
    rw [← String.singleton_eq_ofList] at htext
    constructor
    · rintro rfl
      exact .unexpectedChar ht htext (htext ▸ singleton_not_mem hnone)
    · rintro (⟨hkind, -⟩ | ⟨-, hsingle, -⟩)
      · cases hliteral.symm.trans hkind
      · rw [htext] at hsingle
        rw [String.singleton_inj.mp hsingle]

theorem judges_lexeme : Judges (lexeme braces previous c cs) := by
  unfold lexeme
  split_ifs with _ _ hquote
  · intro t ht _ f
    exact iff_of_false nofun (not_faulty (by rw [ht]; rfl) (by rw [ht]; exact TokenKind.noConfusion))
  · intro t ht _ f
    exact iff_of_false nofun (not_faulty (by rw [ht]; rfl) (by rw [ht]; exact TokenKind.noConfusion))
  · refine judges_literal rfl (closed_cutString ?_ cs)
    rintro rfl
    exact absurd hquote (by decide)
  · unfold templateLexeme
    dsimp only
    split
    · exact judges_substitution (.inl rfl) ‹_›
    · exact judges_literal rfl (closed_cutTemplate ‹_›)
  · exact judges_punct
  · split
    · unfold templateRestLexeme
      dsimp only
      split
      · exact judges_substitution (.inr rfl) ‹_›
      · exact judges_literal rfl (closed_cutTemplate ‹_›)
    · exact judges_punct
  · refine judges_literal rfl ((closed_cutRegex false cs).trans ?_)
    simp only [EndsRegex, staysIn_false]
    rfl
  · exact judges_punct

theorem isBlank_of_mem_punctuator {p : String} (hp : p ∈ punctuators) {d : Char}
    (hd : d ∈ p.toList) : isBlank d = false := by
  have hall : punctuators.all (fun p => p.toList.all (!isBlank ·)) = true := by decide
  simpa using List.all_eq_true.mp (List.all_eq_true.mp hall p hp) d hd

/-- Where no blank comes first, only a literal takes one. -/
theorem isBlank_of_mem_taken (hc : isBlank c = false) :
    (lexeme braces previous c cs).kind.literal? = none →
      ∀ d ∈ (lexeme braces previous c cs).taken, isBlank d = false := by
  have hrest {q : Char → Bool} (hq : ∀ d, q d = true → isBlank d = false) :
      ∀ d ∈ c :: cs.takeWhile q, isBlank d = false :=
    List.forall_mem_cons.mpr
      ⟨hc, fun d hd => hq d (List.all_eq_true.mp List.all_takeWhile d hd)⟩
  apply lexeme_cases (P := fun l => l.kind.literal? = none → ∀ d ∈ l.taken, isBlank d = false)
  · exact fun _ _ => hrest fun _ => isBlank_of_isWordPart
  · exact fun _ => hrest fun _ => isBlank_of_isNumberPart
  · intro kind hkind braces what k hliteral
    replace hliteral : kind.literal? = none := hliteral
    simp only [List.mem_cons, List.not_mem_nil, or_false] at hkind
    rcases hkind with rfl | rfl | rfl | rfl | rfl | rfl <;> cases hliteral
  · intro braces _ d hd
    unfold punctLexeme at hd
    split at hd
    · rename_i taken rest hfound
      obtain ⟨p, hp, hafter⟩ := List.exists_of_findSome?_eq_some hfound
      obtain ⟨_, -, heq⟩ := Option.map_eq_some_iff.mp hafter
      obtain ⟨rfl, -⟩ := Prod.mk.inj heq
      exact isBlank_of_mem_punctuator hp hd
    · rw [List.mem_singleton.mp hd]
      exact hc

theorem isBlank_of_mem_scanFrom (fuel : Nat) (braces : List Nat) (previous : Option Token)
    (pos : Nat) (cs : List Char) : ∀ t ∈ (scanFrom fuel braces previous pos cs).tokens,
      t.kind.literal? = none → ∀ d ∈ t.text.toList, isBlank d = false := by
  induction fuel generalizing braces previous pos cs with
  | zero => nofun
  | succ fuel ih =>
    have hsolid := solid_skipTrivia .blank pos cs
    simp only [scanFrom]
    generalize skipTrivia .blank pos cs = gap at hsolid ⊢
    split
    · intro t ht _ d hd
      rw [List.mem_singleton.mp ht] at hd
      cases hd
    · rename_i c rest hrest
      intro t ht hliteral
      rcases List.mem_cons.mp ht with rfl | ht
      · rw [String.toList_ofList]
        exact isBlank_of_mem_taken (hsolid c rest hrest).1 hliteral
      · exact ih _ _ _ _ t ht hliteral

/-- The faults of the tokens, one for each that is wrong, and behind them what is wrong at the end. -/
inductive Judged (ending : List Fault) : List Token → List Fault → Prop
  | last : Judged ending [] ending
  | fine {t : Token} {ts : List Token} {fs : List Fault} (hfine : ∀ f, ¬ t.Faulty f)
    (hlater : Judged ending ts fs) : Judged ending (t :: ts) fs
  | faulty {t : Token} {f : Fault} {ts : List Token} {fs : List Fault} (hfaulty : t.Faulty f)
    (hlater : Judged ending ts fs) : Judged ending (t :: ts) (f :: fs)

variable {ending fs : List Fault} {ts : List Token} {g : Fault}

theorem span_of_faulty (h : t.Faulty f) : f.span = t.span := by
  cases h <;> rfl

/-- One fault at most is wrong with a token. -/
theorem faulty_unique (hf : t.Faulty f) (hg : t.Faulty g) : f = g := by
  cases hf with
  | unterminated hkind =>
    cases hg with
    | unterminated hkind' => rw [Option.some.inj (hkind.symm.trans hkind')]
    | unexpectedChar hpunct =>
      rw [hpunct] at hkind
      cases hkind
  | unexpectedChar hpunct htext =>
    cases hg with
    | unterminated hkind =>
      rw [hpunct] at hkind
      cases hkind
    | unexpectedChar _ htext' => rw [String.singleton_inj.mp (htext.symm.trans htext')]

namespace Judged

theorem mem (h : Judged ending ts fs) : f ∈ fs ↔ (∃ t ∈ ts, t.Faulty f) ∨ f ∈ ending := by
  induction h with
  | last => simp
  | fine hfine _ ih => simp [ih, hfine]
  | @faulty t g ts fs hfaulty _ ih =>
    have hone : f = g ↔ t.Faulty f := by
      constructor
      · rintro rfl
        exact hfaulty
      · exact fun h => faulty_unique h hfaulty
    rw [List.mem_cons, ih, List.exists_mem_cons_iff, hone, or_assoc]

/-- The faults stand in the order of the tokens. -/
theorem ordered (h : Judged ending ts fs)
    (hts : ts.Pairwise fun t u => t.span.stop ≤ u.span.start)
    (hbefore : ∀ t ∈ ts, ∀ f, t.Faulty f → ∀ g ∈ ending, t.span.stop ≤ g.span.start)
    (hending : ending.Pairwise fun f g => f.span.stop ≤ g.span.start) :
    fs.Pairwise fun f g => f.span.stop ≤ g.span.start := by
  induction h with
  | last => exact hending
  | fine _ _ ih => exact ih hts.of_cons fun t ht => hbefore t (List.mem_cons_of_mem _ ht)
  | @faulty t f ts fs hfaulty hlater ih =>
    refine List.pairwise_cons.mpr ⟨fun g hg => ?_,
      ih hts.of_cons fun t ht => hbefore t (List.mem_cons_of_mem _ ht)⟩
    rw [span_of_faulty hfaulty]
    rcases hlater.mem.mp hg with ⟨u, hu, hgu⟩ | hg
    · rw [span_of_faulty hgu]
      exact List.rel_of_pairwise_cons hts hu
    · exact hbefore t List.mem_cons_self f hfaulty g hg

/-- What holds of no fault of a token is counted at the end only. -/
theorem countP (h : Judged ending ts fs) {q : Fault → Bool}
    (hq : ∀ t f, Token.Faulty t f → q f = false) : fs.countP q = ending.countP q := by
  induction h with
  | last => rfl
  | fine _ _ ih => exact ih
  | faulty hfaulty _ ih => rw [List.countP_cons_of_neg (by simp [hq _ _ hfaulty]), ih]

end Judged

/-- Where a block comment is never closed, nothing follows. -/
theorem rest_of_unclosed {gap : Gap} {pos : Nat} :
    (skipTrivia gap pos cs).unclosed ≠ none → (skipTrivia gap pos cs).rest = [] := by
  fun_induction skipTrivia gap pos cs <;> simp_all +zetaDelta [Trivia.push, Trivia.breakLine]

/-- From an offset on a block comment may be open up to the end, behind all tokens. -/
def Open (pos : Nat) (ts : List Token) (stop : Nat) (ending : List Fault) : Prop :=
  ending = [] ∨ ∃ start, ending = [.unterminated .blockComment ⟨start, stop⟩] ∧ pos ≤ start ∧
    ∀ t ∈ ts, t.isEnd = false → t.span.stop ≤ start

/-- What is found wrong with a text from an offset on is what is wrong with its tokens, and at the
end a comment that is not closed. -/
theorem scanFrom_judged (fuel : Nat) (braces : List Nat) (previous : Option Token) (pos : Nat)
    (cs : List Char) (h : cs.length < fuel) :
    ∃ ending, Judged ending (scanFrom fuel braces previous pos cs).tokens
        (scanFrom fuel braces previous pos cs).faults ∧
      Open pos (scanFrom fuel braces previous pos cs).tokens (pos + byteLength cs) ending := by
  induction fuel generalizing braces previous pos cs with
  | zero => exact absurd h (Nat.not_lt_zero _)
  | succ fuel ih =>
    have hgap := skipTrivia_append .blank pos cs
    have hshorter := fun c rest => @length_rest_lt pos c cs rest
    have hunclosed := @rest_of_unclosed cs .blank pos
    have hstart := fun start => @start_of_unclosed cs .blank pos start
    simp only [scanFrom]
    -- What skipping and cutting do is in the facts; the texts they leave are arbitrary from here.
    generalize skipTrivia .blank pos cs = gap at hgap hshorter hunclosed hstart ⊢
    subst hgap
    split
    · rename_i hrest
      refine ⟨_, .fine (fun f => not_faulty rfl TokenKind.noConfusion) .last, ?_⟩
      rw [hrest, List.append_nil]
      cases hopen : gap.unclosed with
      | none => exact .inl rfl
      | some start =>
        rcases hstart start hopen with ⟨before, -, hbefore⟩ | ⟨_, hline⟩
        · refine .inr ⟨start, rfl, by omega, fun t ht hend => ?_⟩
          obtain rfl := List.mem_singleton.mp ht
          cases hend
        · cases hline
    · rename_i c rest hrest
      have hnone : gap.unclosed = none := by
        by_contra hsome
        exact List.cons_ne_nil _ _ (hrest.symm.trans (hunclosed hsome))
      obtain ⟨-, happend⟩ := lexeme_append braces previous c rest
      have hjudges := @judges_lexeme braces previous c rest
      have hlength := Nat.lt_of_lt_of_le (hshorter c rest hrest braces previous) (Nat.le_of_lt_succ h)
      generalize lexeme braces previous c rest = l at happend hjudges hlength ⊢
      rw [hnone, hrest, ← happend, byteLength_append, byteLength_append, ← Nat.add_assoc,
        ← Nat.add_assoc]
      generalize hstop : pos + byteLength gap.taken + byteLength l.taken = stop
      generalize htoken : Token.mk l.kind (String.ofList gap.taken) (String.ofList l.taken)
        ⟨pos + byteLength gap.taken, stop⟩ gap.newline = t
      obtain ⟨ending, hlater, hending⟩ := ih l.braces (some t) stop l.rest hlength
      refine ⟨ending, ?_, ?_⟩
      · have hfaulty := hjudges t (by rw [← htoken]) (by rw [← htoken])
        subst htoken
        cases hfault : l.fault with
        | none =>
          refine .fine (fun f hf => ?_) hlater
          have hsome := (hfaulty f).mpr hf
          rw [hfault] at hsome
          cases hsome
        | some a => exact .faulty ((hfaulty _).mp (by rw [hfault]; rfl)) hlater
      · rcases hending with rfl | ⟨start, rfl, hle, hbefore⟩
        · exact .inl rfl
        · refine .inr ⟨start, rfl, by omega, ?_⟩
          rintro u (_ | ⟨_, hu⟩) hend
          · rw [← htoken]
            exact hle
          · exact hbefore u hu hend

theorem not_isEnd_of_faulty (h : t.Faulty f) : t.isEnd = false := by
  rw [Token.isEnd, beq_eq_false_iff_ne]
  intro hend
  exact not_faulty (by rw [hend]; rfl) (by rw [hend]; exact TokenKind.noConfusion) h

/-- Only the trivia hold comments. -/
theorem isOpenComment_of_faulty (h : t.Faulty f) : f.isOpenComment = false := by
  cases h with
  | unterminated hkind =>
    cases hliteral : t.kind <;> rw [hliteral] at hkind <;> cases hkind <;> rfl
  | unexpectedChar => rfl

/-- No two tokens stand at the place of one that takes some room. -/
theorem Tiled.eq_of_span {pos : Nat} {u : Token} (h : Tiled pos cs ts) (ht : t ∈ ts) (hu : u ∈ ts)
    (hend : u.isEnd = false) (hspan : u.span = t.span) : u = t := by
  by_contra hne
  have hroom := h.ordered.2 u hu hend
  have hapart : ts.Pairwise fun t u => t.span.Apart u.span := h.ordered.1.imp .inl
  have hsymm : Std.Symm fun t u : Token => t.span.Apart u.span := ⟨fun _ _ => Or.symm⟩
  rcases hapart.forall hu ht hne with hle | hle
  · rw [← hspan] at hle
    omega
  · rw [← hspan] at hle
    omega

section
variable {pos stop : Nat} {span : Span} {what : Unclosed}

namespace Open

/-- At the end nothing but a comment is reported. -/
theorem eq_comment (h : Open pos ts stop ending) (hf : f ∈ ending) :
    ∃ start, f = .unterminated .blockComment ⟨start, stop⟩ := by
  rcases h with rfl | ⟨start, rfl, -, -⟩
  · cases hf
  · exact ⟨start, List.mem_singleton.mp hf⟩

theorem length_le (h : Open pos ts stop ending) : ending.length ≤ 1 := by
  rcases h with rfl | ⟨start, rfl, -, -⟩
  · exact Nat.zero_le _
  · exact Nat.le_refl _

theorem behind (h : Open pos ts stop ending) (ht : t ∈ ts) (hend : t.isEnd = false)
    (hf : f ∈ ending) : t.span.stop ≤ f.span.start := by
  rcases h with rfl | ⟨start, rfl, -, hbefore⟩
  · cases hf
  · rw [List.mem_singleton.mp hf]
    exact hbefore t ht hend

theorem pairwise (h : Open pos ts stop ending) :
    ending.Pairwise fun f g => f.span.stop ≤ g.span.start := by
  rcases h with rfl | ⟨start, rfl, -, -⟩
  · exact .nil
  · exact List.pairwise_singleton _ _

end Open

namespace Judged

variable (hjudged : Judged ending ts fs) (hopen : Open pos ts stop ending)
include hjudged hopen

theorem unterminated_iff (htiled : Tiled pos cs ts) (ht : t ∈ ts) (hwhat : what ≠ .blockComment) :
    .unterminated what t.span ∈ fs ↔ t.kind.literal? = some what ∧ ¬ t.Closed := by
  refine hjudged.mem.trans ⟨?_, fun h => .inl ⟨t, ht, .unterminated h.1 h.2⟩⟩
  rintro (⟨u, hu, hfaulty⟩ | hend)
  · have hspan : u.span = t.span := (span_of_faulty hfaulty).symm
    obtain rfl := htiled.eq_of_span ht hu (not_isEnd_of_faulty hfaulty) hspan
    cases hfaulty with
    | unterminated hkind hopen => exact ⟨hkind, hopen⟩
  · obtain ⟨start, hcomment⟩ := hopen.eq_comment hend
    injection hcomment with hcomment
    exact absurd hcomment hwhat

theorem unexpectedChar_iff : .unexpectedChar c span ∈ fs ↔ ∃ t ∈ ts, t.span = span ∧
    t.kind = .punct ∧ t.text = String.singleton c ∧ t.text ∉ punctuators := by
  refine hjudged.mem.trans ⟨?_, ?_⟩
  · rintro (⟨t, ht, hfaulty⟩ | hend)
    · cases hfaulty with
      | unexpectedChar hkind htext hnone => exact ⟨t, ht, rfl, hkind, htext, hnone⟩
    · obtain ⟨start, hcomment⟩ := hopen.eq_comment hend
      cases hcomment
  · rintro ⟨t, ht, rfl, hkind, htext, hnone⟩
    exact .inl ⟨t, ht, .unexpectedChar hkind htext hnone⟩

theorem exists_faulty (hf : f ∈ fs) (hclosed : f.isOpenComment = false) : ∃ t ∈ ts, t.Faulty f := by
  refine (hjudged.mem.mp hf).resolve_right fun hend => ?_
  obtain ⟨start, rfl⟩ := hopen.eq_comment hend
  cases hclosed

theorem countP_isOpenComment : fs.countP Fault.isOpenComment ≤ 1 := by
  rw [hjudged.countP fun _ _ => isOpenComment_of_faulty]
  exact (List.countP_le_length ..).trans hopen.length_le

theorem stop_of_isOpenComment (hf : f ∈ fs) (hcomment : f.isOpenComment = true) :
    f.span.stop = stop := by
  rcases hjudged.mem.mp hf with ⟨t, -, hfaulty⟩ | hend
  · rw [isOpenComment_of_faulty hfaulty] at hcomment
    cases hcomment
  · obtain ⟨start, rfl⟩ := hopen.eq_comment hend
    rfl

theorem pairwise (htiled : Tiled pos cs ts) :
    fs.Pairwise fun f g => f.span.stop ≤ g.span.start :=
  hjudged.ordered htiled.ordered.1
    (fun _ ht _ hfaulty _ hg => hopen.behind ht (not_isEnd_of_faulty hfaulty) hg) hopen.pairwise

end Judged

end

end

end Scanner

open Scanner

/-- A token that is no literal holds no blank. -/
theorem isBlank_of_mem_token {source : List Char} {t : Token} (ht : t ∈ (tokenize source).tokens)
    (h : t.kind.literal? = none) : ∀ d ∈ t.text.toList, Text.isBlank d = false :=
  isBlank_of_mem_scanFrom _ _ _ _ _ t ht h

/-- The faults of the scanner: literals that do not end as one of their kind should and characters
that are no token, each with the place of its token, and one comment at most that runs to the end.
They stand in the order of the source. -/
theorem tokenize_faults_exact (source : List Char) :
    (∀ t ∈ (tokenize source).tokens, ∀ what, what ≠ .blockComment →
      (.unterminated what t.span ∈ (tokenize source).faults ↔
        t.kind.literal? = some what ∧ ¬ t.Closed)) ∧
    (∀ c span, .unexpectedChar c span ∈ (tokenize source).faults ↔
      ∃ t ∈ (tokenize source).tokens, t.span = span ∧ t.kind = .punct ∧
        t.text = String.singleton c ∧ t.text ∉ punctuators) ∧
    (∀ f ∈ (tokenize source).faults, f.isOpenComment = false →
      ∃ t ∈ (tokenize source).tokens, t.Faulty f) ∧
    (tokenize source).faults.countP Fault.isOpenComment ≤ 1 ∧
    (∀ f ∈ (tokenize source).faults, f.isOpenComment = true → f.span.stop = byteLength source) ∧
    (tokenize source).faults.Pairwise fun f g => f.span.stop ≤ g.span.start := by
  obtain ⟨ending, hjudged, hopen⟩ :=
    scanFrom_judged (source.length + 1) [] none 0 source (Nat.lt_succ_self _)
  have htiled := tiled_tokenize source
  refine ⟨fun t ht what hwhat => hjudged.unterminated_iff hopen htiled ht hwhat,
    fun c span => hjudged.unexpectedChar_iff hopen, fun f hf => hjudged.exists_faulty hopen hf,
    hjudged.countP_isOpenComment hopen, fun f hf hcomment => ?_, hjudged.pairwise hopen htiled⟩
  rw [hjudged.stop_of_isOpenComment hopen hf hcomment, Nat.zero_add]

end Subscriptions

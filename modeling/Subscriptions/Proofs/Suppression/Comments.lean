import Subscriptions.Proofs.Suppression.Listing
import Subscriptions.Proofs.Suppression.Reading
import Subscriptions.Proofs.Syntax.Slashes

namespace Subscriptions

open Text Scanner

theorem Token.gap_contains_iff {t : Token} {s : Span} :
    t.gap.contains s = true ↔ t.gap.start ≤ s.start ∧ s.stop ≤ t.span.start := by
  simp only [Span.contains, Bool.and_eq_true, decide_eq_true_eq]
  exact Iff.rfl

def InGap (source : List Char) (s : Span) : Prop :=
  ∃ t ∈ (tokenize source).tokens, t.gap.contains s = true

/-- The span starts inside of a string, a template or a regular expression. -/
def OpensInLiteral (source : List Char) (s : Span) : Prop :=
  ∃ t ∈ (tokenize source).tokens,
    t.kind.isLiteral = true ∧ t.span.start ≤ s.start ∧ s.start < t.span.stop

def LeavesGap (source : List Char) (s : Span) : Prop :=
  ∃ t ∈ (tokenize source).tokens,
    t.gap.start ≤ s.start ∧ s.start < t.span.start ∧ t.span.start < s.stop

section
variable {source tail : List Char} {s : Span} {sign : Char}

/-- What opens like a comment is held by a token, in it or before it. -/
theorem exists_holds (hs : s.Covers 0 source ('/' :: sign :: tail))
    (hsign : sign = '/' ∨ sign = '*') : ∃ t ∈ (tokenize source).tokens, ∃ after,
      t.Holds s.start ('/' :: sign :: tail ++ after) := by
  obtain ⟨before, after, hsource, hstart, -⟩ := hs
  have htext : source = before ++ '/' :: sign :: (tail ++ after) := by simp [hsource]
  obtain ⟨t, ht, hholds⟩ :=
    holds_opening (source.length + 1) [] none 0 before hsign htext (Nat.lt_succ_self _)
  rw [← hstart] at hholds
  exact ⟨t, ht, after, hholds⟩

/-- In the gap before a token there is no other token. -/
theorem not_opensInLiteral {t : Token} (ht : t ∈ (tokenize source).tokens)
    (hstart : t.gap.start ≤ s.start) (hstop : s.start < t.span.start) :
    ¬ OpensInLiteral source s := by
  rintro ⟨u, hu, -, hle, hlt⟩
  rcases (tiled_tokenize source).apart ht hu with hapart | hapart
  · omega
  · omega

/-- The gaps before two tokens do not overlap. -/
theorem gap_unique {t u : Token} (ht : t ∈ (tokenize source).tokens)
    (hu : u ∈ (tokenize source).tokens) {n : Nat} (htn : t.gap.start ≤ n) (hnt : n < t.span.start)
    (hun : u.gap.start ≤ n) (hnu : n < u.span.start) : t.span.start = u.span.start := by
  have htiled := tiled_tokenize source
  have htu := htiled.apart ht hu
  have hut := htiled.apart hu ht
  have htstop := htiled.gap_bounds ht
  have hustop := htiled.gap_bounds hu
  omega

/-- What opens like a comment is in one, unless it opens in a literal or goes on behind its comment.
-/
theorem inGap_iff (hs : s.Covers 0 source ('/' :: sign :: tail)) (hsign : sign = '/' ∨ sign = '*') :
    InGap source s ↔ ¬ OpensInLiteral source s ∧ ¬ LeavesGap source s := by
  obtain ⟨t, ht, after, hholds⟩ := exists_holds hs hsign
  obtain ⟨_, _, -, -, hstop⟩ := hs
  have hsize := byteLength_pos (List.cons_ne_nil '/' (sign :: tail))
  constructor
  · rintro ⟨u, hu, hcontains⟩
    obtain ⟨hle, hge⟩ := Token.gap_contains_iff.mp hcontains
    refine ⟨not_opensInLiteral hu hle (by omega), ?_⟩
    rintro ⟨v, hv, hvle, hvlt, hleaves⟩
    have hsame := gap_unique hu hv hle (by omega) hvle hvlt
    omega
  · rintro ⟨hliteral, hleaves⟩
    rcases hholds with hin | ⟨lead, rest, hlead, hoffset, hne, -⟩
    · exact absurd ⟨t, ht, hin⟩ hliteral
    · obtain ⟨-, hgap, -⟩ := (tiled_tokenize source).gap_bounds ht
      have hrest := byteLength_pos hne
      rw [hlead, byteLength_append] at hgap
      have hinside : s.stop ≤ t.span.start := by
        by_contra hlt
        exact hleaves ⟨t, ht, by omega, by omega, by omega⟩
      exact ⟨t, ht, Token.gap_contains_iff.mpr ⟨by omega, hinside⟩⟩

/-- Short of the end of the source there is no end of the file. -/
theorem isEnd_of_start_lt {t : Token} (ht : t ∈ (tokenize source).tokens)
    (hlt : t.span.start < byteLength source) : t.isEnd = false := by
  have htiled := tiled_tokenize source
  obtain ⟨front, e, htokens, -, hfront⟩ := htiled.eq_append_end
  rw [htokens] at ht htiled
  rcases List.mem_append.mp ht with hmem | hmem
  · exact hfront t hmem
  · obtain rfl := List.mem_singleton.mp hmem
    have hspan := htiled.span_end
    rw [hspan, Nat.zero_add] at hlt
    exact absurd hlt (Nat.lt_irrefl _)

/-- What leaves its comment takes the slash at the end of a block comment with it, or starts there.
-/
theorem slash_of_leavesGap (hs : s.Covers 0 source ('/' :: sign :: tail))
    (hsign : sign = '/' ∨ sign = '*') (hline : '\n' ∉ tail) (h : LeavesGap source s) :
    '/' ∈ tail ∨ ∃ t ∈ (tokenize source).tokens, s.start + 1 = t.span.start := by
  obtain ⟨u, hu, hle, hlt, hleaves⟩ := h
  obtain ⟨t, ht, after, hholds⟩ := exists_holds hs hsign
  have hinside := hs.safe.inside
  obtain ⟨_, _, -, -, hstop⟩ := hs
  rcases hholds with hin | ⟨lead, rest, hlead, hoffset, hne, hprefix⟩
  · exact absurd ⟨t, ht, hin⟩ (not_opensInLiteral hu hle hlt)
  · obtain ⟨-, hgap, -⟩ := (tiled_tokenize source).gap_bounds ht
    have hrest := byteLength_pos hne
    rw [hlead, byteLength_append] at hgap
    have hsame := gap_unique ht hu (by omega) (by omega) hle hlt
    have hpart : rest <+: '/' :: sign :: tail := by
      rcases List.prefix_or_prefix_of_prefix hprefix (List.prefix_append _ after) with hp | hp
      · exact hp
      · have hlong := byteLength_le_of_prefix hp
        omega
    have hend : t.isEnd = false := isEnd_of_start_lt ht (by omega)
    have hfiller := (led_of_mem_scanFrom _ _ _ _ _ t ht).filler
    rw [hend, hlead] at hfiller
    obtain ⟨d, rest, rfl⟩ := List.exists_cons_of_ne_nil hne
    obtain ⟨rfl, hbehind⟩ := List.cons_prefix_cons.mp hpart
    cases rest with
    | nil =>
      have hslash : byteLength ['/'] = 1 := rfl
      rw [hslash] at hgap
      exact .inr ⟨t, ht, by omega⟩
    | cons e rest =>
      obtain ⟨rfl, hin⟩ := List.cons_prefix_cons.mp hbehind
      have hfree : '\n' ∉ rest := fun hmem => hline (hin.subset hmem)
      have hslash := hfiller.slash_behind hsign rfl hfree
      exact .inl (hin.subset hslash)

/-- Where no comment holds a slash, what opens like one is in a literal. -/
theorem opensInLiteral_of_gaps (hs : s.Covers 0 source ('/' :: sign :: tail))
    (hsign : sign = '/' ∨ sign = '*') (hgaps : ∀ t ∈ (tokenize source).tokens, '/' ∉ t.lead.toList) :
    OpensInLiteral source s := by
  obtain ⟨t, ht, after, hholds⟩ := exists_holds hs hsign
  rcases hholds with hin | ⟨lead, rest, hlead, -, hne, hprefix⟩
  · exact ⟨t, ht, hin⟩
  · obtain ⟨d, rest, rfl⟩ := List.exists_cons_of_ne_nil hne
    obtain ⟨rfl, -⟩ := List.cons_prefix_cons.mp hprefix
    exact absurd (by simp [hlead]) (hgaps t ht)

end

namespace Suppressions

open Directive

theorem Found.opening {marker : String} {source : List Char} {s : Span} {d : Directive}
    (h : Found marker source s d) : ∃ sign tail, s.Covers 0 source ('/' :: sign :: tail) ∧
      (sign = '/' ∨ sign = '*') ∧ '\n' ∉ tail ∧ ('/' ∈ tail → '/' ∈ marker.toList) := by
  obtain ⟨n, k, line, head, -, hline, -, hprefix, hhead, hcovers⟩ := h
  obtain ⟨sign, tail, rfl, hsign, hslash⟩ := hhead.opening
  obtain ⟨_, _, -, -, -, hfree⟩ := exists_ended_of_line hline
  refine ⟨sign, tail, hcovers, hsign, fun hmem => hfree ?_, hslash⟩
  have hin : '\n' ∈ line.drop k := hprefix.subset (by simp [hmem])
  exact List.mem_of_mem_drop hin

/-- The disables that a source writes are those of the directives that are found in it, and the
disables that are listed are for the same rules and lines. Such a directive is in
a comment unless it opens in a string, a template or a regular expression, or goes on behind its
comment; for that the marker has a slash in it, or else the directive takes the slash that ends a
block comment for the first one of a line comment. -/
theorem directives_placed (marker : String) (source : List Char) :
    (∀ e, e ∈ written marker source ↔
      ∃ s d, Found marker source s d ∧ e ∈ ofDirective (lineColumn source s.start).1 d) ∧
    (∀ id line, Lists (ofSource marker source).all id line ↔
      Lists (written marker source) id line) ∧
    ∀ s d, Found marker source s d →
      (InGap source s ↔ ¬ OpensInLiteral source s ∧ ¬ LeavesGap source s) ∧
      (LeavesGap source s →
        '/' ∈ marker.toList ∨ ∃ t ∈ (tokenize source).tokens, s.start + 1 = t.span.start) := by
  refine ⟨fun e => mem_written_iff, fun id line => (holds_ofSource marker source).lists_all,
    fun s d hfound => ?_⟩
  obtain ⟨sign, tail, hcovers, hsign, hline, hslash⟩ := hfound.opening
  refine ⟨inGap_iff hcovers hsign, fun hleaves => ?_⟩
  exact (slash_of_leavesGap hcovers hsign hline hleaves).imp_left hslash

/-- A source whose only directive is a line of a template. -/
def templateSource : List Char := "const s = `\n// subtrack-disable-file all\n`;".toList

theorem template_disables : ∃ e ∈ (ofSource defaultMarker templateSource).all,
    ∀ s d, Found defaultMarker templateSource s d →
      e ∈ ofDirective (lineColumn templateSource s.start).1 d →
        OpensInLiteral templateSource s ∧ ¬ InGap templateSource s := by
  have hgaps : ∀ t ∈ (tokenize templateSource).tokens, '/' ∉ t.lead.toList := by decide
  have hlisted : ⟨0, "all", none⟩ ∈ (ofSource defaultMarker templateSource).all := by
    decide +kernel
  refine ⟨_, hlisted, fun s d hfound _ => ?_⟩
  obtain ⟨sign, tail, hcovers, hsign, -⟩ := hfound.opening
  have hliteral := opensInLiteral_of_gaps hcovers hsign hgaps
  exact ⟨hliteral, fun hgap => ((inGap_iff hcovers hsign).mp hgap).1 hliteral⟩

end Suppressions

end Subscriptions

import Subscriptions.Text.Classes

namespace Subscriptions.Text

/-- The text without the characters of a class at its end. -/
def dropEnd (p : Char → Bool) : List Char → List Char
  | [] => []
  | c :: cs =>
    match dropEnd p cs with
    | [] => if p c then [] else [c]
    | d :: ds => c :: d :: ds

/-- The text without the characters of a class at both ends. -/
def strip (p : Char → Bool) (cs : List Char) : List Char := dropEnd p (cs.dropWhile p)

/-- The text without blanks at both ends. -/
def trim (s : String) : String := String.ofList (strip isBlank s.toList)

theorem dropEnd_append_dropped (p : Char → Bool) (cs : List Char) :
    ∃ dropped, cs = dropEnd p cs ++ dropped ∧ ∀ c ∈ dropped, p c = true := by
  induction cs with
  | nil => exact ⟨[], rfl, by simp⟩
  | cons c cs ih =>
    obtain ⟨dropped, hcs, hp⟩ := ih
    rw [dropEnd]
    cases h : dropEnd p cs with
    | nil =>
      have hd : cs = dropped := by simpa [h] using hcs
      by_cases hc : p c = true
      · refine ⟨c :: dropped, by simp [hc, hd], ?_⟩
        intro d hm
        rcases List.mem_cons.1 hm with rfl | hm
        · exact hc
        · exact hp d hm
      · exact ⟨dropped, by simp [hc, hd], hp⟩
    | cons d ds =>
      have hd : cs = d :: ds ++ dropped := by simpa [h] using hcs
      exact ⟨dropped, by simp [hd], hp⟩

/-- Nothing is cut where no character of the class stands at an end. -/
theorem strip_eq_self {p : Char → Bool} {cs : List Char} (hfirst : ∀ c ∈ cs.head?, p c = false)
    (hlast : ∀ c ∈ cs.getLast?, p c = false) : strip p cs = cs := by
  have hstart : cs.dropWhile p = cs := by
    cases cs with
    | nil => rfl
    | cons c cs => exact List.dropWhile_cons_of_neg (by simp [hfirst c rfl])
  obtain ⟨dropped, hcs, hp⟩ := dropEnd_append_dropped p cs
  rw [strip, hstart]
  cases hd : dropped.getLast? with
  | none =>
    rw [List.getLast?_eq_none_iff.mp hd, List.append_nil] at hcs
    exact hcs.symm
  | some c =>
    have hlast' : cs.getLast? = some c := by
      rw [hcs, List.getLast?_append, hd]
      rfl
    have hmem := hp c (List.mem_of_getLast? hd)
    rw [hlast c hlast'] at hmem
    cases hmem

end Subscriptions.Text

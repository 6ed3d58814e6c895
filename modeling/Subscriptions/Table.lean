namespace Subscriptions

section
variable {κ α : Type} [BEq κ] {name other : κ}

/-- Puts an entry into a table, in place of the entry of that name if there is one. -/
def putEntry (name : κ) (a : α) : List (κ × α) → List (κ × α)
  | [] => [(name, a)]
  | (n, b) :: es => if n == name then (n, a) :: es else (n, b) :: putEntry name a es

theorem lookup_putEntry_self [LawfulBEq κ] (name : κ) (a : α) (es : List (κ × α)) :
    (putEntry name a es).lookup name = some a := by
  induction es with
  | nil => simp [putEntry]
  | cons e es ih =>
    obtain ⟨n, b⟩ := e
    by_cases h : n = name
    · simp [putEntry, h]
    · have hne : (name == n) = false := by rw [beq_eq_false_iff_ne]; exact Ne.symm h
      simp [putEntry, h, List.lookup_cons, hne, ih]

theorem lookup_putEntry_of_ne [LawfulBEq κ] (h : other ≠ name) (a : α) (es : List (κ × α)) :
    (putEntry name a es).lookup other = es.lookup other := by
  induction es with
  | nil => simp [putEntry, List.lookup_cons, beq_eq_false_iff_ne.2 h]
  | cons e es ih =>
    obtain ⟨n, b⟩ := e
    by_cases hn : n = name
    · subst hn
      simp [putEntry, List.lookup_cons, beq_eq_false_iff_ne.2 h]
    · by_cases ho : other = n
      · simp [putEntry, hn, ho]
      · simp [putEntry, hn, List.lookup_cons, beq_eq_false_iff_ne.2 ho, ih]

end

end Subscriptions

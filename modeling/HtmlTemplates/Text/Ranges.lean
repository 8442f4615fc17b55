/-!
Membership in a table of code point ranges.

A table of a character property lists closed ranges in increasing order, each ending below
the start of the next. A look-up walks the table only as far as the first range that does
not end below the code point: the code point lies in the table exactly when it lies in that
range.
-/
namespace HtmlTemplates.Text

/-- Whether `n` lies in one of `ranges`, closed ranges in increasing order. -/
def inSortedRanges (n : Nat) : List (Nat × Nat) → Bool
  | [] => false
  | (lo, hi) :: rest => if n ≤ hi then lo ≤ n else inSortedRanges n rest

/-- Whether each range is well formed and ends below the start of the next. -/
def isSortedRanges : List (Nat × Nat) → Bool
  | [] => true
  | [(lo, hi)] => lo ≤ hi
  | (lo, hi) :: (lo', hi') :: rest => lo ≤ hi && hi < lo' && isSortedRanges ((lo', hi') :: rest)

theorem le_of_isSortedRanges {lo hi : Nat} {rest : List (Nat × Nat)}
    (h : isSortedRanges ((lo, hi) :: rest) = true) : lo ≤ hi := by
  cases rest with
  | nil => simpa [isSortedRanges] using h
  | cons r rest =>
    simp only [isSortedRanges, Bool.and_eq_true, decide_eq_true_eq] at h
    exact h.1.1

/-- In a sorted table every range after the first starts above the end of the first. -/
theorem lt_of_isSortedRanges {lo hi : Nat} {rest : List (Nat × Nat)}
    (h : isSortedRanges ((lo, hi) :: rest) = true) : ∀ r ∈ rest, hi < r.1 := by
  induction rest generalizing lo hi with
  | nil => simp
  | cons r rest ih =>
    obtain ⟨lo', hi'⟩ := r
    simp only [isSortedRanges, Bool.and_eq_true, decide_eq_true_eq] at h
    obtain ⟨⟨-, hlt⟩, hrest⟩ := h
    have hle := le_of_isSortedRanges hrest
    intro r hr
    rcases List.mem_cons.1 hr with rfl | hr
    · exact hlt
    · have := ih hrest r hr
      omega

/-- On a sorted table the search that stops early agrees with a look at every range. -/
theorem inSortedRanges_eq_any {rs : List (Nat × Nat)} (h : isSortedRanges rs = true) (n : Nat) :
    inSortedRanges n rs = rs.any fun r => r.1 ≤ n && n ≤ r.2 := by
  induction rs with
  | nil => rfl
  | cons r rest ih =>
    obtain ⟨lo, hi⟩ := r
    have hlt := lt_of_isSortedRanges h
    have hrest : isSortedRanges rest = true := by
      cases rest with
      | nil => rfl
      | cons r' rest' =>
        simp only [isSortedRanges, Bool.and_eq_true] at h
        exact h.2
    simp only [inSortedRanges, List.any_cons]
    by_cases hn : n ≤ hi
    · have hnone : (rest.any fun r => r.1 ≤ n && n ≤ r.2) = false := by
        simp only [List.any_eq_false, Bool.and_eq_true, decide_eq_true_eq, not_and]
        intro r hr h1
        have := hlt r hr
        omega
      simp [hn, hnone]
    · simp [hn, ih hrest]

example : inSortedRanges 5 [(0, 2), (4, 6)] = true := by decide
example : inSortedRanges 3 [(0, 2), (4, 6)] = false := by decide
example : inSortedRanges 7 [(0, 2), (4, 6)] = false := by decide

end HtmlTemplates.Text

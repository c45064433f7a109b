/-!
Character properties as tables of code point ranges.

A table lists closed intervals of code points in increasing order.  `Ranges.contains`
walks the table and stops at the first interval that starts above the code point.
-/

namespace TagTemplate.Text

abbrev Ranges := List (Nat × Nat)

def Ranges.contains : Ranges → Nat → Bool
  | [], _ => false
  | (low, high) :: rest, code =>
      if code < low then false
      else if code ≤ high then true
      else Ranges.contains rest code

theorem Ranges.exists_of_contains {ranges : Ranges} {code : Nat}
    (h : ranges.contains code = true) :
    ∃ range ∈ ranges, range.1 ≤ code ∧ code ≤ range.2 := by
  induction ranges with
  | nil => simp [contains] at h
  | cons range rest ih =>
      obtain ⟨low, high⟩ := range
      simp only [contains] at h
      split at h
      · contradiction
      · split at h
        · exact ⟨(low, high), by simp, by simp; omega⟩
        · obtain ⟨range, hmem, hrange⟩ := ih h
          exact ⟨range, List.mem_cons_of_mem _ hmem, hrange⟩

end TagTemplate.Text

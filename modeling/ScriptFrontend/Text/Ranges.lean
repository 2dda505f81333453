set_option autoImplicit false

namespace ScriptFrontend.Text

namespace Ranges

def isOrderedFrom : Nat → List (Nat × Nat) → Bool
  | _, [] => true
  | start, (low, high) :: rest =>
    decide (start ≤ low) && decide (low ≤ high) && isOrderedFrom (high + 2) rest

def search : List (Nat × Nat) → Nat → Bool
  | [], _ => false
  | (low, high) :: rest, n => decide (low ≤ n) && (decide (n ≤ high) || search rest n)

theorem le_of_search {parts : List (Nat × Nat)} {start n : Nat} (ho : isOrderedFrom start parts)
    (h : search parts n) : start ≤ n := by
  cases parts with
  | nil => simp [search] at h
  | cons r rest =>
    simp [search, isOrderedFrom] at ho h
    omega

theorem search_iff {parts : List (Nat × Nat)} {start : Nat} (ho : isOrderedFrom start parts)
    (n : Nat) : search parts n ↔ ∃ r ∈ parts, r.1 ≤ n ∧ n ≤ r.2 := by
  induction parts generalizing start with
  | nil => simp [search]
  | cons r rest ih =>
    obtain ⟨low, high⟩ := r
    simp only [isOrderedFrom, Bool.and_eq_true, decide_eq_true_eq] at ho
    have hr := ih ho.2
    simp only [search, Bool.and_eq_true, Bool.or_eq_true, decide_eq_true_eq, List.mem_cons,
      exists_eq_or_imp]
    constructor
    · rintro ⟨hl, hh | hn⟩
      · exact .inl ⟨hl, hh⟩
      · exact .inr (hr.1 hn)
    · rintro (⟨hl, hh⟩ | hn)
      · exact ⟨hl, .inl hh⟩
      · have := le_of_search ho.2 (hr.2 hn)
        exact ⟨by omega, .inr (hr.2 hn)⟩

end Ranges

/-- Inclusive ranges of code points, in increasing order and apart from one another, so that a search
may end at the first one that starts above what it looks for. -/
structure Ranges where
  parts : List (Nat × Nat)
  ordered : Ranges.isOrderedFrom 0 parts := by decide +kernel

namespace Ranges

def has (rs : Ranges) (n : Nat) : Bool :=
  search rs.parts n

theorem has_iff (rs : Ranges) (n : Nat) :
    rs.has n ↔ ∃ r ∈ rs.parts, r.1 ≤ n ∧ n ≤ r.2 :=
  search_iff rs.ordered n

end Ranges

end ScriptFrontend.Text

import Mathlib.Data.List.Infix
import Mathlib.Data.List.Range

/-!
# Searching a text by position

* `find` — the first position from `pos` on at which a pattern stands;
* `find_eq_some_iff`, `find_eq_none_iff` — **PROVED**: what is found is the first occurrence;
* `lt_of_find_singleton` — **PROVED**: a search for another character than the one at hand moves on.
-/

namespace TextSearch

variable {α : Type*} [DecidableEq α] {pat s : List α} {pos i j : ℕ}

/-- The pattern stands in the text at position `i`. -/
def StandsAt (pat s : List α) (i : ℕ) : Prop := pat <+: s.drop i

instance : Decidable (StandsAt pat s i) := inferInstanceAs (Decidable (pat <+: s.drop i))

/-- The first position from `pos` on at which the pattern stands. -/
def find (pat s : List α) (pos : ℕ) : Option ℕ :=
  (List.range (s.length + 1)).find? fun i => decide (pos ≤ i ∧ StandsAt pat s i)

omit [DecidableEq α] in
/-- A pattern ends where the text does, or before. -/
theorem StandsAt.add_length_le (h : StandsAt pat s i) (hpat : pat ≠ []) :
    i + pat.length ≤ s.length := by
  have hle := h.length_le
  have hpos := List.length_pos_iff.mpr hpat
  rw [List.length_drop] at hle
  omega

omit [DecidableEq α] in
theorem standsAt_cons {a : α} (h : StandsAt (a :: pat) s i) : s[i]? = some a := by
  obtain ⟨rest, hrest⟩ := h
  rw [← List.head?_drop, ← hrest]
  rfl

/-- **What is found is the first occurrence.** -/
theorem find_eq_some_iff : find pat s pos = some i ↔
    i ≤ s.length ∧ pos ≤ i ∧ StandsAt pat s i ∧ ∀ j, pos ≤ j → j < i → ¬StandsAt pat s j := by
  unfold find
  rw [List.find?_range_eq_some]
  constructor
  · rintro ⟨hi, hmem, hfirst⟩
    obtain ⟨hpos, hstands⟩ := of_decide_eq_true hi
    refine ⟨Nat.lt_succ_iff.mp (List.mem_range.mp hmem), hpos, hstands, fun j hj hji hs => ?_⟩
    have hno := hfirst j hji
    rw [decide_eq_true ⟨hj, hs⟩] at hno
    cases hno
  · rintro ⟨hlen, hpos, hstands, hfirst⟩
    refine ⟨decide_eq_true ⟨hpos, hstands⟩, List.mem_range.mpr (Nat.lt_succ_of_le hlen), ?_⟩
    intro j hji
    rw [decide_eq_false fun h => hfirst j h.1 hji h.2]
    rfl

/-- **Nothing is found exactly if the pattern stands nowhere from there on.** -/
theorem find_eq_none_iff (hpat : pat ≠ []) :
    find pat s pos = none ↔ ∀ j, pos ≤ j → ¬StandsAt pat s j := by
  unfold find
  rw [List.find?_eq_none]
  constructor
  · intro h j hj hs
    have hlen := hs.add_length_le hpat
    exact h j (List.mem_range.mpr (by omega)) (decide_eq_true ⟨hj, hs⟩)
  · intro h j _ hj
    obtain ⟨hpos, hs⟩ := of_decide_eq_true hj
    exact h j hpos hs

theorem le_of_find (h : find pat s pos = some i) : pos ≤ i := (find_eq_some_iff.mp h).2.1

theorem standsAt_of_find (h : find pat s pos = some i) : StandsAt pat s i :=
  (find_eq_some_iff.mp h).2.2.1

theorem find_add_length_le (h : find pat s pos = some i) (hpat : pat ≠ []) :
    i + pat.length ≤ s.length := (standsAt_of_find h).add_length_le hpat

/-- A search for another character than the one at hand moves on. -/
theorem lt_of_find_singleton {a b : α} (hs : StandsAt (a :: pat) s i) (hab : a ≠ b)
    (h : find [b] s i = some j) : i < j := by
  refine lt_of_le_of_ne (le_of_find h) fun heq => hab ?_
  have ha := standsAt_cons hs
  have hb := standsAt_cons (standsAt_of_find h)
  rw [← heq, ha] at hb
  exact Option.some.inj hb

end TextSearch

import StarBase.Lib.Like

/-!
# Glob patterns

A pattern in which `*` stands for any run and every other character for itself.

* `Matches` — a text as a whole fits a pattern;
* `matches_append_left` — **PROVED**: a text before a text takes itself before the pattern;
* `matches_plain_iff`, `matches_plain_star_iff` — **PROVED**: without an inner `*` a pattern asks for a
  text, or for how it begins.
-/

namespace Glob

open Like

/-- What a character of a pattern asks for. -/
def item (c : Char) : Item Char := if c = '*' then .many else .char c

def Matches (pattern text : List Char) : Prop := fits (pattern.map item) text = true

instance : DecidableRel Matches := fun _ _ => inferInstanceAs (Decidable (_ = true))

variable {l p t : List Char}

theorem item_star : item '*' = .many := rfl

theorem item_plain {c : Char} (h : c ≠ '*') : item c = .char c := if_neg h

theorem map_item_plain (h : '*' ∉ l) : l.map item = l.map Item.char :=
  List.map_congr_left fun _ hc => item_plain fun hstar => h (hstar ▸ hc)

theorem matches_nil : Matches [] t ↔ t = [] := fits_nil

theorem matches_star : Matches ['*'] t := fits_runs 0

theorem matches_append_left (l : List Char) (h : Matches p t) : Matches (l ++ p) (l ++ t) := by
  induction l with
  | nil => exact h
  | cons c l ih =>
    show fits (item c :: (l ++ p).map item) (c :: (l ++ t)) = true
    by_cases hc : c = '*'
    · -- the run takes the star itself
      rw [hc, item_star]
      exact fits_many.mpr ⟨l ++ t, List.suffix_cons _ _, ih⟩
    · rw [item_plain hc]
      exact fits_char.mpr ⟨l ++ t, rfl, ih⟩

theorem matches_self (l : List Char) : Matches l l := by
  have h := matches_append_left l (matches_nil.mpr rfl)
  rw [List.append_nil] at h
  exact h

theorem matches_star_of_prefix (h : l <+: t) : Matches (l ++ ['*']) t := by
  obtain ⟨u, rfl⟩ := h
  exact matches_append_left l matches_star

theorem matches_plain_iff (h : '*' ∉ l) : Matches l t ↔ t = l := by
  have hchars : fits (l.map Item.char ++ []) t = true ↔ ∃ u, t = l ++ u ∧ fits [] u = true := fits_chars
  unfold Matches
  rw [map_item_plain h, ← List.append_nil (l.map Item.char), hchars]
  simp [fits_nil]

theorem matches_plain_star_iff (h : '*' ∉ l) : Matches (l ++ ['*']) t ↔ l <+: t := by
  refine ⟨fun hm => ?_, matches_star_of_prefix⟩
  unfold Matches at hm
  rw [List.map_append, map_item_plain h] at hm
  obtain ⟨u, rfl, -⟩ := fits_chars.mp hm
  exact List.prefix_append l u

end Glob

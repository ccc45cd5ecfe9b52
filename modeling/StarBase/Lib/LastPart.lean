import Mathlib.Data.List.DropRight
import Mathlib.Tactic.Common

/-!
# The last part of a list

A list is cut behind the last occurrence of a separator.

* `upTo`, `behind` — what stands up to the separator, with it, and what stands behind it;
* `upTo_append` — **PROVED**: a cut with nothing or a separator before it and no separator behind it
  is theirs.
-/

namespace LastPart

variable {α : Type*} [DecidableEq α] {sep : α} {l a b : List α}

def upTo (sep : α) (l : List α) : List α := l.rdropWhile fun c => c ≠ sep

def behind (sep : α) (l : List α) : List α := l.rtakeWhile fun c => c ≠ sep

theorem upTo_append_behind (sep : α) (l : List α) : upTo sep l ++ behind sep l = l :=
  List.rdropWhile_append_rtakeWhile

theorem not_mem_behind : sep ∉ behind sep l := fun h => by
  have hne := List.mem_rtakeWhile_imp h
  simp at hne

theorem upTo_eq_nil_iff : upTo sep l = [] ↔ sep ∉ l := by
  unfold upTo
  rw [List.rdropWhile_eq_nil_iff]
  constructor
  · intro h hmem
    have hne := h sep hmem
    simp at hne
  · intro h c hc
    exact decide_eq_true fun he => h (he ▸ hc)

/-- What is before the cut is nothing, or ends with the separator. -/
def Closed (sep : α) (a : List α) : Prop := a = [] ∨ ∃ u, a = u ++ [sep]

theorem closed_upTo (sep : α) (l : List α) : Closed sep (upTo sep l) := by
  induction l using List.reverseRecOn with
  | nil => exact .inl rfl
  | append_singleton l c ih =>
    unfold upTo at ih ⊢
    rw [List.rdropWhile_concat]
    split
    · exact ih
    · next h =>
      have hc : c = sep := by simpa using h
      exact .inr ⟨l, by rw [hc]⟩

theorem upTo_append (ha : Closed sep a) (hb : sep ∉ b) : upTo sep (a ++ b) = a ∧ behind sep (a ++ b) = b := by
  induction b using List.reverseRecOn with
  | nil =>
    rw [List.append_nil]
    rcases ha with rfl | ⟨u, rfl⟩
    · exact ⟨rfl, rfl⟩
    · have hstop : ¬(fun c => decide (c ≠ sep)) sep = true := by simp
      exact ⟨List.rdropWhile_concat_neg _ _ _ hstop, List.rtakeWhile_concat_neg _ _ _ hstop⟩
  | append_singleton b c ih =>
    obtain ⟨hup, hbehind⟩ := ih fun h => hb (List.mem_append_left [c] h)
    have hpass : decide (c ≠ sep) = true :=
      decide_eq_true fun he => hb (List.mem_append_right b (List.mem_singleton.mpr he.symm))
    unfold upTo behind at *
    rw [← List.append_assoc, List.rdropWhile_concat, List.rtakeWhile_concat, if_pos hpass, if_pos hpass,
      hup, hbehind]
    exact ⟨rfl, rfl⟩

end LastPart

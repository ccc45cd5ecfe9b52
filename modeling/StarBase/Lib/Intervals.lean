import Mathlib

/-!
# Intervals in order

Intervals in the order of a key, and within a key none behind one that follows it.

* `disjoint_Icc_iff` — **PROVED**: two intervals that are not empty are disjoint if one ends before the
  other begins;
* `pairwise_disjoint_iff` — **PROVED**: those of one key are pairwise disjoint exactly if each ends before
  the next one begins.
-/

namespace Intervals

section Disjoint

variable {α : Type*} [LinearOrder α] {a b c d : α}

theorem disjoint_Icc_iff (hab : a ≤ b) (hcd : c ≤ d) :
    Disjoint (Set.Icc a b) (Set.Icc c d) ↔ b < c ∨ d < a := by
  rw [Set.disjoint_iff_inter_eq_empty, Set.Icc_inter_Icc, Set.Icc_eq_empty_iff, not_le, lt_max_iff,
    min_lt_iff, min_lt_iff]
  constructor
  · rintro ((h | h) | (h | h))
    · exact absurd h (not_lt.mpr hab)
    · exact .inr h
    · exact .inl h
    · exact absurd h (not_lt.mpr hcd)
  · rintro (h | h)
    · exact .inr (.inl h)
    · exact .inl (.inr h)

end Disjoint

section Ordered

variable {ι κ α : Type*} [PartialOrder κ] [LinearOrder α] {key : ι → κ} {lo hi : ι → α} {is : List ι}

/-- In the order of the key, and within a key none begins behind one that follows it. -/
def InLine (key : ι → κ) (lo hi : ι → α) (a b : ι) : Prop :=
  key a ≤ key b ∧ (key a = key b → lo a ≤ hi b)

/-- Of one key, the first ends before the second begins. -/
def Before (key : ι → κ) (lo hi : ι → α) (a b : ι) : Prop := key a = key b → hi a < lo b

theorem pairwise_before (hle : ∀ i ∈ is, lo i ≤ hi i) (hline : is.Pairwise (InLine key lo hi))
    (hchain : is.IsChain (Before key lo hi)) : is.Pairwise (Before key lo hi) := by
  induction is with
  | nil => exact .nil
  | cons a is ih =>
    obtain ⟨ha, hrest⟩ := List.pairwise_cons.mp hline
    have hpair := ih (fun i hi => hle i (List.mem_cons_of_mem a hi)) hrest hchain.tail
    refine List.pairwise_cons.mpr ⟨fun b hb hkey => ?_, hpair⟩
    cases is with
    | nil => cases hb
    | cons c is =>
      have hac : Before key lo hi a c := (List.isChain_cons_cons.mp hchain).1
      rcases List.mem_cons.mp hb with rfl | hbis
      · exact hac hkey
      · -- what stands between two of one key is of that key
        have hcb := (List.pairwise_cons.mp hrest).1 b hbis
        have hkac : key a = key c :=
          le_antisymm (ha c List.mem_cons_self).1 (hkey ▸ hcb.1)
        have hkcb : key c = key b := hkac.symm.trans hkey
        have hbefore := (List.pairwise_cons.mp hpair).1 b hbis hkcb
        have hc := hle c (List.mem_cons_of_mem a List.mem_cons_self)
        exact (hac hkac).trans_le (hc.trans hbefore.le)

/-- Those of one key are pairwise disjoint exactly if each ends before the next one begins. -/
theorem pairwise_disjoint_iff (hle : ∀ i ∈ is, lo i ≤ hi i) (hline : is.Pairwise (InLine key lo hi)) :
    (is.Pairwise fun a b => key a = key b → Disjoint (Set.Icc (lo a) (hi a)) (Set.Icc (lo b) (hi b))) ↔
      is.IsChain (Before key lo hi) := by
  constructor
  · intro h
    refine (List.Pairwise.imp_of_mem (fun {a b} ha hb hab hkey => ?_) (h.and hline)).isChain
    rcases (disjoint_Icc_iff (hle a ha) (hle b hb)).mp (hab.1 hkey) with hlt | hlt
    · exact hlt
    · exact absurd hlt (not_lt.mpr (hab.2.2 hkey))
  · intro h
    refine List.Pairwise.imp_of_mem (fun {a b} ha hb hab hkey => ?_) (pairwise_before hle hline h)
    exact (disjoint_Icc_iff (hle a ha) (hle b hb)).mpr (.inl (hab hkey))

end Ordered

/-- One value rounded up is below another rounded down if a whole number and the next fit between. -/
theorem ceil_lt_floor_iff {x y : ℚ} : ⌈x⌉ < ⌊y⌋ ↔ ∃ n : ℤ, x ≤ n ∧ (n : ℚ) + 1 ≤ y := by
  constructor
  · intro h
    refine ⟨⌈x⌉, Int.le_ceil x, ?_⟩
    have hy := Int.le_floor.mp (Int.add_one_le_iff.mpr h)
    push_cast at hy
    exact hy
  · rintro ⟨n, hx, hy⟩
    have hfloor : n + 1 ≤ ⌊y⌋ := Int.le_floor.mpr (by push_cast; exact hy)
    have hceil : ⌈x⌉ ≤ n := Int.ceil_le.mpr hx
    omega

end Intervals

import Mathlib

/-!
# Runs of a sorted stream

A list in the order of a key, and of a time within a key, is cut where the key changes or the time
leaps by more than a gap.

* `near` — one key, and no leap;
* `splitBy_concat_near`, `splitBy_concat_far` — one member more joins the last run or opens another;
* `pairwise_runs` — **PROVED**: any two runs of one key lie more than the gap apart.
-/

namespace Clusters

variable {α κ : Type*} {l : List α}

section Concat

variable {r : α → α → Bool} {done : List (List α)} {cur : List α} {a b : α}

/-- A member near the last joins the last run. -/
theorem splitBy_concat_near (hrun : l.splitBy r = done ++ [cur ++ [a]]) (h : r a b = true) :
    (l ++ [b]).splitBy r = done ++ [cur ++ [a] ++ [b]] := by
  obtain ⟨hflat, hnil, hchain, hcut⟩ := List.splitBy_eq_iff.mp hrun
  refine List.splitBy_eq_iff.mpr ⟨?_, ?_, ?_, ?_⟩
  · rw [hflat, List.flatten_append, List.flatten_append, List.flatten_singleton,
      List.flatten_singleton, List.append_assoc]
  · intro hmem
    rcases List.mem_append.mp hmem with hmem | hmem
    · exact hnil (List.mem_append_left _ hmem)
    · exact List.append_ne_nil_of_right_ne_nil _ (List.cons_ne_nil b []) (List.mem_singleton.mp hmem).symm
  · intro m hm
    rcases List.mem_append.mp hm with hm | hm
    · exact hchain m (List.mem_append_left _ hm)
    · rw [List.mem_singleton.mp hm]
      refine List.isChain_append.mpr ⟨hchain _ (List.mem_append_right _ List.mem_cons_self),
        List.isChain_singleton b, fun x hx y hy => ?_⟩
      rw [List.getLast?_concat] at hx
      cases hx
      cases hy
      exact h
  · obtain ⟨hdone, -, hlast⟩ := List.isChain_append.mp hcut
    refine List.isChain_append.mpr ⟨hdone, List.isChain_singleton _, fun x hx y hy => ?_⟩
    obtain ⟨hx0, hy0, hfar⟩ := hlast x hx _ rfl
    cases hy
    refine ⟨hx0, List.append_ne_nil_of_right_ne_nil _ (List.cons_ne_nil b []), ?_⟩
    rw [List.head_append_of_ne_nil hy0]
    exact hfar

/-- Any other opens one of its own. -/
theorem splitBy_concat_far (hrun : l.splitBy r = done ++ [cur ++ [a]]) (h : r a b = false) :
    (l ++ [b]).splitBy r = done ++ [cur ++ [a]] ++ [[b]] := by
  have hlast : l.getLast? = some a := by
    have hflat := (List.splitBy_eq_iff.mp hrun).1
    rw [hflat, List.flatten_append, List.flatten_singleton, ← List.append_assoc, List.getLast?_concat]
  rw [List.splitBy_append_cons [] fun x hx => ?_, hrun]
  · rfl
  · rw [hlast] at hx
    cases hx
    exact h

end Concat

section Sorted

variable [PartialOrder κ] [DecidableEq κ] {key : α → κ} {time : α → Int} {gap : Int}

/-- One key, and the second at most the gap behind the first. -/
def near (key : α → κ) (time : α → Int) (gap : Int) (a b : α) : Bool :=
  decide (key a = key b) && decide (time b - time a ≤ gap)

/-- In the order of the key, and of the time within a key. -/
def InOrder (key : α → κ) (time : α → Int) (a b : α) : Prop :=
  key a ≤ key b ∧ (key a = key b → time a ≤ time b)

instance [DecidableLE κ] : DecidableRel (InOrder key time) := fun _ _ => instDecidableAnd

omit [DecidableEq κ] in
theorem inOrder_last {g : List α} (hg : g.Pairwise (InOrder key time)) (hne : g ≠ []) {a : α} (ha : a ∈ g) :
    key a ≤ key (g.getLast hne) ∧ (key a = key (g.getLast hne) → time a ≤ time (g.getLast hne)) := by
  rw [← List.dropLast_concat_getLast hne] at hg ha
  rcases List.mem_append.mp ha with ha | ha
  · exact (List.pairwise_append.mp hg).2.2 a ha _ List.mem_cons_self
  · rw [List.mem_singleton.mp ha]
    exact ⟨le_rfl, fun _ => le_rfl⟩

/-- Two runs of one key lie more than the gap apart. -/
theorem pairwise_apart {gs : List (List α)} (hsorted : gs.flatten.Pairwise (InOrder key time))
    (hcut : gs.IsChain fun g h => ∃ hg hh, near key time gap (g.getLast hg) (h.head hh) = false) :
    gs.Pairwise fun g h => ∀ a ∈ g, ∀ b ∈ h, key a = key b → gap < time b - time a := by
  induction gs with
  | nil => exact List.Pairwise.nil
  | cons g gs ih =>
    rw [List.flatten_cons, List.pairwise_append] at hsorted
    obtain ⟨hg, hrest, hcross⟩ := hsorted
    refine List.pairwise_cons.mpr ⟨fun h hh a ha b hb hkey => ?_, ih hrest hcut.tail⟩
    cases gs with
    | nil => cases hh
    | cons next gs =>
      obtain ⟨hgne, hnext, hfar⟩ := (List.isChain_cons_cons.mp hcut).1
      have hb' : b ∈ (next :: gs).flatten := List.mem_flatten.mpr ⟨h, hh, hb⟩
      -- from the last of the run to the first of the next one the time leaps
      obtain ⟨y, ys, rfl⟩ := List.exists_cons_of_ne_nil hnext
      have hyb : key y ≤ key b ∧ (key y = key b → time y ≤ time b) := by
        rw [List.flatten_cons, List.cons_append] at hrest hb'
        rcases List.mem_cons.mp hb' with rfl | hb'
        · exact ⟨le_rfl, fun _ => le_rfl⟩
        · exact (List.pairwise_cons.mp hrest).1 b hb'
      have hag := inOrder_last hg hgne ha
      have hgy : InOrder key time (g.getLast hgne) y :=
        hcross _ (List.getLast_mem hgne) y (by simp)
      have hkl : key a = key (g.getLast hgne) := le_antisymm hag.1 (by rw [hkey]; exact hgy.1.trans hyb.1)
      have hky : key y = key b := le_antisymm hyb.1 (by rw [← hkey, hkl]; exact hgy.1)
      have hsame : key (g.getLast hgne) = key y := by rw [← hkl, hkey, hky]
      have hleap : gap < time y - time (g.getLast hgne) := by
        rw [List.head_cons] at hfar
        unfold near at hfar
        rw [decide_eq_true hsame, Bool.true_and, decide_eq_false_iff_not] at hfar
        exact Int.not_le.mp hfar
      have h₁ := hag.2 hkl
      have h₂ := hyb.2 hky
      omega

theorem pairwise_runs (hsorted : l.Pairwise (InOrder key time)) :
    (l.splitBy (near key time gap)).Pairwise fun g h =>
      ∀ a ∈ g, ∀ b ∈ h, key a = key b → gap < time b - time a := by
  refine pairwise_apart ?_ (List.isChain_getLast_head_splitBy _ l)
  rw [List.flatten_splitBy]
  exact hsorted

/-- Of two runs one lies behind the other. -/
theorem apart_of_ne (hsorted : l.Pairwise (InOrder key time)) {g h : List α}
    (hg : g ∈ l.splitBy (near key time gap)) (hh : h ∈ l.splitBy (near key time gap)) (hne : g ≠ h) :
    (∀ a ∈ g, ∀ b ∈ h, key a = key b → gap < time b - time a) ∨
      ∀ b ∈ h, ∀ a ∈ g, key b = key a → gap < time a - time b := by
  have hapart : (l.splitBy (near key time gap)).Pairwise fun g h =>
      ∀ a ∈ g, ∀ b ∈ h, key a = key b → gap < time b - time a := pairwise_runs hsorted
  rw [List.pairwise_iff_getElem] at hapart
  obtain ⟨i, hi, rfl⟩ := List.getElem_of_mem hg
  obtain ⟨j, hj, rfl⟩ := List.getElem_of_mem hh
  rcases lt_trichotomy i j with hij | rfl | hji
  · exact .inl (hapart i j hi hj hij)
  · exact absurd rfl hne
  · exact .inr (hapart j i hj hi hji)

end Sorted

end Clusters

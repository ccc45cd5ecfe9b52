import Mathlib.Data.List.Induction
import Mathlib.Order.Basic

/-!
# The last of the largest

A pass over a list that keeps the largest member so far, a later one before an earlier one that is
as large, among the members with a property.

* `IsLastMax` — what the pass is for;
* `foldl_keepLast_iff` — **PROVED**: the pass ends with exactly that member.
-/

namespace LastMax

variable {α : Type*} {p : α → Prop} {f : α → ℕ} {l : List α} {a b : α}

/-- No earlier member with the property is larger, and no later one as large. -/
def LastMaxAt (p : α → Prop) (f : α → ℕ) (pre : List α) (a : α) (post : List α) : Prop :=
  p a ∧ (∀ b ∈ pre, p b → f b ≤ f a) ∧ ∀ b ∈ post, p b → f b < f a

def IsLastMax (p : α → Prop) (f : α → ℕ) (l : List α) (a : α) : Prop :=
  ∃ pre post, l = pre ++ a :: post ∧ LastMaxAt p f pre a post

theorem IsLastMax.mem (h : IsLastMax p f l a) : a ∈ l := by
  obtain ⟨pre, post, rfl, -⟩ := h
  exact List.mem_append_right _ List.mem_cons_self

theorem IsLastMax.holds (h : IsLastMax p f l a) : p a := by
  obtain ⟨pre, post, -, ha, -⟩ := h
  exact ha

theorem IsLastMax.le (h : IsLastMax p f l a) (hb : b ∈ l) (hpb : p b) : f b ≤ f a := by
  obtain ⟨pre, post, rfl, -, hpre, hpost⟩ := h
  rcases List.mem_append.mp hb with hb | hb
  · exact hpre b hb hpb
  · rcases List.mem_cons.mp hb with rfl | hb
    · exact Nat.le_refl _
    · exact Nat.le_of_lt (hpost b hb hpb)

/-- One member more: it is the last of the largest, or what was it before is. -/
theorem isLastMax_append_singleton_iff :
    IsLastMax p f (l ++ [b]) a ↔
      (a = b ∧ p b ∧ ∀ c ∈ l, p c → f c ≤ f b) ∨ (IsLastMax p f l a ∧ (p b → f b < f a)) := by
  constructor
  · rintro ⟨pre, post, heq, ha, hpre, hpost⟩
    rcases List.eq_nil_or_concat post with rfl | ⟨post, c, rfl⟩
    · obtain ⟨rfl, hlast⟩ := List.append_inj' heq rfl
      cases hlast
      exact .inl ⟨rfl, ha, hpre⟩
    · rw [List.concat_eq_append, ← List.cons_append, ← List.append_assoc] at heq
      obtain ⟨rfl, hlast⟩ := List.append_inj' heq rfl
      cases hlast
      rw [List.concat_eq_append] at hpost
      exact .inr ⟨⟨pre, post, rfl, ha, hpre, fun c hc => hpost c (List.mem_append_left _ hc)⟩,
        hpost b (List.mem_append_right _ List.mem_cons_self)⟩
  · rintro (⟨rfl, hb, hle⟩ | ⟨⟨pre, post, rfl, ha, hpre, hpost⟩, hb⟩)
    · exact ⟨l, [], rfl, hb, hle, nofun⟩
    · refine ⟨pre, post ++ [b], by rw [List.append_assoc, List.cons_append], ha, hpre, fun c hc => ?_⟩
      rcases List.mem_append.mp hc with hc | hc
      · exact hpost c hc
      · rw [List.mem_singleton.mp hc]
        exact hb

theorem IsLastMax.unique (h : IsLastMax p f l a) (h' : IsLastMax p f l b) : a = b := by
  induction l using List.reverseRecOn generalizing a b with
  | nil => exact absurd h.mem List.not_mem_nil
  | append_singleton l c ih =>
    rw [isLastMax_append_singleton_iff] at h h'
    rcases h with ⟨rfl, hc, hle⟩ | ⟨ha, hca⟩
    · rcases h' with ⟨rfl, -⟩ | ⟨hb, hcb⟩
      · rfl
      · exact absurd (hle b hb.mem hb.holds) (Nat.not_le_of_lt (hcb hc))
    · rcases h' with ⟨rfl, hc, hle⟩ | ⟨hb, -⟩
      · exact absurd (hle a ha.mem ha.holds) (Nat.not_le_of_lt (hca hc))
      · exact ih ha hb

/-- The pass. -/
def keepLast (p : α → Prop) [DecidablePred p] (f : α → ℕ) (best : Option α) (a : α) : Option α :=
  if p a ∧ ∀ b ∈ best, f b ≤ f a then some a else best

/-- What the pass has kept. -/
def Kept (p : α → Prop) (f : α → ℕ) (l : List α) : Option α → Prop
  | none => ∀ b ∈ l, ¬p b
  | some a => IsLastMax p f l a

theorem Kept.le {best : Option α} (h : Kept p f l best) {c : α} (hc : c ∈ l) (hpc : p c) :
    ∃ a ∈ best, f c ≤ f a := by
  cases best with
  | none => exact absurd hpc (h c hc)
  | some a => exact ⟨a, rfl, IsLastMax.le h hc hpc⟩

theorem kept_foldl [DecidablePred p] : Kept p f l (l.foldl (keepLast p f) none) := by
  induction l using List.reverseRecOn with
  | nil => exact fun b hb => absurd hb List.not_mem_nil
  | append_singleton l b ih =>
    rw [List.foldl_append, List.foldl_cons, List.foldl_nil]
    generalize l.foldl (keepLast p f) none = best at ih
    unfold keepLast
    by_cases hb : p b ∧ ∀ a ∈ best, f a ≤ f b
    · rw [if_pos hb]
      refine isLastMax_append_singleton_iff.mpr (.inl ⟨rfl, hb.1, fun c hc hpc => ?_⟩)
      obtain ⟨a, ha, hle⟩ := ih.le hc hpc
      exact Nat.le_trans hle (hb.2 a ha)
    · rw [if_neg hb]
      cases best with
      | none =>
        intro c hc
        rcases List.mem_append.mp hc with hc | hc
        · exact ih c hc
        · rw [List.mem_singleton.mp hc]
          exact fun hpb => hb ⟨hpb, nofun⟩
      | some a =>
        refine isLastMax_append_singleton_iff.mpr (.inr ⟨ih, fun hpb => ?_⟩)
        refine Nat.lt_of_not_le fun hle => hb ⟨hpb, fun c hc => ?_⟩
        rw [← Option.some.inj hc]
        exact hle

theorem foldl_keepLast_iff [DecidablePred p] :
    l.foldl (keepLast p f) none = some a ↔ IsLastMax p f l a := by
  have hkept := kept_foldl (p := p) (f := f) (l := l)
  constructor
  · intro h
    rw [h] at hkept
    exact hkept
  · intro h
    obtain ⟨b, hb, -⟩ := hkept.le h.mem h.holds
    rw [Option.mem_def.mp hb] at hkept ⊢
    exact congrArg some (IsLastMax.unique hkept h)

end LastMax

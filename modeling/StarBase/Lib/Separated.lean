import Mathlib

/-!
# Separated texts

A list of texts written one after the other with a separator: behind each of them, or between them.

* `terminated` — each text with the separator behind it;
* `terminated_inj_iff` — **PROVED**: of two or more texts, the written one tells which they are, among
  lists of that length, exactly if none of them holds the separator;
* `splitOn_intercalate_iff` — **PROVED**: so does the one with separators between them.
-/

namespace Separated

variable {α : Type*} [DecidableEq α] {sep : α} {vs ws : List (List α)}

/-- Each text with the separator behind it. -/
def terminated (sep : α) (vs : List (List α)) : List α := vs.flatMap fun v => v ++ [sep]

omit [DecidableEq α] in
theorem terminated_cons (v : List α) :
    terminated sep (v :: vs) = v ++ sep :: terminated sep vs := by
  unfold terminated
  rw [List.flatMap_cons, List.append_assoc]
  rfl

/-- The written texts are cut apart again, and nothing stands behind the last separator. -/
theorem splitOn_terminated (h : ∀ v ∈ vs, sep ∉ v) : (terminated sep vs).splitOn sep = vs ++ [[]] := by
  induction vs with
  | nil => rfl
  | cons v vs ih =>
    rw [terminated_cons, List.splitOn_append_cons_self_of_not_mem (h v List.mem_cons_self),
      ih fun w hw => h w (List.mem_cons_of_mem v hw)]
    rfl

/-- There is a separator for each text, and those within them. -/
theorem count_terminated :
    (terminated sep vs).count sep = (vs.map (List.count sep)).sum + vs.length := by
  induction vs with
  | nil => rfl
  | cons v vs ih =>
    rw [terminated_cons, List.count_append, List.count_cons_self, ih, List.map_cons, List.sum_cons,
      List.length_cons]
    omega

/-- No text holds the separator. -/
def Free (sep : α) (vs : List (List α)) : Prop := ∀ v ∈ vs, sep ∉ v

omit [DecidableEq α] in
theorem free_cons {v : List α} : Free sep (v :: vs) ↔ sep ∉ v ∧ Free sep vs := List.forall_mem_cons

theorem free_iff_count : Free sep vs ↔ (vs.map (List.count sep)).sum = 0 := by
  induction vs with
  | nil => exact iff_of_true nofun rfl
  | cons v vs ih =>
    rw [free_cons, ih, List.map_cons, List.sum_cons, Nat.add_eq_zero_iff, List.count_eq_zero]

/-- Two lists of as many texts, written alike, hold as many separators. -/
theorem Free.of_terminated_eq (h : Free sep vs) (hlen : ws.length = vs.length)
    (heq : terminated sep ws = terminated sep vs) : Free sep ws := by
  have hcount := congrArg (List.count sep) heq
  rw [count_terminated, count_terminated, hlen] at hcount
  rw [free_iff_count] at h ⊢
  omega

omit [DecidableEq α] in
/-- Up to the first separator two texts are the same. -/
theorem append_sep_inj {v w rest rest' : List α} (hv : sep ∉ v) (hw : sep ∉ w)
    (h : v ++ sep :: rest = w ++ sep :: rest') : v = w ∧ rest = rest' := by
  induction v generalizing w with
  | nil =>
    cases w with
    | nil => exact ⟨rfl, (List.cons.inj h).2⟩
    | cons c w => exact absurd ((List.cons.inj h).1 ▸ List.mem_cons_self) hw
  | cons b v ih =>
    cases w with
    | nil => exact absurd ((List.cons.inj h).1 ▸ List.mem_cons_self) hv
    | cons c w =>
      obtain ⟨rfl, htail⟩ := List.cons.inj h
      obtain ⟨rfl, hrest⟩ := ih (fun hm => hv (List.mem_cons_of_mem _ hm))
        (fun hm => hw (List.mem_cons_of_mem _ hm)) htail
      exact ⟨rfl, hrest⟩

omit [DecidableEq α] in
theorem terminated_inj_of_free (hv : Free sep vs) (hw : Free sep ws) (hlen : ws.length = vs.length)
    (heq : terminated sep ws = terminated sep vs) : ws = vs := by
  induction vs generalizing ws with
  | nil => exact List.length_eq_zero_iff.mp hlen
  | cons v vs ih =>
    cases ws with
    | nil => cases hlen
    | cons w ws =>
      rw [terminated_cons, terminated_cons] at heq
      obtain ⟨rfl, hrest⟩ := append_sep_inj (free_cons.mp hw).1 (free_cons.mp hv).1 heq
      rw [ih (free_cons.mp hv).2 (free_cons.mp hw).2 (Nat.succ.inj hlen) hrest]

omit [DecidableEq α] in
/-- A separator within a text can be taken for the one behind it. -/
theorem exists_other (h2 : 2 ≤ vs.length) (h : ¬Free sep vs) :
    ∃ ws, ws.length = vs.length ∧ ws ≠ vs ∧ terminated sep ws = terminated sep vs := by
  unfold Free at h
  push Not at h
  obtain ⟨v, hv, hsep⟩ := h
  obtain ⟨before, after, rfl⟩ := List.append_of_mem hv
  obtain ⟨a, b, rfl⟩ := List.append_of_mem hsep
  cases after with
  | cons u after =>
    -- the text behind it takes its end
    refine ⟨before ++ a :: (b ++ sep :: u) :: after, by simp, fun heq => ?_, ?_⟩
    · have := congrArg List.length (List.cons.inj (List.append_cancel_left heq)).1
      simp at this
    · simp [terminated]
  | nil =>
    -- it is the last one, and the text before it takes its beginning
    rcases List.eq_nil_or_concat before with rfl | ⟨before, u, rfl⟩
    · simp at h2
    · refine ⟨before ++ [u ++ sep :: a, b], by simp, fun heq => ?_, by simp [terminated]⟩
      rw [List.concat_eq_append, List.append_assoc] at heq
      have := congrArg List.length (List.cons.inj (List.append_cancel_left heq)).1
      simp at this

/-- **What is written tells which texts they are, exactly if none holds the separator.** -/
theorem terminated_inj_iff (h2 : 2 ≤ vs.length) :
    (∀ ws, ws.length = vs.length → (terminated sep ws = terminated sep vs ↔ ws = vs)) ↔
      Free sep vs := by
  constructor
  · intro h
    by_contra hfree
    obtain ⟨ws, hlen, hne, heq⟩ := exists_other h2 hfree
    exact hne ((h ws hlen).mp heq)
  · intro hv ws hlen
    refine ⟨fun heq => ?_, fun heq => congrArg (terminated sep) heq⟩
    exact terminated_inj_of_free hv (hv.of_terminated_eq hlen heq) hlen heq

/-! ### Between the texts -/

theorem not_mem_of_mem_splitOn {s v : List α} (h : v ∈ s.splitOn sep) : sep ∉ v := by
  induction s generalizing v with
  | nil =>
    rw [List.splitOn_nil] at h
    rw [List.mem_singleton.mp h]
    exact List.not_mem_nil
  | cons a s ih =>
    rw [List.splitOn_cons_eq_if_modifyHead] at h
    split at h
    · rcases List.mem_cons.mp h with rfl | h
      · exact List.not_mem_nil
      · exact ih h
    · next ha =>
      obtain ⟨w, ws, hws⟩ := List.exists_cons_of_ne_nil (List.splitOn_ne_nil sep s)
      rw [hws, List.modifyHead_cons] at h
      rcases List.mem_cons.mp h with rfl | h
      · have hne : sep ≠ a := fun he => ha (beq_iff_eq.mpr he.symm)
        exact List.not_mem_cons_of_ne_of_not_mem hne (ih (hws ▸ List.mem_cons_self))
      · exact ih (hws ▸ List.mem_cons_of_mem w h)

/-- The texts are found again between the separators exactly if none of them holds one. -/
theorem splitOn_intercalate_iff (hne : vs ≠ []) :
    ([sep].intercalate vs).splitOn sep = vs ↔ Free sep vs :=
  ⟨fun h _ hv => not_mem_of_mem_splitOn (h ▸ hv), fun h => List.splitOn_intercalate sep h hne⟩

omit [DecidableEq α] in
/-- Another character is in the whole as it is in the texts. -/
theorem not_mem_intercalate_iff {d : α} (hd : d ≠ sep) : d ∉ [sep].intercalate vs ↔ Free d vs := by
  induction vs with
  | nil => exact iff_of_true List.not_mem_nil nofun
  | cons v vs ih =>
    rw [free_cons]
    by_cases hnil : vs = []
    · subst hnil
      rw [List.intercalate_singleton]
      exact (and_iff_left nofun).symm
    · rw [List.intercalate_cons_of_ne_nil hnil, List.mem_append, List.mem_append, not_or, not_or, ih,
        List.mem_singleton]
      exact and_congr_left fun _ => and_iff_left hd

end Separated

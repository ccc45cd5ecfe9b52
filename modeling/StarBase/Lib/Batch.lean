import Mathlib.Data.List.Forall2
import Mathlib.Tactic.Common

/-!
# A fallible function over a list

* `bind_eq_ok` — a sequence of two steps succeeds if both do;
* `mapM_eq_ok` — the results of a whole list are those of its items, in order;
* `exists_mapM_ok` — a list succeeds exactly if every item does;
* `mem_zip_of_mapM` — the result of an item;
* `mapM_filter` — leaving items out leaves the results of the others.
-/

namespace Batch

variable {α β γ ε : Type} {f : α → Except ε β} {l : List α} {rs : List β}

theorem bind_eq_ok {x : Except ε β} {k : β → Except ε γ} {c : γ} :
    (x >>= k) = .ok c ↔ ∃ b, x = .ok b ∧ k b = .ok c := by
  cases x with
  | ok b =>
    constructor
    · intro h
      exact ⟨b, rfl, h⟩
    · rintro ⟨b', hb, h⟩
      cases hb
      exact h
  | error e => exact ⟨nofun, nofun⟩

theorem mapM_eq_ok : l.mapM f = .ok rs ↔ List.Forall₂ (fun a r => f a = .ok r) l rs := by
  induction l generalizing rs with
  | nil =>
    rw [List.mapM_nil, List.forall₂_nil_left_iff]
    exact ⟨fun h => by cases h; rfl, fun h => by rw [h]; rfl⟩
  | cons a l ih =>
    rw [List.mapM_cons, bind_eq_ok, List.forall₂_cons_left_iff]
    constructor
    · rintro ⟨r, hr, h⟩
      obtain ⟨rest, hrest, h⟩ := bind_eq_ok.mp h
      cases h
      exact ⟨r, rest, hr, ih.mp hrest, rfl⟩
    · rintro ⟨r, rest, hr, hrest, rfl⟩
      exact ⟨r, hr, bind_eq_ok.mpr ⟨rest, ih.mpr hrest, rfl⟩⟩

theorem exists_mapM_ok : (∃ rs, l.mapM f = .ok rs) ↔ ∀ a ∈ l, ∃ r, f a = .ok r := by
  induction l with
  | nil => exact iff_of_true ⟨[], rfl⟩ nofun
  | cons a l ih =>
    rw [List.forall_mem_cons, ← ih]
    constructor
    · rintro ⟨rs, h⟩
      obtain ⟨r, rest, hr, hrest, -⟩ := List.forall₂_cons_left_iff.mp (mapM_eq_ok.mp h)
      exact ⟨⟨r, hr⟩, rest, mapM_eq_ok.mpr hrest⟩
    · rintro ⟨⟨r, hr⟩, rest, hrest⟩
      exact ⟨r :: rest, mapM_eq_ok.mpr (.cons hr (mapM_eq_ok.mp hrest))⟩

theorem mem_zip_of_mapM (h : l.mapM f = .ok rs) {a : α} (ha : a ∈ l) :
    ∃ r, (a, r) ∈ l.zip rs ∧ f a = .ok r := by
  have hall := mapM_eq_ok.mp h
  clear h
  induction hall with
  | nil => cases ha
  | @cons b r l rs hr _ ih =>
    rw [List.zip_cons_cons]
    rcases List.mem_cons.mp ha with rfl | ha
    · exact ⟨r, List.mem_cons_self, hr⟩
    · obtain ⟨r', hmem, hr'⟩ := ih ha
      exact ⟨r', List.mem_cons_of_mem _ hmem, hr'⟩

theorem mapM_filter (h : l.mapM f = .ok rs) (p : α → Bool) :
    (l.filter p).mapM f = .ok (((l.zip rs).filter fun x => p x.1).map Prod.snd) := by
  rw [mapM_eq_ok] at h ⊢
  induction h with
  | nil => exact .nil
  | @cons a r l rs hr _ ih =>
    rw [List.zip_cons_cons]
    cases hp : p a with
    | true =>
      have hzip : ((a, r) :: l.zip rs).filter (fun x => p x.1) =
          (a, r) :: (l.zip rs).filter fun x => p x.1 := List.filter_cons_of_pos hp
      rw [List.filter_cons_of_pos hp, hzip]
      exact .cons hr ih
    | false =>
      have hno : ¬ p a = true := by simp [hp]
      have hzip : ((a, r) :: l.zip rs).filter (fun x => p x.1) =
          (l.zip rs).filter fun x => p x.1 := List.filter_cons_of_neg hno
      rw [List.filter_cons_of_neg hno, hzip]
      exact ih

end Batch

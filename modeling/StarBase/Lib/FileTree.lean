import Mathlib.Tactic.Common

/-!
# File trees under rename, copy and remove

A tree maps locations to regular files and symbolic links.  The operations follow the system
calls: `rename` replaces what is at the destination, and does nothing between two names of one
location.

* `Keeps t u` — every content that some file of `t` held is held by some file of `u`;
* `NoNew t u` — no content appears;
* `keeps_rename_iff` — **PROVED**: a rename keeps all contents exactly if what it replaces is held
  elsewhere too;
* `keeps_trans_iff` — **PROVED**: along steps that bring no new content, a run keeps all contents
  exactly if each part of it does.
-/

namespace FileTree

/-- What is at a location: a file with its content, or a symbolic link. -/
inductive Node (C T : Type*)
  | file (content : C)
  | link (target : T)
  deriving DecidableEq

/-- A file tree over locations `L`. -/
abbrev Tree (L C T : Type*) := L → Option (Node C T)

variable {L C T : Type*}

/-- The content read at a location, following links by `locate` at most `n` deep. -/
def readContent (locate : T → L) : ℕ → Tree L C T → L → Option C
  | 0, _, _ => none
  | n + 1, t, l =>
    match t l with
    | some (.file c) => some c
    | some (.link target) => readContent locate n t (locate target)
    | none => none

section Operations

variable [DecidableEq L]

/-- Put a node at a location. -/
def put (t : Tree L C T) (l : L) (node : Node C T) : Tree L C T :=
  fun x => if x = l then some node else t x

/-- Take a location away. -/
def remove (t : Tree L C T) (l : L) : Tree L C T :=
  fun x => if x = l then none else t x

/-- Move what is at `src` to `dst`. -/
def rename (t : Tree L C T) (src dst : L) : Tree L C T :=
  if src = dst then t else fun x => if x = dst then t src else if x = src then none else t x

end Operations

/-! ### Contents -/

/-- Some file of the tree has content `c`. -/
def Holds (t : Tree L C T) (c : C) : Prop := ∃ l, t l = some (.file c)

/-- No content of `t` is lost in `u`. -/
def Keeps (t u : Tree L C T) : Prop := ∀ c, Holds t c → Holds u c

/-- No content of `u` is new. -/
def NoNew (t u : Tree L C T) : Prop := ∀ c, Holds u c → Holds t c

theorem keeps_refl (t : Tree L C T) : Keeps t t := fun _ h => h

theorem noNew_refl (t : Tree L C T) : NoNew t t := fun _ h => h

theorem NoNew.trans {t u v : Tree L C T} (h : NoNew t u) (h' : NoNew u v) : NoNew t v :=
  fun c hc => h c (h' c hc)

/-- Content that is lost does not come back. -/
theorem keeps_trans_iff {t u v : Tree L C T} (htu : NoNew t u) (huv : NoNew u v) :
    Keeps t v ↔ Keeps t u ∧ Keeps u v := by
  constructor
  · intro h
    exact ⟨fun c hc => huv c (h c hc), fun c hc => h c (htu c hc)⟩
  · intro h c hc
    exact h.2 c (h.1 c hc)

theorem holds_of_readContent (locate : T → L) (n : ℕ) {t : Tree L C T} {l : L} {c : C}
    (h : readContent locate n t l = some c) : Holds t c := by
  induction n generalizing l with
  | zero => cases h
  | succ n ih =>
    unfold readContent at h
    split at h
    · next c' hl =>
      cases h
      exact ⟨l, hl⟩
    · exact ih h
    · cases h

section Operations

variable [DecidableEq L]

/-- What is at `dst` is no file, or its content is held at another location. -/
def HeldElsewhere (t : Tree L C T) (dst : L) : Prop :=
  ∀ c, t dst = some (.file c) → ∃ l, l ≠ dst ∧ t l = some (.file c)

theorem rename_self (t : Tree L C T) (l : L) : rename t l l = t := if_pos rfl

theorem rename_dst (t : Tree L C T) {src dst : L} (h : src ≠ dst) :
    rename t src dst dst = t src := by
  simp [rename, h]

theorem rename_src (t : Tree L C T) {src dst : L} (h : src ≠ dst) :
    rename t src dst src = none := by
  simp [rename, h]

theorem rename_other (t : Tree L C T) {src dst l : L} (hd : l ≠ dst) (hs : l ≠ src) :
    rename t src dst l = t l := by
  unfold rename
  split
  · rfl
  · simp [hd, hs]

theorem noNew_rename (t : Tree L C T) (src dst : L) : NoNew t (rename t src dst) := by
  intro c hc
  obtain ⟨l, hl⟩ := hc
  by_cases hsd : src = dst
  · subst hsd
    rw [rename_self] at hl
    exact ⟨l, hl⟩
  · by_cases hd : l = dst
    · subst hd
      rw [rename_dst t hsd] at hl
      exact ⟨src, hl⟩
    · by_cases hs : l = src
      · subst hs
        rw [rename_src t hsd] at hl
        cases hl
      · rw [rename_other t hd hs] at hl
        exact ⟨l, hl⟩

/-- **A rename keeps all contents exactly if what it replaces is held elsewhere too.** -/
theorem keeps_rename_iff (t : Tree L C T) {src dst : L} (h : src ≠ dst) :
    Keeps t (rename t src dst) ↔ HeldElsewhere t dst := by
  constructor
  · intro hk c hc
    obtain ⟨l, hl⟩ := hk c ⟨dst, hc⟩
    by_cases hd : l = dst
    · subst hd
      rw [rename_dst t h] at hl
      exact ⟨src, h, hl⟩
    · by_cases hs : l = src
      · subst hs
        rw [rename_src t h] at hl
        cases hl
      · rw [rename_other t hd hs] at hl
        exact ⟨l, hd, hl⟩
  · intro he c hc
    -- a holder of `c` away from the destination is enough: it stays, or moves to `dst`
    have haway : ∃ l, l ≠ dst ∧ t l = some (.file c) := by
      obtain ⟨l, hl⟩ := hc
      by_cases hd : l = dst
      · subst hd
        exact he c hl
      · exact ⟨l, hd, hl⟩
    obtain ⟨l, hd, hl⟩ := haway
    by_cases hs : l = src
    · subst hs
      exact ⟨dst, (rename_dst t h).trans hl⟩
    · exact ⟨l, (rename_other t hd hs).trans hl⟩

/-- Writing to a free location loses nothing. -/
theorem keeps_put (t : Tree L C T) {l : L} (node : Node C T) (h : t l = none) :
    Keeps t (put t l node) := by
  intro c hc
  obtain ⟨x, hx⟩ := hc
  refine ⟨x, ?_⟩
  have hne : x ≠ l := by
    intro he
    rw [he, h] at hx
    cases hx
  simp [put, hne, hx]

/-- Writing a content that is held already brings nothing new. -/
theorem noNew_put_file (t : Tree L C T) (l : L) {c : C} (h : Holds t c) :
    NoNew t (put t l (.file c)) := by
  intro d hd
  obtain ⟨x, hx⟩ := hd
  unfold put at hx
  split at hx
  · cases hx
    exact h
  · exact ⟨x, hx⟩

theorem noNew_remove (t : Tree L C T) (l : L) : NoNew t (remove t l) := by
  intro d hd
  obtain ⟨x, hx⟩ := hd
  unfold remove at hx
  split at hx
  · cases hx
  · exact ⟨x, hx⟩

/-- Removing a file whose content is held elsewhere loses nothing. -/
theorem keeps_remove (t : Tree L C T) {l : L} (h : HeldElsewhere t l) : Keeps t (remove t l) := by
  intro c hc
  obtain ⟨x, hx⟩ := hc
  by_cases hxl : x = l
  · subst hxl
    obtain ⟨y, hy, hyc⟩ := h c hx
    exact ⟨y, by simp [remove, hy, hyc]⟩
  · exact ⟨x, by simp [remove, hxl, hx]⟩

end Operations

end FileTree

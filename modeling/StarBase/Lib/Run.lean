import Mathlib.Tactic.Common

/-!
# Runs of a deterministic machine

A run folds a step function `next : σ → τ → σ` over a list of inputs.

* `Always next P s ts` — `P` holds in every state of the run, the first and the last included;
* `Each next C s ts` — every input meets `C` in the state it is taken in;
* `always_of_each` — **PROVED**: what every step preserves holds throughout;
* `always_iff_each` — **PROVED**: when a step preserves `P` exactly if it meets `C`, a run keeps `P`
  exactly if all its steps meet `C`;
* `always_iff_each_of_invariant` — **PROVED**: the same for a property that follows from an
  invariant of the steps that meet `C` and fails after any other;
* `fault_iff_each` — **PROVED**: a fault that exactly the steps leave that do not meet `C` is there at
  the end exactly if not all steps meet it;
* `each_of_not_last` — **PROVED**: when the steps that do not meet `C` leave a fault that stays, a run
  that ends without it has none.
-/

namespace Run

variable {σ τ : Type*} (next : σ → τ → σ)

/-- `P` holds in every state reached. -/
def Always (P : σ → Prop) : σ → List τ → Prop
  | s, [] => P s
  | s, t :: ts => P s ∧ Always P (next s t) ts

/-- Every input meets `C` in the state it is taken in. -/
def Each (C : σ → τ → Prop) : σ → List τ → Prop
  | _, [] => True
  | s, t :: ts => C s t ∧ Each C (next s t) ts

instance decidableAlways (P : σ → Prop) [DecidablePred P] :
    ∀ (s : σ) (ts : List τ), Decidable (Always next P s ts)
  | s, [] => inferInstanceAs (Decidable (P s))
  | s, t :: ts => @instDecidableAnd _ _ _ (decidableAlways P (next s t) ts)

variable {next}

theorem always_iff_take {P : σ → Prop} {s : σ} {ts : List τ} :
    Always next P s ts ↔ ∀ k, P ((ts.take k).foldl next s) := by
  induction ts generalizing s with
  | nil => simp [Always]
  | cons t ts ih =>
    constructor
    · intro h k
      cases k with
      | zero => exact h.1
      | succ k => exact ih.mp h.2 k
    · intro h
      exact ⟨h 0, ih.mpr fun k => h (k + 1)⟩

theorem Always.start {P : σ → Prop} {s : σ} {ts : List τ} (h : Always next P s ts) : P s := by
  cases ts with
  | nil => exact h
  | cons t ts => exact h.1

theorem Always.last {P : σ → Prop} {s : σ} {ts : List τ} (h : Always next P s ts) :
    P (ts.foldl next s) := by
  have := always_iff_take.mp h ts.length
  rwa [List.take_length] at this

theorem each_of_forall {C : σ → τ → Prop} (h : ∀ s t, C s t) {s : σ} {ts : List τ} :
    Each next C s ts := by
  induction ts generalizing s with
  | nil => trivial
  | cons t ts ih => exact ⟨h s t, ih⟩

theorem each_of_mem {C : σ → τ → Prop} {s : σ} {ts : List τ} (h : ∀ t ∈ ts, ∀ s, C s t) :
    Each next C s ts := by
  induction ts generalizing s with
  | nil => trivial
  | cons t ts ih =>
    exact ⟨h t List.mem_cons_self s, ih fun u hu => h u (List.mem_cons_of_mem _ hu)⟩

/-- **The run rule.**  What every step that meets `C` preserves holds throughout a run whose steps
meet `C`. -/
theorem always_of_each {P : σ → Prop} {C : σ → τ → Prop}
    (hstep : ∀ s t, P s → C s t → P (next s t)) {s : σ} {ts : List τ} (hs : P s)
    (h : Each next C s ts) : Always next P s ts := by
  induction ts generalizing s with
  | nil => exact hs
  | cons t ts ih => exact ⟨hs, ih (hstep s t hs h.1) h.2⟩

theorem Each.and {C D : σ → τ → Prop} {s : σ} {ts : List τ} (h : Each next C s ts)
    (h' : Each next D s ts) : Each next (fun s t => C s t ∧ D s t) s ts := by
  induction ts generalizing s with
  | nil => trivial
  | cons t ts ih => exact ⟨⟨h.1, h'.1⟩, ih h.2 h'.2⟩

/-- What a step that meets `C` from the invariant has, every step of a run has whose steps meet `C`. -/
theorem each_of_invariant {I : σ → Prop} {C D : σ → τ → Prop}
    (hI : ∀ s t, I s → C s t → I (next s t)) (hD : ∀ s t, I s → C s t → D s t) {s : σ} {ts : List τ}
    (hs : I s) (h : Each next C s ts) : Each next D s ts := by
  induction ts generalizing s with
  | nil => trivial
  | cons t ts ih => exact ⟨hD s t hs h.1, ih (hI s t hs h.1) h.2⟩

/-- **The exact run rule.**  Under a side condition `A` on the steps, a run keeps `P` exactly if
each of its steps meets the condition under which one step keeps it. -/
theorem always_iff_each {P : σ → Prop} {A C : σ → τ → Prop}
    (hstep : ∀ s t, P s → A s t → (P (next s t) ↔ C s t)) {s : σ} {ts : List τ} (hs : P s)
    (hA : Each next A s ts) : Always next P s ts ↔ Each next C s ts := by
  induction ts generalizing s with
  | nil => exact ⟨fun _ => trivial, fun _ => hs⟩
  | cons t ts ih =>
    constructor
    · intro h
      have hnext : P (next s t) := h.2.start
      exact ⟨(hstep s t hs hA.1).mp hnext, (ih hnext hA.2).mp h.2⟩
    · intro h
      have hnext : P (next s t) := (hstep s t hs hA.1).mpr h.1
      exact ⟨hs, (ih hnext hA.2).mpr h.2⟩

/-- **The exact run rule with an invariant.**  The steps that meet `C` keep an invariant `I` from
which `P` follows, and `P` fails right after a step from `I` that does not meet it. -/
theorem always_iff_each_of_invariant {I P : σ → Prop} {C : σ → τ → Prop}
    (hI : ∀ s t, I s → C s t → I (next s t)) (hP : ∀ s, I s → P s)
    (hC : ∀ s t, I s → P (next s t) → C s t) {s : σ} {ts : List τ} (hs : I s) :
    Always next P s ts ↔ Each next C s ts := by
  constructor
  · intro h
    induction ts generalizing s with
    | nil => trivial
    | cons t ts ih =>
      have hc : C s t := hC s t hs h.2.start
      exact ⟨hc, ih (hI s t hs hc) h.2⟩
  · intro h
    induction ts generalizing s with
    | nil => exact hP s hs
    | cons t ts ih => exact ⟨hP s hs, ih (hI s t hs h.1) h.2⟩

/-- What every step preserves holds at the end of a run. -/
theorem foldl_preserves {P : σ → Prop} (h : ∀ s t, P s → P (next s t)) {s : σ} (hs : P s)
    (ts : List τ) : P (ts.foldl next s) := by
  induction ts generalizing s with
  | nil => exact hs
  | cons t ts ih => exact ih (h s t hs)

/-- **The rule of the lasting fault.**  If a step of the run that does not meet `C` leaves a fault
that no step removes, all steps of a run without the fault at its end meet `C`. -/
theorem each_of_not_last {I F : σ → Prop} {C : σ → τ → Prop} (hI : ∀ s t, I s → I (next s t))
    (hstays : ∀ s t, F s → F (next s t)) {s : σ} {ts : List τ}
    (hfault : ∀ s, ∀ t ∈ ts, I s → ¬ C s t → F (next s t)) (hs : I s)
    (h : ¬ F (ts.foldl next s)) : Each next C s ts := by
  induction ts generalizing s with
  | nil => trivial
  | cons t ts ih =>
    have hrest : ∀ s, ∀ u ∈ ts, I s → ¬ C s u → F (next s u) :=
      fun s u hu => hfault s u (List.mem_cons_of_mem _ hu)
    refine ⟨?_, ih hrest (hI s t hs) h⟩
    by_contra hc
    exact h (foldl_preserves hstays (hfault s t (List.mem_cons_self) hs hc) ts)

/-- **The exact rule of the lasting fault.**  When a step leaves the fault exactly if it was there
or the step does not meet `C`, a run ends with it exactly if it began with it or not all its steps
meet `C`. -/
theorem fault_iff_each {F : σ → Prop} {A C : σ → τ → Prop}
    (hstep : ∀ s t, A s t → (F (next s t) ↔ F s ∨ ¬ C s t)) {s : σ} {ts : List τ}
    (hA : Each next A s ts) : F (ts.foldl next s) ↔ F s ∨ ¬ Each next C s ts := by
  induction ts generalizing s with
  | nil =>
    constructor
    · exact Or.inl
    · rintro (h | h)
      · exact h
      · exact absurd trivial h
  | cons t ts ih =>
    rw [List.foldl_cons, ih hA.2, hstep s t hA.1, or_assoc, ← not_and_or]
    rfl

end Run

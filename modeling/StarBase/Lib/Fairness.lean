import Mathlib.Order.Basic
import Mathlib.Tactic.Common

/-!
# Fair schedules

An infinite schedule gives a machine one event after the other, each of one thread or of the world
around.  It is fair when every thread comes again and again.

* `stateAt` — the state before the `k`-th event;
* `invariant_at` — **PROVED**: what every step preserves holds all along;
* `reaches_of_fair` — **PROVED**: when some thread can go on as long as the goal is not reached, a step
  of such a thread lowers a cost, and no other step raises the cost or takes from a thread that it
  can go on, a fair schedule reaches the goal.
-/

namespace Fairness

variable {σ τ θ : Type*} (next : σ → τ → σ)

/-- The state before the `k`-th event of a schedule. -/
def stateAt (s : σ) (es : ℕ → τ) : ℕ → σ
  | 0 => s
  | k + 1 => next (stateAt s es k) (es k)

/-- Every thread comes again and again. -/
def Fair (thread : τ → Option θ) (es : ℕ → τ) : Prop :=
  ∀ t k, ∃ m, k ≤ m ∧ thread (es m) = some t

variable {next}

theorem invariant_at {I : σ → Prop} {C : σ → τ → Prop} (hI : ∀ s e, I s → C s e → I (next s e))
    {s : σ} {es : ℕ → τ} (hs : I s) (hC : ∀ k, C (stateAt next s es k) (es k)) (k : ℕ) :
    I (stateAt next s es k) := by
  induction k with
  | zero => exact hs
  | succ k ih => exact hI _ _ ih (hC k)

/-- What the rule of fair schedules asks of a machine: `I` is an invariant of the steps that meet
`C`, and `canGo s t` says that the thread `t` is not blocked in `s`. -/
structure Drains (next : σ → τ → σ) (thread : τ → Option θ) (I : σ → Prop) (C : σ → τ → Prop)
    (goal : σ → Prop) (canGo : σ → θ → Prop) (cost : σ → ℕ) : Prop where
  keeps : ∀ s e, I s → C s e → I (next s e)
  live : ∀ s, I s → goal s ∨ ∃ t, canGo s t
  lowers : ∀ s e t, I s → C s e → thread e = some t → canGo s t → cost (next s e) < cost s
  /-- A step that does not lower the cost changes nothing for any thread. -/
  stays : ∀ s e, I s → C s e → cost (next s e) < cost s ∨
    cost (next s e) = cost s ∧ ∀ t, canGo s t → canGo (next s e) t

variable {thread : τ → Option θ} {I : σ → Prop} {C : σ → τ → Prop} {goal : σ → Prop}
  {canGo : σ → θ → Prop} {cost : σ → ℕ}

/-- A thread that can go on lowers the cost by the time it comes. -/
theorem Drains.lower_by (h : Drains next thread I C goal canGo cost) {s : σ} {es : ℕ → τ}
    (hs : I s) (hC : ∀ k, C (stateAt next s es k) (es k)) {t : θ} (d : ℕ) :
    ∀ k, canGo (stateAt next s es k) t → thread (es (k + d)) = some t →
      ∃ j, cost (stateAt next s es j) < cost (stateAt next s es k) := by
  induction d with
  | zero =>
    intro k hgo ht
    exact ⟨k + 1, h.lowers _ _ t (invariant_at h.keeps hs hC k) (hC k) ht hgo⟩
  | succ d ih =>
    intro k hgo ht
    rcases h.stays _ _ (invariant_at h.keeps hs hC k) (hC k) with hlow | ⟨hsame, hkeep⟩
    · exact ⟨k + 1, hlow⟩
    · have ht' : thread (es (k + 1 + d)) = some t := by
        rw [Nat.add_right_comm, Nat.add_assoc]
        exact ht
      obtain ⟨j, hj⟩ := ih (k + 1) (hkeep t hgo) ht'
      exact ⟨j, lt_of_lt_of_eq hj hsame⟩

/-- **The rule of fair schedules.** -/
theorem Drains.reaches_of_fair (h : Drains next thread I C goal canGo cost) {s : σ} {es : ℕ → τ}
    (hs : I s) (hC : ∀ k, C (stateAt next s es k) (es k)) (hfair : Fair thread es) :
    ∃ k, goal (stateAt next s es k) := by
  have hfrom : ∀ c k, cost (stateAt next s es k) = c → ∃ j, goal (stateAt next s es j) := by
    intro c
    induction c using Nat.strongRecOn with
    | ind c ih =>
      intro k hk
      rcases h.live _ (invariant_at h.keeps hs hC k) with hgoal | ⟨t, hgo⟩
      · exact ⟨k, hgoal⟩
      · obtain ⟨m, hm, ht⟩ := hfair t k
        obtain ⟨d, rfl⟩ := Nat.exists_eq_add_of_le hm
        obtain ⟨j, hj⟩ := h.lower_by hs hC d k hgo ht
        exact ih _ (hk ▸ hj) j rfl
  exact hfrom _ 0 rfl

end Fairness

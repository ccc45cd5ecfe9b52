import Mathlib.Data.Fintype.Card
import Mathlib.Tactic.Common

/-!
# Threads that wait on a condition variable

Threads `W` with states `σ`.  A condition variable has the threads that wait on it, the threads it
woke that are about to test the condition again, and the threads that still owe it a `notify_one`.

* `count` — how many threads are in a state;
* `NotifyOne`, `notifyAll` — what the two notifications do;
* `Covers` — nobody waits, or every unit of the resource waited for has a thread that is awake or a
  notification that is owed;
* `Released` — nobody waits, or a `notify_all` is owed;
* `Covers.update`, `Covers.notifyOne` — **PROVED**: a change of one thread that pays for the change
  of the resource keeps the cover, and so does a notification.
-/

namespace CondVar

variable {W σ : Type*} [Fintype W]

/-- How many threads are in a state with `p`. -/
def count (f : W → σ) (p : σ → Bool) : ℕ := (Finset.univ.filter fun w => p (f w) = true).card

theorem count_eq_zero_iff {f : W → σ} {p : σ → Bool} : count f p = 0 ↔ ∀ w, p (f w) = false := by
  unfold count
  rw [Finset.card_eq_zero, Finset.filter_eq_empty_iff]
  simp

section Update

variable [DecidableEq W]

theorem count_update (f : W → σ) (p : σ → Bool) (w : W) (x : σ) :
    count (Function.update f w x) p + (p (f w)).toNat = count f p + (p x).toNat := by
  -- away from `w` both count the same threads
  have hsplit : ∀ g : W → σ, count g p
      = (p (g w)).toNat + ((Finset.univ.erase w).filter fun v => p (g v) = true).card := by
    intro g
    unfold count
    conv_lhs => rw [← Finset.insert_erase (Finset.mem_univ w), Finset.filter_insert]
    split
    · next hp =>
      rw [Finset.card_insert_of_notMem (by simp), hp, Nat.add_comm]
      rfl
    · next hp => simp [hp]
  have hsame : ((Finset.univ.erase w).filter fun v => p (Function.update f w x v) = true)
      = (Finset.univ.erase w).filter fun v => p (f v) = true := by
    refine Finset.filter_congr fun v hv => ?_
    rw [Function.update_of_ne (Finset.ne_of_mem_erase hv)]
  rw [hsplit (Function.update f w x), hsplit f, hsame, Function.update_self]
  omega

theorem count_update_of_none {f : W → σ} {p : σ → Bool} (h : count f p = 0) (w : W) {x : σ}
    (hx : p x = false) : count (Function.update f w x) p = 0 := by
  have hupdate := count_update f p w x
  rw [h, hx] at hupdate
  simp only [Bool.toNat_false] at hupdate
  omega

end Update

/-! ### Notifications -/

/-- `notify_one`: some waiting thread is woken, if there is one. -/
inductive NotifyOne [DecidableEq W] (waits : σ → Bool) (wake : σ → σ) (f : W → σ) : (W → σ) → Prop
  | nobody : (∀ w, waits (f w) = false) → NotifyOne waits wake f f
  | woken (w : W) : waits (f w) = true →
      NotifyOne waits wake f (Function.update f w (wake (f w)))

/-- `notify_all`: every waiting thread is woken. -/
def notifyAll (waits : σ → Bool) (wake : σ → σ) (f : W → σ) : W → σ :=
  fun w => if waits (f w) then wake (f w) else f w

theorem count_notifyAll {waits : σ → Bool} {wake : σ → σ} (f : W → σ)
    (hwake : ∀ x, waits x = true → waits (wake x) = false) :
    count (notifyAll waits wake f) waits = 0 := by
  rw [count_eq_zero_iff]
  intro w
  unfold notifyAll
  split
  · next h => exact hwake _ h
  · next h => simpa using h

omit [Fintype W] in
/-- What waking does not change, `notify_all` does not change. -/
theorem notifyAll_apply {waits : σ → Bool} {wake : σ → σ} {p : σ → Bool}
    (h : ∀ x, waits x = true → p (wake x) = p x) (f : W → σ) (w : W) :
    p (notifyAll waits wake f w) = p (f w) := by
  unfold notifyAll
  split
  · next hw => exact h _ hw
  · rfl

/-! ### Covered resources -/

/-- Nobody waits, or every unit of the resource has a thread that is awake or a notification. -/
def Covers (waits awake owes : σ → Bool) (resource : ℕ) (f : W → σ) : Prop :=
  count f waits = 0 ∨ resource ≤ count f awake + count f owes

variable {waits awake owes : σ → Bool} {r r' : ℕ} {f g : W → σ}

theorem covers_of_none (h : r = 0) : Covers waits awake owes r f := by
  subst h
  exact Or.inr (Nat.zero_le _)

/-- With nobody awake and nothing owed, whoever waits waits for a resource that is not there. -/
theorem Covers.eq_zero (h : Covers waits awake owes r f) (hawake : count f awake = 0)
    (howes : count f owes = 0) {w : W} (hw : waits (f w) = true) : r = 0 := by
  rcases h with hnone | hcover
  · rw [count_eq_zero_iff.mp hnone w] at hw
    cases hw
  · omega

variable [DecidableEq W]

/-- A thread that does not go to wait pays for the change of the resource with what it becomes. -/
theorem Covers.update (h : Covers waits awake owes r f) (w : W) {x : σ} (hx : waits x = false)
    (hpays : r' + (awake (f w)).toNat + (owes (f w)).toNat
      ≤ r + (awake x).toNat + (owes x).toNat) :
    Covers waits awake owes r' (Function.update f w x) := by
  have hawake := count_update f awake w x
  have howes := count_update f owes w x
  rcases h with hnone | hcover
  · exact Or.inl (count_update_of_none hnone w hx)
  · right
    omega

/-- A thread that owes a notification gives it and turns to something else. -/
theorem Covers.notifyOne {wake : σ → σ} (h : Covers waits awake owes r f)
    (hn : NotifyOne waits wake f g) (w : W) {x : σ} (hx : waits x = false)
    (hw : waits (f w) = false ∧ awake (f w) = false ∧ owes (f w) = true)
    (hwaiting : ∀ y, waits y = true → awake y = false ∧ owes y = false)
    (hwake : ∀ y, waits y = true → waits (wake y) = false ∧ awake (wake y) = true) :
    Covers waits awake owes r (Function.update g w x) := by
  cases hn with
  | nobody hnone =>
    exact Or.inl (count_update_of_none (count_eq_zero_iff.mpr hnone) w hx)
  | woken u hu =>
    have huw : w ≠ u := by
      intro he
      rw [← he, hw.1] at hu
      cases hu
    have hwoken : Covers waits awake owes (r + 1) (Function.update f u (wake (f u))) := by
      refine h.update u (hwake _ hu).1 ?_
      rw [(hwaiting _ hu).1, (hwaiting _ hu).2, (hwake _ hu).2]
      simp
    refine hwoken.update w hx ?_
    rw [Function.update_of_ne huw, hw.2.1, hw.2.2]
    simp only [Bool.toNat_false, Bool.toNat_true]
    omega

/-- A notification of another condition variable leaves the cover. -/
theorem Covers.notifyOther {wake : σ → σ} {waits' : σ → Bool} (h : Covers waits awake owes r f)
    (hn : NotifyOne waits' wake f g)
    (hbefore : ∀ y, waits' y = true → awake y = false ∧ owes y = false)
    (hafter : ∀ y, waits' y = true → waits (wake y) = false) : Covers waits awake owes r g := by
  cases hn with
  | nobody _ => exact h
  | woken u hu =>
    refine h.update u (hafter _ hu) ?_
    rw [(hbefore _ hu).1, (hbefore _ hu).2]
    simp only [Bool.toNat_false]
    omega

/-! ### Released waiters -/

omit [DecidableEq W] in
theorem count_congr {p : σ → Bool} (h : ∀ w, p (g w) = p (f w)) : count g p = count f p := by
  unfold count
  simp only [h]

/-- Nobody waits any more, or some thread still owes a `notify_all`. -/
def Released (waits wakes : σ → Bool) (f : W → σ) : Prop :=
  count f waits = 0 ∨ ∃ w, wakes (f w) = true

variable {wakes : σ → Bool}

omit [DecidableEq W] in
/-- With no `notify_all` owed, nobody waits. -/
theorem Released.not_waits (h : Released waits wakes f) (hwakes : count f wakes = 0) (w : W) :
    waits (f w) = false := by
  rcases h with hnone | ⟨u, hu⟩
  · exact count_eq_zero_iff.mp hnone w
  · rw [count_eq_zero_iff.mp hwakes u] at hu
    cases hu

/-- A thread that does not go to wait, and does not drop a `notify_all` it owes, keeps the others
released. -/
theorem Released.update (h : Released waits wakes f) (w : W) {x : σ} (hx : waits x = false)
    (hw : wakes (f w) = true → wakes x = true) :
    Released waits wakes (Function.update f w x) := by
  rcases h with hnone | ⟨u, hu⟩
  · exact Or.inl (count_update_of_none hnone w hx)
  · right
    by_cases huw : u = w
    · exact ⟨w, by rw [Function.update_self]; exact hw (huw ▸ hu)⟩
    · exact ⟨u, by rw [Function.update_of_ne huw]; exact hu⟩

theorem Released.notifyOne {wake : σ → σ} {waits' : σ → Bool} (h : Released waits wakes f)
    (hn : NotifyOne waits' wake f g) (hwake : ∀ y, waits' y = true → waits (wake y) = false)
    (hwakes : ∀ y, waits' y = true → wakes y = false) : Released waits wakes g := by
  cases hn with
  | nobody _ => exact h
  | woken u hu =>
    refine h.update u (hwake _ hu) fun hw => ?_
    rw [hwakes _ hu] at hw
    cases hw

omit [DecidableEq W] in
/-- A change of threads that matters neither to the waiters nor to the wakers. -/
theorem Released.congr (h : Released waits wakes f)
    (hwaits : ∀ w, waits (g w) = waits (f w)) (hwakes : ∀ w, wakes (g w) = wakes (f w)) :
    Released waits wakes g := by
  rcases h with hnone | ⟨w, hw⟩
  · exact Or.inl ((count_congr hwaits).trans hnone)
  · exact Or.inr ⟨w, (hwakes w).trans hw⟩

end CondVar

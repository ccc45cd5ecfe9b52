import Mathlib.Data.List.Nodup
import Mathlib.Logic.Function.Basic
import Mathlib.Tactic.Common

/-!
# Workers over one queue

A pool is a queue of items, one hand for each worker, and the items that are done.  A worker with
an empty hand takes the first item of the queue; a worker with an item finishes it.

* `Conserved` — an item is queued, in a hand or done exactly if the pool was started with it;
* `Apart` — no two places hold items of the same key;
* `conserved_step`, `apart_step` — **PROVED**: both are kept by every step of every worker;
* `conserved_push`, `apart_push` — **PROVED**: and by queueing an item that is new.
-/

namespace WorkPool

variable {W α κ : Type*}

structure Pool (W α : Type*) where
  queue : List α
  hand : W → Option α
  done : List α

/-- The pool before the first step. -/
def Pool.start (items : List α) : Pool W α := ⟨items, fun _ => none, []⟩

/-- One step of one worker. -/
inductive Step [DecidableEq W] : Pool W α → Pool W α → Prop
  | stay (p : Pool W α) : Step p p
  | take (p : Pool W α) (w : W) (a : α) (rest : List α) :
      p.hand w = none → p.queue = a :: rest →
      Step p { p with queue := rest, hand := Function.update p.hand w (some a) }
  | finish (p : Pool W α) (w : W) (a : α) :
      p.hand w = some a →
      Step p { p with hand := Function.update p.hand w none, done := p.done ++ [a] }

/-- The pool of what the items are sent to. -/
def Pool.map {β : Type*} (f : α → β) (p : Pool W α) : Pool W β where
  queue := p.queue.map f
  hand w := (p.hand w).map f
  done := p.done.map f

theorem step_map {β : Type*} [DecidableEq W] (f : α → β) {p q : Pool W α} (h : Step p q) :
    Step (p.map f) (q.map f) := by
  have hset : ∀ (w : W) (x : Option α), (fun v => (Function.update p.hand w x v).map f) =
      Function.update (fun v => (p.hand v).map f) w (x.map f) :=
    fun w x => Function.comp_update (Option.map f) p.hand w x
  cases h with
  | stay => exact .stay _
  | take w a rest hw hq =>
    have he := Step.take (p.map f) w (f a) (rest.map f) (by simp [Pool.map, hw])
      (by simp [Pool.map, hq])
    unfold Pool.map at he ⊢
    rw [hset]
    exact he
  | finish w a hw =>
    have he := Step.finish (p.map f) w (f a) (by simp [Pool.map, hw])
    unfold Pool.map at he ⊢
    rw [hset, List.map_append]
    exact he

/-- What a hand holds after one hand was set. -/
theorem hand_update_eq_some [DecidableEq W] {f : W → Option α} {v w : W} {x : Option α} {b : α} :
    Function.update f w x v = some b ↔ (v = w ∧ x = some b) ∨ (v ≠ w ∧ f v = some b) := by
  by_cases h : v = w
  · rw [h, Function.update_self]
    simp
  · rw [Function.update_of_ne h]
    simp [h]

/-! ### No item is lost or made up -/

def Conserved (items : List α) (p : Pool W α) : Prop :=
  ∀ a, a ∈ items ↔ a ∈ p.queue ∨ (∃ w, p.hand w = some a) ∨ a ∈ p.done

theorem conserved_start (items : List α) : Conserved items (Pool.start (W := W) items) := by
  intro a
  simp [Pool.start]

theorem conserved_step [DecidableEq W] {items : List α} {p q : Pool W α}
    (hp : Conserved items p) (h : Step p q) : Conserved items q := by
  cases h with
  | stay => exact hp
  | take w a rest hw hq =>
    intro b
    rw [hp b, hq]
    constructor
    · intro hb
      rcases hb with hb | ⟨v, hv⟩ | hb
      · rcases List.mem_cons.mp hb with rfl | hb
        · exact Or.inr (Or.inl ⟨w, Function.update_self ..⟩)
        · exact Or.inl hb
      · have hvw : v ≠ w := by
          intro he
          rw [he, hw] at hv
          cases hv
        exact Or.inr (Or.inl ⟨v, hand_update_eq_some.mpr (Or.inr ⟨hvw, hv⟩)⟩)
      · exact Or.inr (Or.inr hb)
    · intro hb
      rcases hb with hb | ⟨v, hv⟩ | hb
      · exact Or.inl (List.mem_cons_of_mem _ hb)
      · rcases hand_update_eq_some.mp hv with ⟨-, ha⟩ | ⟨-, hv⟩
        · cases ha
          exact Or.inl List.mem_cons_self
        · exact Or.inr (Or.inl ⟨v, hv⟩)
      · exact Or.inr (Or.inr hb)
  | finish w a hw =>
    intro b
    rw [hp b]
    show _ ↔ b ∈ p.queue ∨ _ ∨ b ∈ p.done ++ [a]
    rw [List.mem_append, List.mem_singleton]
    constructor
    · intro hb
      rcases hb with hb | ⟨v, hv⟩ | hb
      · exact Or.inl hb
      · by_cases hvw : v = w
        · rw [hvw, hw] at hv
          cases hv
          exact Or.inr (Or.inr (Or.inr rfl))
        · exact Or.inr (Or.inl ⟨v, hand_update_eq_some.mpr (Or.inr ⟨hvw, hv⟩)⟩)
      · exact Or.inr (Or.inr (Or.inl hb))
    · intro hb
      rcases hb with hb | ⟨v, hv⟩ | hb | rfl
      · exact Or.inl hb
      · rcases hand_update_eq_some.mp hv with ⟨-, ha⟩ | ⟨-, hv⟩
        · cases ha
        · exact Or.inr (Or.inl ⟨v, hv⟩)
      · exact Or.inr (Or.inr hb)
      · exact Or.inr (Or.inl ⟨w, hw⟩)

/-- An item is queued. -/
theorem conserved_push {items : List α} {p : Pool W α} (hp : Conserved items p) (a : α) :
    Conserved (items ++ [a]) { p with queue := p.queue ++ [a] } := by
  intro b
  rw [List.mem_append, hp b]
  show _ ↔ b ∈ p.queue ++ [a] ∨ _ ∨ b ∈ p.done
  rw [List.mem_append]
  tauto

/-- When the queue is empty and so are the hands, everything is done. -/
theorem Conserved.all_done {items : List α} {p : Pool W α} (hp : Conserved items p)
    (hq : p.queue = []) (hw : ∀ w, p.hand w = none) (a : α) : a ∈ items ↔ a ∈ p.done := by
  rw [hp a, hq]
  simp [hw]

/-! ### No two places hold one key -/

structure Apart (key : α → κ) (p : Pool W α) : Prop where
  nodup : ((p.done ++ p.queue).map key).Nodup
  fresh : ∀ w a, p.hand w = some a → ∀ b ∈ p.done ++ p.queue, key a ≠ key b
  hands : ∀ v w a b, p.hand v = some a → p.hand w = some b → key a = key b → v = w

theorem apart_start {key : α → κ} {items : List α} (h : (items.map key).Nodup) :
    Apart key (Pool.start (W := W) items) where
  nodup := by simpa [Pool.start] using h
  fresh := by simp [Pool.start]
  hands := by simp [Pool.start]

theorem apart_take [DecidableEq W] {key : α → κ} {p : Pool W α} (hp : Apart key p) {w : W} {a : α}
    {rest : List α} (hq : p.queue = a :: rest) :
    Apart key { p with queue := rest, hand := Function.update p.hand w (some a) } := by
  have hnd := hp.nodup
  rw [hq, List.map_append, List.map_cons, List.nodup_middle, List.nodup_cons,
    ← List.map_append] at hnd
  have hmem : ∀ b ∈ p.done ++ rest, b ∈ p.done ++ p.queue := by
    intro b hb
    rw [hq]
    rcases List.mem_append.mp hb with hb | hb
    · exact List.mem_append_left _ hb
    · exact List.mem_append_right _ (List.mem_cons_of_mem _ hb)
  have hfirst : a ∈ p.done ++ p.queue := by simp [hq]
  constructor
  · exact hnd.2
  · intro v b hv c hc
    rcases hand_update_eq_some.mp hv with ⟨-, ha⟩ | ⟨-, hv⟩
    · cases ha
      exact fun he => hnd.1 (he ▸ List.mem_map_of_mem hc)
    · exact hp.fresh v b hv c (hmem c hc)
  · intro u v b c hu hv he
    rcases hand_update_eq_some.mp hu with ⟨huw, ha⟩ | ⟨-, hu⟩
    · cases ha
      rcases hand_update_eq_some.mp hv with ⟨hvw, -⟩ | ⟨-, hv⟩
      · rw [huw, hvw]
      · exact absurd he.symm (hp.fresh v c hv _ hfirst)
    · rcases hand_update_eq_some.mp hv with ⟨-, ha⟩ | ⟨-, hv⟩
      · cases ha
        exact absurd he (hp.fresh u b hu _ hfirst)
      · exact hp.hands u v b c hu hv he

theorem apart_finish [DecidableEq W] {key : α → κ} {p : Pool W α} (hp : Apart key p) {w : W} {a : α}
    (hw : p.hand w = some a) :
    Apart key { p with hand := Function.update p.hand w none, done := p.done ++ [a] } := by
  constructor
  · show (((p.done ++ [a]) ++ p.queue).map key).Nodup
    rw [List.append_assoc, List.singleton_append, List.map_append, List.map_cons,
      List.nodup_middle, List.nodup_cons, ← List.map_append]
    refine ⟨?_, hp.nodup⟩
    intro hk
    obtain ⟨b, hb, he⟩ := List.mem_map.mp hk
    exact hp.fresh w a hw b hb he.symm
  · intro v b hv c hc
    rcases hand_update_eq_some.mp hv with ⟨-, ha⟩ | ⟨hvw, hv'⟩
    · cases ha
    · have hc' : c ∈ p.done ++ p.queue ∨ c = a := by
        simp only [List.mem_append, List.mem_singleton] at hc ⊢
        tauto
      rcases hc' with hc | rfl
      · exact hp.fresh v b hv' c hc
      · exact fun he => hvw (hp.hands v w b c hv' hw he)
  · intro u v b c hu hv he
    rcases hand_update_eq_some.mp hu with ⟨-, ha⟩ | ⟨-, hu⟩
    · cases ha
    · rcases hand_update_eq_some.mp hv with ⟨-, ha⟩ | ⟨-, hv⟩
      · cases ha
      · exact hp.hands u v b c hu hv he

/-- An item is queued whose key is nowhere yet. -/
theorem apart_push {key : α → κ} {p : Pool W α} (hp : Apart key p) {a : α}
    (hnew : ∀ b ∈ p.done ++ p.queue, key b ≠ key a) (hhand : ∀ w b, p.hand w = some b → key b ≠ key a) :
    Apart key { p with queue := p.queue ++ [a] } := by
  constructor
  · show ((p.done ++ (p.queue ++ [a])).map key).Nodup
    rw [← List.append_assoc, List.map_append, List.map_singleton]
    refine List.Nodup.append hp.nodup (List.nodup_singleton _) ?_
    intro k hk hk'
    rw [List.mem_singleton] at hk'
    obtain ⟨b, hb, rfl⟩ := List.mem_map.mp hk
    exact hnew b hb hk'
  · intro w b hw c hc
    have hc' : c ∈ p.done ++ p.queue ∨ c = a := by
      simp only [List.mem_append, List.mem_singleton] at hc ⊢
      tauto
    rcases hc' with hc | rfl
    · exact hp.fresh w b hw c hc
    · exact hhand w b hw
  · exact hp.hands

theorem apart_step [DecidableEq W] {key : α → κ} {p q : Pool W α} (hp : Apart key p)
    (h : Step p q) : Apart key q := by
  cases h with
  | stay => exact hp
  | take w a rest hw hq => exact apart_take hp hq
  | finish w a hw => exact apart_finish hp hw

end WorkPool

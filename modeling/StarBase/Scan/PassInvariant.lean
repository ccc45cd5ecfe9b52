import StarBase.Scan.Pass

/-!
# Invariants of the threads of a scan

* `Accounted` — each item pushed is queued, in the hand of one worker, or has a verdict;
* `Threads` — when workers start, end and are joined;
* `Books` — the counters are those of the verdicts, and the scan is recorded by them;
* `coherent_run` — **PROVED**: all three hold in every state of every run.
-/

namespace StarBase.Scan.Pass

open BoundedQueue

section Machine

variable {n : ℕ}

/-! ### The phases of the calling thread -/

/-- The loop over the tree has been left, or was never entered. -/
def MainPlace.walkOver : MainPlace → Bool
  | .loads | .marks | .spawns _ | .opens | .walks | .pushes _ => false
  | _ => true

/-- How many workers have been started. -/
def MainPlace.started (n : ℕ) : MainPlace → ℕ
  | .loads | .marks => 0
  | .spawns k => k
  | _ => n

/-- How many workers have been joined. -/
def MainPlace.reaped (n : ℕ) : MainPlace → ℕ
  | .loads | .marks | .spawns _ | .opens | .walks | .pushes _ => 0
  | .joins k _ => k
  | _ => n

/-- The reporter has been joined, if there was one. -/
def MainPlace.reporterOver : MainPlace → Bool
  | .links | .reconciles | .records | .returned | .threw _ => true
  | _ => false

/-- The reporter has been asked to end. -/
def MainPlace.asked : MainPlace → Bool
  | .joinsReporter _ => true
  | p => p.reporterOver

/-! ### What becomes of the items -/

/-- The items of a pass by their numbers: queued, in the hands of the workers, accounted for. -/
def PassState.pool (s : PassState n) : WorkPool.Pool (Fin n) ℕ where
  queue := s.queue.items.map Prod.fst
  hand := WorkerPlace.ticket ∘ s.workers
  done := s.trace.map Prod.fst

/-- Each of the items pushed so far is in one place. -/
structure Accounted (s : PassState n) : Prop where
  conserved : WorkPool.Conserved (List.range s.pushed) s.pool
  apart : WorkPool.Apart id s.pool

theorem hand_put (s : PassState n) (w : Fin n) (p : WorkerPlace) :
    WorkerPlace.ticket ∘ Function.update s.workers w p =
      Function.update (WorkerPlace.ticket ∘ s.workers) w p.ticket :=
  Function.comp_update _ _ _ _

theorem pool_put {s : PassState n} {w : Fin n} {p : WorkerPlace}
    (h : p.ticket = (s.workers w).ticket) : (s.put w p).pool = s.pool := by
  unfold PassState.pool PassState.put
  congr 1
  rw [hand_put, h]
  exact Function.update_eq_self _ _

theorem pool_worker {s t : PassState n} {w : Fin n} {a : Answer} (h : WorkerStep s w a t) :
    WorkPool.Step s.pool t.pool := by
  cases h with
  | stays => exact .stay _
  | crashes => exact .stay _
  | moves k p hm hp =>
    have he : ((s.see k).put w p).pool = s.pool := pool_put (s := s.see k) hp
    rw [he]
    exact .stay _
  | takes i rest hw hq =>
    have he := WorkPool.Step.take s.pool w i.1 (rest.map Prod.fst)
      (by show (s.workers w).ticket = none; rw [hw]; rfl)
      (by show s.queue.items.map Prod.fst = _; rw [hq]; rfl)
    convert he using 1
    unfold PassState.pool PassState.put
    congr 1
    exact hand_put s w (.holds i)
  | ends hw hq hc =>
    have he : (s.put w .ended).pool = s.pool := pool_put (by rw [hw]; rfl)
    rw [he]
    exact .stay _
  | closes k p i v hm hi hp hv =>
    have he := WorkPool.Step.finish s.pool w i hi
    convert he using 1
    unfold PassState.pool PassState.close PassState.put
    congr 1
    · rw [← hp]
      exact hand_put s w p
    · exact List.map_append

theorem Accounted.of_pool {s t : PassState n} (h : Accounted s) (hp : t.pool = s.pool)
    (hn : t.pushed = s.pushed) : Accounted t :=
  ⟨by rw [hp, hn]; exact h.conserved, by rw [hp]; exact h.apart⟩

theorem accounted_worker {s t : PassState n} (h : Accounted s) {w : Fin n} {a : Answer}
    (hs : WorkerStep s w a t) : Accounted t := by
  have hpool := pool_worker hs
  have hpushed : t.pushed = s.pushed := by cases hs <;> rfl
  constructor
  · rw [hpushed]
    exact WorkPool.conserved_step h.conserved hpool
  · exact WorkPool.apart_step h.apart hpool

theorem accounted_push {s : PassState n} (h : Accounted s) (i : WorkItem) {p : MainPlace} :
    Accounted { s with
      queue := { s.queue with items := s.queue.items ++ [(s.pushed, i)] }
      main := p
      pushed := s.pushed + 1 } := by
  have hpool : (⟨(s.queue.items ++ [(s.pushed, i)]).map Prod.fst, s.pool.hand, s.pool.done⟩ :
      WorkPool.Pool (Fin n) ℕ) = { s.pool with queue := s.pool.queue ++ [s.pushed] } := by
    unfold PassState.pool
    rw [List.map_append]
    rfl
  -- The number is new: those before it were pushed earlier.
  have hold : ∀ b, b ∈ s.pool.queue ∨ (∃ w, s.pool.hand w = some b) ∨ b ∈ s.pool.done →
      b < s.pushed := by
    intro b hb
    exact List.mem_range.mp ((h.conserved b).mpr hb)
  constructor
  · show WorkPool.Conserved (List.range (s.pushed + 1)) (⟨_, s.pool.hand, s.pool.done⟩ :
      WorkPool.Pool (Fin n) ℕ)
    rw [hpool, List.range_succ]
    exact WorkPool.conserved_push h.conserved _
  · show WorkPool.Apart id (⟨_, s.pool.hand, s.pool.done⟩ : WorkPool.Pool (Fin n) ℕ)
    rw [hpool]
    refine WorkPool.apart_push h.apart ?_ ?_
    · intro b hb
      have := hold b (by rcases List.mem_append.mp hb with hb | hb <;> tauto)
      exact Nat.ne_of_lt this
    · intro w b hb
      exact Nat.ne_of_lt (hold b (Or.inr (Or.inl ⟨w, hb⟩)))

/-- Only what was shown changes. -/
theorem emit_eq (cfg : PassConfig) (s : PassState n) :
    ∃ shown, s.emit cfg = { s with shown := shown } := by
  unfold PassState.emit
  split_ifs
  · exact ⟨_, rfl⟩
  · exact ⟨s.shown, rfl⟩

theorem accounted_walk (cfg : PassConfig) {s : PassState n} (h : Accounted s) :
    Accounted (walkNext cfg s) := by
  unfold walkNext
  split
  · exact h.of_pool rfl rfl
  · exact h.of_pool rfl rfl
  · exact h.of_pool rfl rfl
  · split_ifs
    · exact h.of_pool rfl rfl
    · split
      · exact h.of_pool rfl rfl
      · exact h.of_pool rfl rfl

theorem accounted_pushNext (cfg : PassConfig) {s : PassState n} (h : Accounted s) (i : WorkItem) :
    Accounted (pushNext cfg s i) := by
  unfold pushNext pushSection
  split_ifs
  · exact h.of_pool rfl rfl
  · exact accounted_push h i
  · exact h

theorem accounted_join {s : PassState n} (h : Accounted s) (k : ℕ) (failed : Option Str) :
    Accounted (joinNext s k failed) := by
  unfold joinNext
  split_ifs with hk
  · split
    · rename_i he
      have hp : (s.put ⟨k, hk⟩ .joined).pool = s.pool := pool_put (by rw [he]; rfl)
      exact h.of_pool hp rfl
    · exact h
  · exact h.of_pool rfl rfl

theorem accounted_main (cfg : PassConfig) {s : PassState n} (h : Accounted s)
    (hstarted : ∀ w, s.workers w = .absent ↔ s.main.started n ≤ w.val) (a : Answer) :
    Accounted (mainNext cfg s a) := by
  unfold mainNext
  cases hm : s.main with
  | spawns k =>
    dsimp only
    by_cases hk : k < n
    · rw [dif_pos hk]
      have habs : s.workers ⟨k, hk⟩ = .absent := (hstarted _).mpr (by rw [hm]; exact le_refl k)
      have hp : (s.put ⟨k, hk⟩ .connects).pool = s.pool := pool_put (by rw [habs]; rfl)
      exact h.of_pool hp rfl
    · rw [dif_neg hk]
      exact h.of_pool rfl rfl
  | opens =>
    dsimp only
    split <;> exact h.of_pool rfl rfl
  | walks => exact accounted_walk cfg h
  | pushes i => exact accounted_pushNext cfg h i
  | joins k failed => exact accounted_join h k failed
  | joinsReporter failed =>
    obtain ⟨shown, he⟩ := emit_eq cfg s
    unfold joinReporterNext
    rw [he]
    dsimp only
    split
    · exact h
    · exact h
    · exact h.of_pool rfl rfl
    · exact h.of_pool rfl rfl
  | reconciles =>
    unfold reconcileNext
    dsimp only
    split_ifs <;> exact h.of_pool rfl rfl
  | records =>
    unfold recordNext
    dsimp only
    split <;> exact h.of_pool rfl rfl
  | _ => exact h.of_pool rfl rfl

/-! ### When threads start, end and are joined -/

structure Threads (s : PassState n) : Prop where
  closed : s.queue.closed = s.main.walkOver
  absent : ∀ w, s.workers w = .absent ↔ s.main.started n ≤ w.val
  joined : ∀ w, s.workers w = .joined ↔ w.val < s.main.reaped n
  /-- A worker ends when the queue is closed and empty, and so it stays. -/
  drained : ∀ w, (s.workers w).isOver = true → s.queue.closed = true ∧ s.queue.items = []
  asked : s.main.asked = true → s.reporting = false
  reported : s.main.reporterOver = true → s.reporter = .absent ∨ s.reporter = .joined

/-- A worker that runs goes to another place, and nothing but that and the queue changes. -/
theorem Threads.put {s t : PassState n} (h : Threads s) {w : Fin n} {p : WorkerPlace}
    (hold : (s.workers w).isRunning) (hmain : t.main = s.main)
    (hworkers : t.workers = Function.update s.workers w p) (hreporter : t.reporter = s.reporter)
    (hreporting : t.reporting = s.reporting) (hclosed : t.queue.closed = s.queue.closed)
    (habsent : p ≠ .absent) (hjoined : p ≠ .joined)
    (hitems : s.queue.items = [] → t.queue.items = [])
    (hp : p.isOver = true → t.queue.closed = true ∧ t.queue.items = []) : Threads t := by
  constructor
  · rw [hclosed, hmain]
    exact h.closed
  · intro v
    rw [hworkers, hmain, ← h.absent v]
    by_cases hv : v = w
    · rw [hv, Function.update_self]
      exact iff_of_false habsent hold.1
    · rw [Function.update_of_ne hv]
  · intro v
    rw [hworkers, hmain, ← h.joined v]
    by_cases hv : v = w
    · rw [hv, Function.update_self]
      refine iff_of_false hjoined ?_
      intro he
      have := hold.2
      rw [he] at this
      cases this
    · rw [Function.update_of_ne hv]
  · intro v hover
    rw [hworkers] at hover
    by_cases hv : v = w
    · rw [hv, Function.update_self] at hover
      exact hp hover
    · rw [Function.update_of_ne hv] at hover
      obtain ⟨hc, hi⟩ := h.drained v hover
      exact ⟨by rw [hclosed]; exact hc, hitems hi⟩
  · rw [hmain, hreporting]
    exact h.asked
  · rw [hmain, hreporter]
    exact h.reported

theorem ne_joined_of_running {p : WorkerPlace} (h : p.isRunning) : p ≠ .joined := by
  rintro rfl
  cases h.2

theorem threads_worker {s t : PassState n} (h : Threads s) {w : Fin n} {a : Answer} (hs : WorkerStep s w a t) :
    Threads t := by
  cases hs with
  | stays => exact h
  | crashes => exact ⟨h.closed, h.absent, h.joined, h.drained, h.asked, h.reported⟩
  | moves k p hm hp =>
    refine h.put hm.running rfl rfl rfl rfl rfl hm.runs.1 (ne_joined_of_running hm.runs) id ?_
    intro hover
    rw [hm.runs.2] at hover
    cases hover
  | takes i rest hw hq =>
    refine h.put (p := .holds i) ?_ rfl rfl rfl rfl rfl nofun nofun ?_ nofun
    · rw [hw]
      exact ⟨nofun, rfl⟩
    · intro hnil
      rw [hq] at hnil
      cases hnil
  | ends hw hq hc =>
    refine h.put (p := .ended) ?_ rfl rfl rfl rfl rfl nofun nofun id ?_
    · rw [hw]
      exact ⟨nofun, rfl⟩
    · exact fun _ => ⟨hc, hq⟩
  | closes k p i v hm hi hp hv =>
    refine h.put hm.running rfl rfl rfl rfl rfl hm.runs.1 (ne_joined_of_running hm.runs) id ?_
    intro hover
    rw [hm.runs.2] at hover
    cases hover

/-- The calling thread goes on in its phase. -/
theorem Threads.goes {s t : PassState n} (h : Threads s) (hworkers : t.workers = s.workers)
    (hqueue : t.queue = s.queue) (hover : t.main.walkOver = s.main.walkOver)
    (hstarted : t.main.started n = s.main.started n) (hreaped : t.main.reaped n = s.main.reaped n)
    (hasked : t.main.asked = true → t.reporting = false)
    (hreported : t.main.reporterOver = true → t.reporter = .absent ∨ t.reporter = .joined) :
    Threads t := by
  constructor
  · rw [hqueue, hover]
    exact h.closed
  · rw [hworkers, hstarted]
    exact h.absent
  · rw [hworkers, hreaped]
    exact h.joined
  · rw [hworkers, hqueue]
    exact h.drained
  · exact hasked
  · exact hreported

/-- Nobody ends before the queue is closed. -/
theorem Threads.not_over {s : PassState n} (h : Threads s) (hs : s.main.walkOver = false)
    (w : Fin n) : (s.workers w).isOver = false := by
  by_contra hover
  rw [Bool.not_eq_false] at hover
  have hc := (h.drained w hover).1
  rw [h.closed, hs] at hc
  cases hc

theorem threads_endWalk {s : PassState n} (h : Threads s) (hs : s.main.walkOver = false)
    (hstarted : s.main.started n = n) (hreaped : s.main.reaped n = 0) (failed : Option Str) :
    Threads (s.endWalk failed) := by
  constructor
  · rfl
  · intro w
    show s.workers w = .absent ↔ n ≤ w.val
    rw [h.absent w, hstarted]
  · intro w
    show s.workers w = .joined ↔ w.val < 0
    rw [h.joined w, hreaped]
  · intro w hover
    rw [show (s.endWalk failed).workers = s.workers from rfl, h.not_over hs w] at hover
    cases hover
  · exact nofun
  · exact nofun

theorem threads_walk (cfg : PassConfig) {s : PassState n} (h : Threads s) (hm : s.main = .walks) :
    Threads (walkNext cfg s) := by
  have hover : s.main.walkOver = false := by rw [hm]; rfl
  have hstarted : s.main.started n = n := by rw [hm]; rfl
  have hreaped : s.main.reaped n = 0 := by rw [hm]; rfl
  have hask : ¬ s.main.asked = true := by rw [hm]; nofun
  have hrep : ¬ s.main.reporterOver = true := by rw [hm]; nofun
  unfold walkNext
  split
  · exact threads_endWalk h hover hstarted hreaped none
  · exact h.goes rfl rfl rfl rfl rfl (absurd · hask) (absurd · hrep)
  · have h' := threads_endWalk h hover hstarted hreaped none
    exact h'.goes rfl rfl rfl rfl rfl nofun nofun
  · split_ifs
    · exact threads_endWalk h hover hstarted hreaped none
    · split
      · exact h.goes rfl rfl rfl rfl rfl (absurd · hask) (absurd · hrep)
      · exact h.goes rfl rfl (by rw [hm]; rfl) (by rw [hm]; rfl) (by rw [hm]; rfl) nofun nofun

/-- An open queue takes the item when it has room. -/
theorem pushNext_open (cfg : PassConfig) {s : PassState n} (i : WorkItem)
    (h : s.queue.closed = false) :
    pushNext cfg s i =
      if s.queue.items.length < capacityOf cfg.capacity then
        { s with
          queue := { s.queue with items := s.queue.items ++ [(s.pushed, i)] }
          main := .walks
          pushed := s.pushed + 1 }
      else s := by
  unfold pushNext pushSection
  rw [h]
  by_cases hroom : s.queue.items.length < capacityOf cfg.capacity
  · simp [hroom, h]
  · simp [hroom]

theorem threads_push (cfg : PassConfig) {s : PassState n} (h : Threads s) {i : WorkItem}
    (hm : s.main = .pushes i) : Threads (pushNext cfg s i) := by
  have hover : s.main.walkOver = false := by rw [hm]; rfl
  have hopen : s.queue.closed = false := by rw [h.closed, hover]
  rw [pushNext_open cfg i hopen]
  split_ifs
  · constructor
    · exact hopen
    · intro w
      rw [h.absent w, hm]
      rfl
    · intro w
      rw [h.joined w, hm]
      rfl
    · intro w hw
      rw [h.not_over hover w] at hw
      cases hw
    · exact nofun
    · exact nofun
  · exact h

theorem threads_spawn {s : PassState n} (h : Threads s) {k : ℕ} (hm : s.main = .spawns k)
    (hk : k < n) :
    Threads { s.put ⟨k, hk⟩ .connects with main := .spawns (k + 1) } := by
  have hover : s.main.walkOver = false := by rw [hm]; rfl
  constructor
  · show s.queue.closed = false
    rw [h.closed, hover]
  · intro v
    show Function.update s.workers ⟨k, hk⟩ .connects v = .absent ↔ k + 1 ≤ v.val
    by_cases hv : v = ⟨k, hk⟩
    · rw [hv, Function.update_self]
      simp
    · have hne : v.val ≠ k := fun he => hv (Fin.ext he)
      rw [Function.update_of_ne hv, h.absent v, hm]
      show k ≤ v.val ↔ k + 1 ≤ v.val
      omega
  · intro v
    show Function.update s.workers ⟨k, hk⟩ .connects v = .joined ↔ v.val < 0
    by_cases hv : v = ⟨k, hk⟩
    · rw [hv, Function.update_self]
      simp
    · rw [Function.update_of_ne hv, h.joined v, hm]
      rfl
  · intro v hv
    have hover' : (Function.update s.workers ⟨k, hk⟩ .connects v).isOver = true := hv
    by_cases hvk : v = ⟨k, hk⟩
    · rw [hvk, Function.update_self] at hover'
      cases hover'
    · rw [Function.update_of_ne hvk, h.not_over hover v] at hover'
      cases hover'
  · exact nofun
  · exact nofun

/-- The pool is complete, and the reporter starts. -/
theorem threads_spawned {s t : PassState n} (h : Threads s) {k : ℕ} (hm : s.main = .spawns k)
    (hk : ¬ k < n) (hworkers : t.workers = s.workers) (hqueue : t.queue = s.queue)
    (hmain : t.main = .opens) : Threads t := by
  constructor
  · rw [hqueue, hmain, h.closed, hm]
    rfl
  · intro w
    rw [hworkers, hmain, h.absent w, hm]
    show k ≤ w.val ↔ n ≤ w.val
    omega
  · intro w
    rw [hworkers, hmain, h.joined w, hm]
    rfl
  · rw [hworkers, hqueue]
    exact h.drained
  · rw [hmain]
    exact nofun
  · rw [hmain]
    exact nofun

theorem threads_join {s : PassState n} (h : Threads s) {k : ℕ} {failed : Option Str}
    (hm : s.main = .joins k failed) : Threads (joinNext s k failed) := by
  unfold joinNext
  by_cases hk : k < n
  · rw [dif_pos hk]
    split
    · rename_i he
      constructor
      · show s.queue.closed = true
        rw [h.closed, hm]
        rfl
      · intro v
        show Function.update s.workers ⟨k, hk⟩ .joined v = .absent ↔ n ≤ v.val
        by_cases hv : v = ⟨k, hk⟩
        · rw [hv, Function.update_self]
          simpa using hk
        · rw [Function.update_of_ne hv, h.absent v, hm]
          rfl
      · intro v
        show Function.update s.workers ⟨k, hk⟩ .joined v = .joined ↔ v.val < k + 1
        by_cases hv : v = ⟨k, hk⟩
        · rw [hv, Function.update_self]
          simp
        · have hne : v.val ≠ k := fun he => hv (Fin.ext he)
          rw [Function.update_of_ne hv, h.joined v, hm]
          show v.val < k ↔ v.val < k + 1
          omega
      · intro v hv
        exact h.drained ⟨k, hk⟩ (by rw [he]; rfl)
      · exact nofun
      · exact nofun
    · exact h
  · rw [dif_neg hk]
    constructor
    · show s.queue.closed = true
      rw [h.closed, hm]
      rfl
    · intro v
      rw [h.absent v, hm]
      rfl
    · intro v
      rw [h.joined v, hm]
      show v.val < k ↔ v.val < n
      omega
    · exact h.drained
    · exact nofun
    · exact nofun

theorem threads_joinReporter (cfg : PassConfig) {s : PassState n} (h : Threads s)
    {failed : Option Str} (hm : s.main = .joinsReporter failed) :
    Threads (joinReporterNext cfg s failed) := by
  have hask : s.reporting = false := h.asked (by rw [hm]; rfl)
  have hover : (failed.elim MainPlace.links .threw).walkOver = s.main.walkOver := by
    rw [hm]
    cases failed <;> rfl
  have hstarted : (failed.elim MainPlace.links .threw).started n = s.main.started n := by
    rw [hm]
    cases failed <;> rfl
  have hreaped : (failed.elim MainPlace.links .threw).reaped n = s.main.reaped n := by
    rw [hm]
    cases failed <;> rfl
  obtain ⟨shown, he⟩ := emit_eq cfg s
  unfold joinReporterNext
  rw [he]
  dsimp only
  cases hr : s.reporter with
  | absent =>
    exact h.goes rfl rfl hover hstarted hreaped (fun _ => hask) (fun _ => Or.inl rfl)
  | ended =>
    exact h.goes rfl rfl hover hstarted hreaped (fun _ => hask) (fun _ => Or.inr rfl)
  | joined =>
    exact h.goes rfl rfl hover hstarted hreaped (fun _ => hask) (fun _ => Or.inr rfl)
  | tests => exact h
  | emits => exact h

theorem threads_main (cfg : PassConfig) {s : PassState n} (h : Threads s) (a : Answer) :
    Threads (mainNext cfg s a) := by
  unfold mainNext
  cases hm : s.main with
  | loads => exact h.goes rfl rfl (by rw [hm]; rfl) (by rw [hm]; rfl) (by rw [hm]; rfl) nofun nofun
  | marks => exact h.goes rfl rfl (by rw [hm]; rfl) (by rw [hm]; rfl) (by rw [hm]; rfl) nofun nofun
  | spawns k =>
    dsimp only
    by_cases hk : k < n
    · rw [dif_pos hk]
      exact threads_spawn h hm hk
    · rw [dif_neg hk]
      exact threads_spawned h hm hk rfl rfl rfl
  | opens =>
    dsimp only
    split
    · exact threads_endWalk h (by rw [hm]; rfl) (by rw [hm]; rfl) (by rw [hm]; rfl) _
    · exact h.goes rfl rfl (by rw [hm]; rfl) (by rw [hm]; rfl) (by rw [hm]; rfl) nofun nofun
  | walks => exact threads_walk cfg h hm
  | pushes i => exact threads_push cfg h hm
  | joins k failed => exact threads_join h hm
  | stopsReporter failed =>
    exact h.goes rfl rfl (by rw [hm]; rfl) (by rw [hm]; rfl) (by rw [hm]; rfl) (fun _ => rfl) nofun
  | joinsReporter failed => exact threads_joinReporter cfg h hm
  | links =>
    exact h.goes rfl rfl (by rw [hm]; rfl) (by rw [hm]; rfl) (by rw [hm]; rfl)
      (fun _ => h.asked (by rw [hm]; rfl)) (fun _ => h.reported (by rw [hm]; rfl))
  | reconciles =>
    unfold reconcileNext
    split_ifs
    all_goals
      exact h.goes rfl rfl (by rw [hm]; rfl) (by rw [hm]; rfl) (by rw [hm]; rfl)
        (fun _ => h.asked (by rw [hm]; rfl)) (fun _ => h.reported (by rw [hm]; rfl))
  | records =>
    unfold recordNext
    dsimp only
    split
    all_goals
      exact h.goes rfl rfl (by rw [hm]; rfl) (by rw [hm]; rfl) (by rw [hm]; rfl)
        (fun _ => h.asked (by rw [hm]; rfl)) (fun _ => h.reported (by rw [hm]; rfl))
  | returned => exact h
  | threw what => exact h

/-- Only the place of the reporter and what was shown change. -/
theorem reporter_eq (cfg : PassConfig) (s : PassState n) :
    ∃ r shown, reporterNext cfg s = { s with reporter := r, shown := shown } := by
  obtain ⟨shown, he⟩ := emit_eq cfg s
  unfold reporterNext
  rw [he]
  cases s.reporter with
  | tests => exact ⟨_, s.shown, rfl⟩
  | emits => exact ⟨.tests, shown, rfl⟩
  | _ => exact ⟨s.reporter, s.shown, rfl⟩

theorem reporter_over (cfg : PassConfig) {s : PassState n}
    (h : s.reporter = .absent ∨ s.reporter = .joined) : reporterNext cfg s = s := by
  unfold reporterNext
  rcases h with h | h
  · rw [h]
  · rw [h]

theorem threads_reporter (cfg : PassConfig) {s : PassState n} (h : Threads s) :
    Threads (reporterNext cfg s) := by
  cases hover : s.main.reporterOver with
  | true =>
    rw [reporter_over cfg (h.reported hover)]
    exact h
  | false =>
    obtain ⟨r, shown, he⟩ := reporter_eq cfg s
    rw [he]
    refine h.goes rfl rfl rfl rfl rfl h.asked ?_
    intro hc
    rw [show s.main.reporterOver = true from hc] at hover
    cases hover

/-! ### The books -/

def Verdict.isFailed (v : Verdict) : Bool := v = .failed

def Verdict.isStored : Verdict → Bool
  | .stored _ _ => true
  | _ => false

/-- The counters are those of the verdicts, and the scan is recorded by them, at the end. -/
structure Books (s : PassState n) : Prop where
  errored : s.stats.errored = s.trace.countP fun e => e.2.isFailed
  stored : s.stats.added + s.stats.updated = s.trace.countP fun e => e.2.isStored
  stamped : ∀ st, s.stamp = some st → s.main = .returned ∧ ∃ k, st = stampOf s.stats k
  /-- The process goes down while a worker connects. -/
  down : s.down = true → ∃ w, s.workers w = .connects

theorem count_errored (c : PassStats) (v : Verdict) :
    (v.count c).errored = c.errored + if v.isFailed then 1 else 0 := by
  cases v <;> rfl

theorem count_stored (c : PassStats) (v : Verdict) :
    (v.count c).added + (v.count c).updated =
      c.added + c.updated + if v.isStored then 1 else 0 := by
  cases v with
  | stored known frames =>
    cases known
    · show c.added + 1 + c.updated = c.added + c.updated + 1
      omega
    · show c.added + (c.updated + 1) = c.added + c.updated + 1
      omega
  | _ => rfl

theorem countP_close {p : Verdict → Bool} (l : List (ℕ × Verdict)) (i : ℕ) (v : Verdict) :
    (l ++ [(i, v)]).countP (fun e => p e.2) =
      l.countP (fun e => p e.2) + if p v then 1 else 0 := by
  rw [List.countP_append, List.countP_singleton]

/-- A worker that has returned does nothing. -/
theorem WorkerStep.eq_of_over {s t : PassState n} {w : Fin n} {a : Answer} (h : WorkerStep s w a t)
    (hw : (s.workers w).isOver = true) : t = s := by
  cases h with
  | stays => rfl
  | crashes hc =>
    rw [hc] at hw
    cases hw
  | moves k p hm =>
    rw [hm.running.2] at hw
    cases hw
  | takes i rest hp =>
    rw [hp] at hw
    cases hw
  | ends hp =>
    rw [hp] at hw
    cases hw
  | closes k p i v hm =>
    rw [hm.running.2] at hw
    cases hw

/-- Once the calling thread is past the pool, every worker is joined. -/
theorem Threads.all_joined {s : PassState n} (h : Threads s) (hm : s.main.reaped n = n)
    (w : Fin n) : s.workers w = .joined := by
  rw [h.joined w, hm]
  exact w.isLt

theorem books_worker {s t : PassState n} (h : Books s) (ht : Threads s) (hup : s.down = false)
    {w : Fin n} {a : Answer} (hs : WorkerStep s w a t) : Books t := by
  by_cases hdone : s.main.reaped n = n
  · have hw : (s.workers w).isOver = true := by
      rw [ht.all_joined hdone w]
      rfl
    rw [hs.eq_of_over hw]
    exact h
  · have hnone : s.stamp = none := by
      by_contra hsome
      obtain ⟨st, hst⟩ := Option.ne_none_iff_exists'.mp hsome
      refine hdone ?_
      rw [(h.stamped st hst).1]
      rfl
    have hstamp : ∀ st, s.stamp = some st → s.main = .returned ∧ ∃ k, st = stampOf t.stats k := by
      intro st hst
      rw [hnone] at hst
      cases hst
    have hdown : ∀ u : PassState n, s.down = true → ∃ w, u.workers w = .connects := by
      intro u hd
      rw [hup] at hd
      cases hd
    cases hs with
    | stays => exact h
    | crashes hc => exact ⟨h.errored, h.stored, h.stamped, fun _ => ⟨w, hc⟩⟩
    | moves k p => exact ⟨h.errored, h.stored, hstamp, hdown _⟩
    | takes i rest => exact ⟨h.errored, h.stored, hstamp, hdown _⟩
    | ends => exact ⟨h.errored, h.stored, hstamp, hdown _⟩
    | closes k p i v =>
      refine ⟨?_, ?_, hstamp, hdown _⟩
      · show (v.count _).errored = (s.trace ++ [(i, v)]).countP _
        rw [count_errored, countP_close, ← h.errored]
        rfl
      · show (v.count _).added + (v.count _).updated = (s.trace ++ [(i, v)]).countP _
        rw [count_stored, countP_close, ← h.stored]
        rfl

/-- The calling thread leaves the verdicts and the counters of files alone, and records the scan
when it is about to return. -/
theorem main_books (cfg : PassConfig) (s : PassState n) (a : Answer) :
    (mainNext cfg s a).trace = s.trace ∧
      (mainNext cfg s a).stats.toScanStats = s.stats.toScanStats ∧
      (mainNext cfg s a).down = s.down ∧
      ((mainNext cfg s a).stamp = s.stamp ∨ s.main = .records ∧ a.thrown = none) := by
  obtain ⟨shown, he⟩ := emit_eq cfg s
  unfold mainNext
  cases hm : s.main with
  | spawns k =>
    dsimp only
    by_cases hk : k < n
    · rw [dif_pos hk]
      exact ⟨rfl, rfl, rfl, Or.inl rfl⟩
    · rw [dif_neg hk]
      exact ⟨rfl, rfl, rfl, Or.inl rfl⟩
  | opens =>
    dsimp only
    split <;> exact ⟨rfl, rfl, rfl, Or.inl rfl⟩
  | walks =>
    unfold walkNext
    dsimp only
    split
    · exact ⟨rfl, rfl, rfl, Or.inl rfl⟩
    · exact ⟨rfl, rfl, rfl, Or.inl rfl⟩
    · exact ⟨rfl, rfl, rfl, Or.inl rfl⟩
    · split_ifs
      · exact ⟨rfl, rfl, rfl, Or.inl rfl⟩
      · split <;> exact ⟨rfl, rfl, rfl, Or.inl rfl⟩
  | pushes i =>
    unfold pushNext
    dsimp only
    split <;> exact ⟨rfl, rfl, rfl, Or.inl rfl⟩
  | joins k failed =>
    unfold joinNext
    dsimp only
    split_ifs
    · split <;> exact ⟨rfl, rfl, rfl, Or.inl rfl⟩
    · exact ⟨rfl, rfl, rfl, Or.inl rfl⟩
  | joinsReporter failed =>
    unfold joinReporterNext
    rw [he]
    dsimp only
    split <;> exact ⟨rfl, rfl, rfl, Or.inl rfl⟩
  | reconciles =>
    unfold reconcileNext
    dsimp only
    split_ifs <;> exact ⟨rfl, rfl, rfl, Or.inl rfl⟩
  | records =>
    unfold recordNext
    dsimp only
    cases ha : a.thrown with
    | some e => exact ⟨rfl, rfl, rfl, Or.inl rfl⟩
    | none => exact ⟨rfl, rfl, rfl, Or.inr ⟨rfl, rfl⟩⟩
  | _ => exact ⟨rfl, rfl, rfl, Or.inl rfl⟩

theorem books_main (cfg : PassConfig) {s : PassState n} (h : Books s) (hup : s.down = false)
    (a : Answer) : Books (mainNext cfg s a) := by
  obtain ⟨htrace, hstats, hdown, hstamp⟩ := main_books cfg s a
  have herrored : (mainNext cfg s a).stats.errored = s.stats.errored :=
    congrArg ScanStats.errored hstats
  have hadded : (mainNext cfg s a).stats.added = s.stats.added := congrArg ScanStats.added hstats
  have hupdated : (mainNext cfg s a).stats.updated = s.stats.updated :=
    congrArg ScanStats.updated hstats
  refine ⟨?_, ?_, ?_, ?_⟩
  · rw [herrored, htrace]
    exact h.errored
  · rw [hadded, hupdated, htrace]
    exact h.stored
  · intro st hst
    rcases hstamp with hstamp | ⟨hm, ha⟩
    · rw [hstamp] at hst
      obtain ⟨hm, k, hk⟩ := h.stamped st hst
      have hs : mainNext cfg s a = s := by
        unfold mainNext
        rw [hm]
      rw [hs]
      exact ⟨hm, k, hk⟩
    · have hs : mainNext cfg s a =
          { s with main := .returned, stamp := some (stampOf s.stats a.fileCount) } := by
        unfold mainNext recordNext
        rw [hm, ha]
      rw [hs] at hst ⊢
      cases hst
      exact ⟨rfl, a.fileCount, rfl⟩
  · intro hd
    rw [hdown, hup] at hd
    cases hd

/-! ### Runs -/

structure Coherent (s : PassState n) : Prop where
  threads : Threads s
  accounted : Accounted s
  books : Books s

/-- Once the calling thread is past the pool, the process stays up. -/
theorem Coherent.up {s : PassState n} (h : Coherent s) (hm : s.main.reaped n = n) :
    s.down = false := by
  by_contra hd
  rw [Bool.not_eq_false] at hd
  obtain ⟨w, hw⟩ := h.books.down hd
  rw [h.threads.all_joined hm w] at hw
  cases hw

/-- At the end of a pass every item pushed has a verdict. -/
theorem Coherent.all_verdicts {s : PassState n} (h : Coherent s) (hn : 0 < n)
    (hm : s.main.reaped n = n) {i : ℕ} (hi : i < s.pushed) : ∃ v, (i, v) ∈ s.trace := by
  have hjoined := h.threads.all_joined hm
  have hqueue : s.pool.queue = [] := by
    have hitems : s.queue.items = [] := (h.threads.drained ⟨0, hn⟩ (by rw [hjoined]; rfl)).2
    show s.queue.items.map Prod.fst = []
    rw [hitems]
    rfl
  have hhands : ∀ w, s.pool.hand w = none := by
    intro w
    show (s.workers w).ticket = none
    rw [hjoined w]
    rfl
  have hdone := (h.accounted.conserved.all_done hqueue hhands i).mp (List.mem_range.mpr hi)
  obtain ⟨⟨j, v⟩, hv, rfl⟩ := List.mem_map.mp hdone
  exact ⟨v, hv⟩

/-- An item has one verdict. -/
theorem Coherent.one_verdict {s : PassState n} (h : Coherent s) {i : ℕ} {v v' : Verdict}
    (hv : (i, v) ∈ s.trace) (hv' : (i, v') ∈ s.trace) : v = v' := by
  have hnd : (s.trace.map Prod.fst).Nodup := by
    have := h.accounted.apart.nodup
    rw [List.map_id, List.nodup_append] at this
    exact this.1
  exact congrArg Prod.snd (List.inj_on_of_nodup_map hnd hv hv' rfl)

/-- An item with a verdict was pushed. -/
theorem Coherent.pushed_of_verdict {s : PassState n} (h : Coherent s) {i : ℕ} {v : Verdict}
    (hv : (i, v) ∈ s.trace) : i < s.pushed :=
  List.mem_range.mp ((h.accounted.conserved i).mpr (Or.inr (Or.inr (List.mem_map_of_mem hv))))

theorem coherent_start (script : List Increment) : Coherent (start (n := n) script) where
  threads :=
    { closed := rfl
      absent := fun _ => iff_of_true rfl (Nat.zero_le _)
      joined := fun _ => iff_of_false nofun (Nat.not_lt_zero _)
      drained := nofun
      asked := nofun
      reported := nofun }
  accounted := ⟨WorkPool.conserved_start [], WorkPool.apart_start List.nodup_nil⟩
  books := ⟨rfl, rfl, nofun, nofun⟩

theorem coherent_next (cfg : PassConfig) (clock : Fin n → Int) (s : PassState n) (e : Event n)
    (h : Coherent s) : Coherent (next cfg clock s e) := by
  unfold next
  cases hup : s.down with
  | true => exact h
  | false =>
    cases e with
    | raise =>
      exact ⟨h.threads.goes rfl rfl rfl rfl rfl h.threads.asked h.threads.reported,
        h.accounted.of_pool rfl rfl, ⟨h.books.errored, h.books.stored, h.books.stamped, nofun⟩⟩
    | main a =>
      exact ⟨threads_main cfg h.threads a, accounted_main cfg h.accounted h.threads.absent a,
        books_main cfg h.books hup a⟩
    | worker w a =>
      have hs := worker_step cfg clock s w a
      exact ⟨threads_worker h.threads hs, accounted_worker h.accounted hs,
        books_worker h.books h.threads hup hs⟩
    | reporter =>
      refine ⟨threads_reporter cfg h.threads, ?_, ?_⟩
      · obtain ⟨r, shown, he⟩ := reporter_eq cfg s
        show Accounted (reporterNext cfg s)
        rw [he]
        exact h.accounted.of_pool rfl rfl
      · obtain ⟨r, shown, he⟩ := reporter_eq cfg s
        show Books (reporterNext cfg s)
        rw [he]
        exact ⟨h.books.errored, h.books.stored, h.books.stamped, h.books.down⟩

/-- **Every run keeps the threads, the items and the books in order.** -/
theorem coherent_run (cfg : PassConfig) (clock : Fin n → Int) (script : List Increment)
    (es : List (Event n)) : Coherent (es.foldl (next cfg clock) (start script)) :=
  Run.foldl_preserves (coherent_next cfg clock) (coherent_start script) es

end Machine

end StarBase.Scan.Pass

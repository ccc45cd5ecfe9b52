import Mathlib.Algebra.BigOperators.Group.Finset.Piecewise
import StarBase.Lib.Fairness
import StarBase.Scan.PassInvariant

/-!
# Database faults during a scan

Every statement of a worker is made inside a `try` block, and so is everything the calling thread
asks of the database.  The connection of a worker is not: when it fails, the exception leaves the
function of the thread and ends the process.

* `Connected` — the step is not a connection of a worker that fails;
* `canGo`, `cost` — which threads are not blocked, and a bound on the steps that are left;
* `drains` — **PROVED**: while every worker connects, some thread can go on until the scan is over,
  and its steps lower the bound;
* `scan_survives_iff` — **PROVED**: the process stays up, a fair schedule ends the scan with every
  thread joined, and no item is counted as stored and as failed, exactly if every worker connects.
-/

namespace StarBase.Scan.Pass

open BoundedQueue Fairness

section Faults

variable {n : ℕ}

inductive Thread (n : ℕ)
  | main
  | worker (w : Fin n)
  | reporter

def Event.thread : Event n → Option (Thread n)
  | .raise => none
  | .main _ => some .main
  | .worker w _ => some (.worker w)
  | .reporter => some .reporter

/-- A worker that connects gets its connection. -/
def Connected (s : PassState n) : Event n → Prop
  | .worker w a => s.workers w = .connects → a.thrown = none
  | _ => True

/-- `scan_root` has returned its statistics or thrown. -/
def MainPlace.isOver : MainPlace → Bool
  | .returned => true
  | .threw _ => true
  | _ => false

/-- What a database fault must not take from a scan, under a schedule of its threads. -/
structure Survives (cfg : PassConfig) (clock : Fin n → Int) (script : List Increment)
    (es : ℕ → Event n) : Prop where
  up : ∀ k, (stateAt (next cfg clock) (start script) es k).down = false
  ends : Fair Event.thread es →
    ∃ k, (stateAt (next cfg clock) (start script) es k).main.isOver = true
  joined : ∀ k, (stateAt (next cfg clock) (start script) es k).main.isOver = true →
    (∀ w, (stateAt (next cfg clock) (start script) es k).workers w = .joined) ∧
      ((stateAt (next cfg clock) (start script) es k).reporter = .absent ∨
        (stateAt (next cfg clock) (start script) es k).reporter = .joined)
  /-- The counters are those of the verdicts, and an item has one. -/
  counted : ∀ k, Books (stateAt (next cfg clock) (start script) es k)
  single : ∀ k i v v', (i, v) ∈ (stateAt (next cfg clock) (start script) es k).trace →
    (i, v') ∈ (stateAt (next cfg clock) (start script) es k).trace → v = v'

/-! ### Threads that are not blocked -/

/-- The calling thread is not waiting for room, for a worker or for the reporter. -/
def mainGoes (cfg : PassConfig) (s : PassState n) : MainPlace → Prop
  | .pushes _ => s.queue.items.length < capacityOf cfg.capacity
  | .joins k _ => ∀ h : k < n, s.workers ⟨k, h⟩ = .ended
  | .joinsReporter _ => s.reporter ≠ .tests ∧ s.reporter ≠ .emits
  | .returned => False
  | .threw _ => False
  | _ => True

/-- The thread is not blocked.  A reporter that has not been asked to end goes round and is not
counted on. -/
def canGo (cfg : PassConfig) (s : PassState n) : Thread n → Prop
  | .main => mainGoes cfg s s.main
  | .worker w => (s.workers w).isRunning ∧
      (s.workers w = .pops → s.queue.items ≠ [] ∨ s.queue.closed = true)
  | .reporter => s.reporting = false ∧ (s.reporter = .tests ∨ s.reporter = .emits)

/-! ### The steps that are left -/

def MainPlace.cost : MainPlace → ℕ
  | .loads => 15
  | .marks => 14
  | .spawns _ => 13
  | .opens => 9
  | .walks => 8
  | .pushes _ => 16
  | .joins _ _ => 7
  | .stopsReporter _ => 6
  | .joinsReporter _ => 5
  | .links => 3
  | .reconciles => 2
  | .records => 1
  | .returned => 0
  | .threw _ => 0

def ReporterPlace.cost : ReporterPlace → ℕ
  | .emits => 2
  | .tests => 1
  | _ => 0

def reporterCost (reporting : Bool) (r : ReporterPlace) : ℕ := if reporting then 3 else r.cost

/-- No more steps than this lower it. -/
def cost (s : PassState n) : ℕ :=
  s.main.cost + 9 * s.script.length + 7 * s.queue.items.length + ∑ w, (s.workers w).cost +
    reporterCost s.reporting s.reporter

theorem sum_put (workers : Fin n → WorkerPlace) (w : Fin n) (p : WorkerPlace) :
    ∑ v, (Function.update workers w p v).cost + (workers w).cost =
      ∑ v, (workers v).cost + p.cost := by
  have hput : ∀ q : WorkerPlace, ∑ v, (Function.update workers w q v).cost =
      q.cost + ∑ v ∈ Finset.univ \ {w}, (workers v).cost := by
    intro q
    have he : (fun v => (Function.update workers w q v).cost) =
        Function.update (fun v => (workers v).cost) w q.cost :=
      Function.comp_update WorkerPlace.cost workers w q
    rw [he]
    exact Finset.sum_update_of_mem (Finset.mem_univ w) _ _
  have hold := hput (workers w)
  rw [Function.update_eq_self] at hold
  rw [hput p, hold]
  omega

/-! ### Workers -/

theorem worker_lowers (cfg : PassConfig) {s t : PassState n} {w : Fin n} {a : Answer}
    (h : WorkerStep s w a t) (hgo : canGo cfg s (.worker w)) (hc : Connected s (.worker w a)) :
    cost t < cost s := by
  cases h with
  | stays hblocked =>
    obtain ⟨hp, hi, ho⟩ := hblocked hgo.1
    rcases hgo.2 hp with hne | hclosed
    · exact absurd hi hne
    · rw [ho] at hclosed
      cases hclosed
  | crashes hp ha => exact absurd (hc hp) ha
  | moves k p hm =>
    have hsum := sum_put s.workers w p
    have hlt := hm.closer
    show _ + ∑ v, (Function.update s.workers w p v).cost + _ < _
    unfold cost
    dsimp only [PassState.put, PassState.see]
    omega
  | takes i rest hp hq =>
    have hsum := sum_put s.workers w (.holds i)
    rw [hp] at hsum
    have hlen : s.queue.items.length = rest.length + 1 := by rw [hq]; rfl
    unfold cost
    dsimp only [PassState.put]
    rw [hlen]
    change _ + 2 = _ + 8 at hsum
    omega
  | ends hp hq ho =>
    have hsum := sum_put s.workers w .ended
    rw [hp] at hsum
    unfold cost
    dsimp only [PassState.put]
    change _ + 2 = _ + 1 at hsum
    omega
  | closes k p i v hm =>
    have hsum := sum_put s.workers w p
    have hlt := hm.closer
    unfold cost
    dsimp only [PassState.close, PassState.put, PassState.see]
    omega

theorem two_le_cost {p : WorkerPlace} (h : p.isRunning) : 2 ≤ p.cost := by
  cases p with
  | absent => exact absurd rfl h.1
  | ended => cases h.2
  | joined => cases h.2
  | _ => simp [WorkerPlace.cost]

/-- A blocked worker does nothing. -/
theorem worker_blocked (cfg : PassConfig) {s t : PassState n} {w : Fin n} {a : Answer}
    (h : WorkerStep s w a t) (hgo : ¬ canGo cfg s (.worker w)) : t = s := by
  cases h with
  | stays => rfl
  | crashes hp =>
    refine absurd ⟨?_, ?_⟩ hgo
    · rw [hp]
      exact ⟨nofun, rfl⟩
    · rw [hp]
      exact nofun
  | moves k p hm =>
    refine absurd ⟨hm.running, ?_⟩ hgo
    intro hp
    have hlt := hm.closer
    rw [hp] at hlt
    exact absurd (two_le_cost hm.runs) (Nat.not_le.mpr hlt)
  | takes i rest hp hq =>
    refine absurd ⟨?_, ?_⟩ hgo
    · rw [hp]
      exact ⟨nofun, rfl⟩
    · rw [hq]
      exact fun _ => Or.inl (List.cons_ne_nil _ _)
  | ends hp hq ho =>
    refine absurd ⟨?_, ?_⟩ hgo
    · rw [hp]
      exact ⟨nofun, rfl⟩
    · exact fun _ => Or.inr ho
  | closes k p i v hm hi =>
    refine absurd ⟨hm.running, ?_⟩ hgo
    intro hp
    rw [hp] at hi
    cases hi

/-! ### The calling thread -/

theorem walk_lowers (cfg : PassConfig) {s : PassState n} (hm : s.main = .walks) :
    cost (walkNext cfg s) < cost s := by
  have hcost : s.main.cost = 8 := by rw [hm]; rfl
  unfold walkNext
  cases hscript : s.script with
  | nil =>
    show 7 + _ + _ + _ + _ < s.main.cost + _ + _ + _ + _
    rw [hcost]
    dsimp only [PassState.endWalk, closeSection]
    omega
  | cons x rest =>
    have hlen : s.script.length = rest.length + 1 := by rw [hscript]; rfl
    cases x with
    | failed =>
      unfold cost
      rw [hlen]
      dsimp only
      omega
    | lost =>
      unfold cost
      rw [hlen, hcost]
      dsimp only [PassState.endWalk, closeSection, MainPlace.cost]
      omega
    | entry e =>
      cases hstop : s.stop with
      | true =>
        rw [cost, cost, hcost]
        simp only [if_true, PassState.endWalk, closeSection, MainPlace.cost]
        omega
      | false =>
        rw [cost, cost, hcost, hlen]
        dsimp only
        cases offered cfg.ignore e with
        | none =>
          simp only [Bool.false_eq_true, if_false, hcost]
          omega
        | some i =>
          simp only [Bool.false_eq_true, if_false, MainPlace.cost]
          omega

/-- The calling thread goes on, and leaves the walk, the queue and the workers. -/
theorem goes_lowers {s t : PassState n} (hscript : t.script = s.script)
    (hitems : t.queue.items = s.queue.items) (hworkers : t.workers = s.workers)
    (hmain : t.main.cost + reporterCost t.reporting t.reporter <
      s.main.cost + reporterCost s.reporting s.reporter) : cost t < cost s := by
  unfold cost
  rw [hscript, hitems, hworkers]
  omega

theorem reporterCost_le (r : ReporterPlace) : r.cost ≤ 2 := by
  cases r <;> simp [ReporterPlace.cost]

theorem spawn_lowers {s : PassState n} {k : ℕ} (hm : s.main = .spawns k) (hk : k < n)
    (habs : s.workers ⟨k, hk⟩ = .absent) :
    cost { s.put ⟨k, hk⟩ .connects with main := .spawns (k + 1) } < cost s := by
  have hsum := sum_put s.workers ⟨k, hk⟩ .connects
  rw [habs] at hsum
  change _ + 5 = _ + 4 at hsum
  have hcost : s.main.cost = 13 := by rw [hm]; rfl
  rw [cost, cost, hcost]
  dsimp only [PassState.put, MainPlace.cost]
  omega

theorem push_lowers (cfg : PassConfig) {s : PassState n} (h : Threads s) {i : WorkItem}
    (hm : s.main = .pushes i) (hroom : s.queue.items.length < capacityOf cfg.capacity) :
    cost (pushNext cfg s i) < cost s := by
  have hopen : s.queue.closed = false := by rw [h.closed, hm]; rfl
  have hcost : s.main.cost = 16 := by rw [hm]; rfl
  rw [pushNext_open cfg i hopen, if_pos hroom, cost, cost, hcost]
  simp only [List.length_append, List.length_singleton, MainPlace.cost]
  omega

theorem join_lowers {s : PassState n} {k : ℕ} {failed : Option Str} (hm : s.main = .joins k failed)
    (hgo : ∀ h : k < n, s.workers ⟨k, h⟩ = .ended) : cost (joinNext s k failed) < cost s := by
  have hcost : s.main.cost = 7 := by rw [hm]; rfl
  unfold joinNext
  by_cases hk : k < n
  · have hsum := sum_put s.workers ⟨k, hk⟩ .joined
    rw [hgo hk] at hsum
    change _ + 1 = _ + 0 at hsum
    rw [dif_pos hk, hgo hk, cost, cost, hcost]
    dsimp only [PassState.put, MainPlace.cost]
    omega
  · rw [dif_neg hk]
    refine goes_lowers rfl rfl rfl ?_
    rw [hcost]
    exact Nat.add_lt_add_right (by decide : 6 < 7) _

theorem joinReporter_lowers (cfg : PassConfig) {s : PassState n} {failed : Option Str}
    (hm : s.main = .joinsReporter failed) (hgo : s.reporter ≠ .tests ∧ s.reporter ≠ .emits) :
    cost (joinReporterNext cfg s failed) < cost s := by
  obtain ⟨shown, he⟩ := emit_eq cfg s
  have hcost : s.main.cost = 5 := by rw [hm]; rfl
  have hover : (failed.elim MainPlace.links .threw).cost ≤ 3 := by
    cases failed with
    | none => exact le_refl 3
    | some e => exact Nat.zero_le 3
  unfold joinReporterNext
  rw [he]
  dsimp only
  cases hr : s.reporter with
  | tests => exact absurd hr hgo.1
  | emits => exact absurd hr hgo.2
  | ended =>
    refine goes_lowers rfl rfl rfl ?_
    have hsame : reporterCost s.reporting .joined = reporterCost s.reporting .ended := rfl
    rw [hcost]
    dsimp only
    rw [hr, hsame]
    omega
  | absent =>
    refine goes_lowers rfl rfl rfl ?_
    rw [hcost]
    dsimp only
    rw [hr]
    omega
  | joined =>
    refine goes_lowers rfl rfl rfl ?_
    rw [hcost]
    dsimp only
    rw [hr]
    omega

/-- A step of the calling thread lowers the cost when it is not blocked. -/
theorem main_lowers (cfg : PassConfig) {s : PassState n} (h : Threads s) (a : Answer)
    (hgo : canGo cfg s .main) : cost (mainNext cfg s a) < cost s := by
  unfold canGo at hgo
  unfold mainNext
  cases hm : s.main with
  | walks => exact walk_lowers cfg hm
  | loads =>
    refine goes_lowers rfl rfl rfl ?_
    rw [hm]
    exact Nat.add_lt_add_right (by decide : 14 < 15) _
  | marks =>
    refine goes_lowers rfl rfl rfl ?_
    rw [hm]
    exact Nat.add_lt_add_right (by decide : 13 < 14) _
  | spawns k =>
    dsimp only
    by_cases hk : k < n
    · rw [dif_pos hk]
      exact spawn_lowers hm hk ((h.absent _).mpr (by rw [hm]; exact le_refl k))
    · rw [dif_neg hk]
      refine goes_lowers rfl rfl rfl ?_
      rw [hm]
      show 9 + reporterCost cfg.progress (if cfg.progress then .tests else .absent) < 13 + _
      cases cfg.progress
      · show 9 + 0 < 13 + _
        omega
      · show 9 + 3 < 13 + _
        omega
  | opens =>
    dsimp only
    cases a.thrown with
    | some e =>
      refine goes_lowers rfl rfl rfl ?_
      rw [hm]
      exact Nat.add_lt_add_right (by decide : 7 < 9) _
    | none =>
      refine goes_lowers rfl rfl rfl ?_
      rw [hm]
      exact Nat.add_lt_add_right (by decide : 8 < 9) _
  | pushes i =>
    rw [hm] at hgo
    exact push_lowers cfg h hm hgo
  | joins k failed =>
    rw [hm] at hgo
    exact join_lowers hm hgo
  | stopsReporter failed =>
    refine goes_lowers rfl rfl rfl ?_
    rw [hm]
    show 5 + s.reporter.cost < 6 + reporterCost s.reporting s.reporter
    have hle := reporterCost_le s.reporter
    unfold reporterCost
    split_ifs <;> omega
  | joinsReporter failed =>
    rw [hm] at hgo
    exact joinReporter_lowers cfg hm hgo
  | links =>
    refine goes_lowers rfl rfl rfl ?_
    rw [hm]
    exact Nat.add_lt_add_right (by decide : 2 < 3) _
  | reconciles =>
    unfold reconcileNext
    dsimp only
    split_ifs
    all_goals
      refine goes_lowers rfl rfl rfl ?_
      rw [hm]
      exact Nat.add_lt_add_right (by decide : 1 < 2) _
  | records =>
    unfold recordNext
    dsimp only
    split
    all_goals
      refine goes_lowers rfl rfl rfl ?_
      rw [hm]
      exact Nat.add_lt_add_right (by decide : 0 < 1) _
  | returned =>
    rw [hm] at hgo
    exact hgo.elim
  | threw what =>
    rw [hm] at hgo
    exact hgo.elim

/-- The blocked calling thread does nothing. -/
theorem main_blocked (cfg : PassConfig) {s : PassState n} (h : Threads s) (a : Answer)
    (hgo : ¬ canGo cfg s .main) : mainNext cfg s a = s := by
  unfold canGo at hgo
  unfold mainNext
  cases hm : s.main with
  | pushes i =>
    rw [hm] at hgo
    have hopen : s.queue.closed = false := by rw [h.closed, hm]; rfl
    dsimp only
    rw [pushNext_open cfg i hopen]
    exact if_neg hgo
  | joins k failed =>
    rw [hm] at hgo
    obtain ⟨hk, hne⟩ := not_forall.mp hgo
    unfold joinNext
    dsimp only
    rw [dif_pos hk]
    split
    · rename_i he
      exact absurd he hne
    · rfl
  | joinsReporter failed =>
    rw [hm] at hgo
    have hr : s.reporter = .tests ∨ s.reporter = .emits := by
      by_contra hne
      push Not at hne
      exact hgo hne
    unfold joinReporterNext
    rcases hr with hr | hr
    · rw [hr]
    · rw [hr]
  | returned => rfl
  | threw what => rfl
  | _ =>
    rw [hm] at hgo
    exact absurd trivial hgo

/-! ### The reporter -/

theorem reporter_lowers (cfg : PassConfig) {s : PassState n} (hgo : canGo cfg s .reporter) :
    cost (reporterNext cfg s) < cost s := by
  obtain ⟨hasked, hr⟩ := hgo
  obtain ⟨shown, he⟩ := emit_eq cfg s
  unfold reporterNext
  rw [he]
  rcases hr with hr | hr
  · rw [hr]
    refine goes_lowers rfl rfl rfl ?_
    dsimp only
    rw [hasked, hr]
    exact Nat.add_lt_add_left (by decide : 0 < 1) _
  · rw [hr]
    refine goes_lowers rfl rfl rfl ?_
    dsimp only
    rw [hasked, hr]
    exact Nat.add_lt_add_left (by decide : 1 < 2) _

/-- A reporter that has not been asked to end changes nothing for the others. -/
theorem reporter_idle (cfg : PassConfig) {s : PassState n} (h : Threads s)
    (hgo : ¬ canGo cfg s .reporter) :
    cost (reporterNext cfg s) = cost s ∧ ∀ t, canGo cfg s t → canGo cfg (reporterNext cfg s) t := by
  obtain ⟨r, shown, he⟩ := reporter_eq cfg s
  cases hasked : s.reporting with
  | true =>
    rw [he]
    refine ⟨?_, ?_⟩
    · unfold cost
      dsimp only
      rw [hasked]
      rfl
    · intro t ht
      cases t with
      | main =>
        -- The calling thread asks the reporter to end before it waits for it.
        have hnot : s.main.asked = false := by
          by_contra hc
          rw [Bool.not_eq_false] at hc
          rw [h.asked hc] at hasked
          cases hasked
        unfold canGo at ht ⊢
        cases hm : s.main with
        | joinsReporter failed =>
          rw [hm] at hnot
          cases hnot
        | _ =>
          rw [hm] at ht
          exact ht
      | worker w => exact ht
      | reporter =>
        have := ht.1
        rw [hasked] at this
        cases this
  | false =>
    have hsame : reporterNext cfg s = s := by
      unfold reporterNext
      cases hr : s.reporter with
      | tests => exact absurd ⟨hasked, Or.inl hr⟩ hgo
      | emits => exact absurd ⟨hasked, Or.inr hr⟩ hgo
      | _ => rfl
    rw [hsame]
    exact ⟨rfl, fun _ => id⟩

/-! ### No deadlock -/

/-- A started worker that has not returned can go on when there is an item or the queue is
closed. -/
theorem worker_goes (cfg : PassConfig) {s : PassState n} {w : Fin n}
    (hrun : (s.workers w).isRunning) (hq : s.queue.items ≠ [] ∨ s.queue.closed = true) :
    canGo cfg s (.worker w) :=
  ⟨hrun, fun _ => hq⟩

/-- **No deadlock.**  Until the scan is over, some thread can go on. -/
theorem some_goes (cfg : PassConfig) {s : PassState n} (h : Threads s) (hn : 0 < n) :
    s.main.isOver = true ∨ ∃ t, canGo cfg s t := by
  have hmain : mainGoes cfg s s.main → s.main.isOver = true ∨ ∃ t, canGo cfg s t :=
    fun hgo => Or.inr ⟨.main, hgo⟩
  cases hm : s.main with
  | pushes i =>
    by_cases hroom : s.queue.items.length < capacityOf cfg.capacity
    · exact Or.inr ⟨.main, by unfold canGo; rw [hm]; exact hroom⟩
    · -- The queue is full, and the first worker is there to take an item.
      have hitems : s.queue.items ≠ [] := by
        intro hnil
        rw [hnil] at hroom
        exact hroom (BoundedQueue.capacityOf_pos cfg.capacity)
      have hstarted : s.workers ⟨0, hn⟩ ≠ .absent := by
        rw [Ne, h.absent, hm]
        exact Nat.not_le.mpr hn
      have hover := h.not_over (by rw [hm]; rfl) ⟨0, hn⟩
      exact Or.inr ⟨_, worker_goes cfg ⟨hstarted, hover⟩ (Or.inl hitems)⟩
  | joins k failed =>
    by_cases hk : k < n
    · cases hover : (s.workers ⟨k, hk⟩).isOver with
      | true =>
        have hnot : s.workers ⟨k, hk⟩ ≠ .joined := by
          rw [Ne, h.joined, hm]
          exact lt_irrefl k
        have hended : s.workers ⟨k, hk⟩ = .ended := by
          cases hw : s.workers ⟨k, hk⟩ with
          | ended => rfl
          | joined => exact absurd hw hnot
          | _ =>
            rw [hw] at hover
            cases hover
        exact Or.inr ⟨.main, by unfold canGo; rw [hm]; exact fun _ => hended⟩
      | false =>
        have hstarted : s.workers ⟨k, hk⟩ ≠ .absent := by
          rw [Ne, h.absent, hm]
          exact Nat.not_le.mpr hk
        have hclosed : s.queue.closed = true := by
          rw [h.closed, hm]
          rfl
        exact Or.inr ⟨_, worker_goes cfg ⟨hstarted, hover⟩ (Or.inr hclosed)⟩
    · exact Or.inr ⟨.main, by unfold canGo; rw [hm]; exact fun hc => absurd hc hk⟩
  | joinsReporter failed =>
    have hasked : s.reporting = false := h.asked (by rw [hm]; rfl)
    by_cases hr : s.reporter = .tests ∨ s.reporter = .emits
    · exact Or.inr ⟨.reporter, hasked, hr⟩
    · push Not at hr
      exact Or.inr ⟨.main, by unfold canGo; rw [hm]; exact hr⟩
  | returned => exact Or.inl rfl
  | threw what => exact Or.inl rfl
  | _ => exact Or.inr ⟨.main, by unfold canGo; rw [hm]; trivial⟩

/-! ### Runs -/

/-- The process goes down exactly when a worker's connection fails. -/
theorem down_next (cfg : PassConfig) (clock : Fin n → Int) {s : PassState n} (e : Event n)
    (hup : s.down = false) : (next cfg clock s e).down = false ↔ Connected s e := by
  unfold next
  rw [hup]
  cases e with
  | raise => simp [Connected]
  | main a =>
    have hsame : (mainNext cfg s a).down = s.down := (main_books cfg s a).2.2.1
    simp [Connected, hsame, hup]
  | reporter =>
    obtain ⟨r, shown, he⟩ := reporter_eq cfg s
    show (reporterNext cfg s).down = false ↔ _
    rw [he]
    simp [Connected, hup]
  | worker w a =>
    show (workerNext cfg clock s w a).down = false ↔ Connected s (.worker w a)
    by_cases hc : Connected s (.worker w a)
    · refine iff_of_true ?_ hc
      have hs := worker_step cfg clock s w a
      generalize workerNext cfg clock s w a = t at hs
      cases hs with
      | crashes hp ha => exact absurd (hc hp) ha
      | stays => exact hup
      | moves => exact hup
      | takes => exact hup
      | ends => exact hup
      | closes => exact hup
    · refine iff_of_false ?_ hc
      unfold Connected at hc
      push Not at hc
      obtain ⟨hp, ha⟩ := hc
      obtain ⟨what, hwhat⟩ := Option.ne_none_iff_exists'.mp ha
      unfold workerNext
      rw [hp, hwhat]
      exact nofun

/-- **A scan whose workers connect drains.** -/
theorem drains (cfg : PassConfig) (clock : Fin n → Int) (hn : 0 < n) :
    Drains (next cfg clock) Event.thread (fun s => Coherent s ∧ s.down = false) Connected
      (fun s => s.main.isOver = true) (canGo cfg) cost where
  keeps s e hs hc := ⟨coherent_next cfg clock s e hs.1, (down_next cfg clock e hs.2).mpr hc⟩
  live s hs := some_goes cfg hs.1.threads hn
  lowers s e t hs hc ht hgo := by
    unfold next
    rw [hs.2]
    cases e with
    | raise => cases ht
    | main a =>
      cases ht
      exact main_lowers cfg hs.1.threads a hgo
    | worker w a =>
      cases ht
      exact worker_lowers cfg (worker_step cfg clock s w a) hgo hc
    | reporter =>
      cases ht
      exact reporter_lowers cfg hgo
  stays s e hs hc := by
    unfold next
    rw [hs.2]
    cases e with
    | raise =>
      refine Or.inr ⟨rfl, ?_⟩
      intro t ht
      cases t <;> exact ht
    | main a =>
      by_cases hgo : canGo cfg s .main
      · exact Or.inl (main_lowers cfg hs.1.threads a hgo)
      · have hsame := main_blocked cfg hs.1.threads a hgo
        refine Or.inr ?_
        show cost (mainNext cfg s a) = cost s ∧ ∀ t, canGo cfg s t → canGo cfg (mainNext cfg s a) t
        rw [hsame]
        exact ⟨rfl, fun _ => id⟩
    | worker w a =>
      have hs' := worker_step cfg clock s w a
      by_cases hgo : canGo cfg s (.worker w)
      · exact Or.inl (worker_lowers cfg hs' hgo hc)
      · have hsame := worker_blocked cfg hs' hgo
        refine Or.inr ?_
        show cost (workerNext cfg clock s w a) = cost s ∧
          ∀ t, canGo cfg s t → canGo cfg (workerNext cfg clock s w a) t
        rw [hsame]
        exact ⟨rfl, fun _ => id⟩
    | reporter =>
      by_cases hgo : canGo cfg s .reporter
      · exact Or.inl (reporter_lowers cfg hgo)
      · exact Or.inr (reporter_idle cfg hs.1.threads hgo)

/-- When the scan is over, every thread has been joined. -/
theorem Threads.over {s : PassState n} (h : Threads s) (hm : s.main.isOver = true) :
    (∀ w, s.workers w = .joined) ∧ (s.reporter = .absent ∨ s.reporter = .joined) := by
  have hreaped : s.main.reaped n = n := by
    cases hmain : s.main with
    | returned => rfl
    | threw what => rfl
    | _ =>
      rw [hmain] at hm
      cases hm
  have hover : s.main.reporterOver = true := by
    cases hmain : s.main with
    | returned => rfl
    | threw what => rfl
    | _ =>
      rw [hmain] at hm
      cases hm
  exact ⟨h.all_joined hreaped, h.reported hover⟩

/-- **When a scan survives every database fault.**  Whatever the calls answer and whenever the stop
flag goes up, the process stays up, a fair schedule ends the scan with all threads joined, and no
item has two verdicts, exactly if no worker's connection fails. -/
theorem scan_survives_iff (cfg : PassConfig) (threads : Int) (hardware : ℕ)
    (clock : Fin (poolSize threads hardware) → Int) (script : List Increment)
    (es : ℕ → Event (poolSize threads hardware)) :
    Survives cfg clock script es ↔
      ∀ k, Connected (stateAt (next cfg clock) (start script) es k) (es k) := by
  constructor
  · intro h k
    exact (down_next cfg clock (es k) (h.up k)).mp (h.up (k + 1))
  · intro hC
    have hdrains := drains cfg clock (poolSize_pos threads hardware)
    have hstart : Coherent (start (n := poolSize threads hardware) script) ∧
        (start (n := poolSize threads hardware) script).down = false :=
      ⟨coherent_start script, rfl⟩
    have hinv : ∀ k, Coherent (stateAt (next cfg clock) (start script) es k) ∧
        (stateAt (next cfg clock) (start script) es k).down = false :=
      fun k => invariant_at hdrains.keeps hstart hC k
    constructor
    · exact fun k => (hinv k).2
    · exact fun hfair => hdrains.reaches_of_fair hstart hC hfair
    · exact fun k hm => (hinv k).1.threads.over hm
    · exact fun k => (hinv k).1.books
    · exact fun k i v v' hv hv' => (hinv k).1.one_verdict hv hv'

/-! ### A worker whose connection fails -/

/-- A scan with one worker, in which no call fails but the worker's connection. -/
def refusedRun (k : ℕ) : Event 1 :=
  if k = 3 then .worker 0 { thrown := some "cannot connect".toList } else .main {}

/-- The exception leaves the function of the thread. -/
theorem refused_connection_ends_process :
    ¬ Survives { label := "nas".toList, path := "/mnt/nas".toList } (fun _ => 0) [] refusedRun := by
  intro h
  cases h.up 4

end Faults

end StarBase.Scan.Pass

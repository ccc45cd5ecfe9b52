import Mathlib.Logic.Relation
import StarBase.Lib.CondVar

/-!
# The bounded queue

Producers push and consumers pop under one mutex, with one condition variable for room and one for
items.  Each critical section is atomic; the notification that follows it is a step of its own.

* `pushSection`, `popSection` — the critical sections, `none` when the thread goes to wait;
* `QueueStep` — one step of any thread, with spurious wakeups and every choice of whom to notify;
* `queue_correct` — **PROVED**: in every reachable state what was popped is a prefix of what was
  accepted, nothing is lost or made up, and nobody waits without reason.

There is no fairness here: that a scan ends is told of the pass.
-/

namespace StarBase.Scan.BoundedQueue

open CondVar

variable {W α : Type*}

structure Queue (α : Type*) where
  items : List α := []
  closed : Bool := false

/-- The capacity a queue made with `capacity` has. -/
def capacityOf (capacity : ℕ) : ℕ := if capacity ≠ 0 then capacity else 1

/-- What `push` does with the lock held: the result and the queue it leaves. -/
def pushSection (capacity : ℕ) (q : Queue α) (v : α) : Option (Bool × Queue α) :=
  if q.items.length < capacityOf capacity ∨ q.closed = true then
    if q.closed = true then some (false, q)
    else some (true, { q with items := q.items ++ [v] })
  else none

/-- What `pop` does with the lock held. -/
def popSection (q : Queue α) : Option (Option α × Queue α) :=
  if q.items ≠ [] ∨ q.closed = true then
    match q.items with
    | [] => some (none, q)
    | v :: rest => some (some v, { q with items := rest })
  else none

def closeSection (q : Queue α) : Queue α := { q with closed := true }

/-! ### Threads -/

/-- Where a thread is.  `pushed` and `popped` still owe a `notify_one`, `wakesConsumers` and
`wakesProducers` a `notify_all`. -/
inductive Thread (α : Type*)
  | idle
  | pushing (v : α)
  | pushWaits (v : α)
  | pushed (v : α)
  | popping
  | popWaits
  | popped (v : α)
  | closing
  | wakesConsumers
  | wakesProducers

inductive Call (α : Type*)
  | push (v : α)
  | pop
  | close

def Call.start : Call α → Thread α
  | .push v => .pushing v
  | .pop => .popping
  | .close => .closing

/-- A woken thread tests its condition again. -/
def Thread.wake : Thread α → Thread α
  | .pushWaits v => .pushing v
  | .popWaits => .popping
  | t => t

def Thread.isPushWaits : Thread α → Bool
  | .pushWaits _ => true
  | _ => false

def Thread.isPopWaits : Thread α → Bool
  | .popWaits => true
  | _ => false

def Thread.isPushing : Thread α → Bool
  | .pushing _ => true
  | _ => false

def Thread.isPopping : Thread α → Bool
  | .popping => true
  | _ => false

def Thread.isPushed : Thread α → Bool
  | .pushed _ => true
  | _ => false

def Thread.isPopped : Thread α → Bool
  | .popped _ => true
  | _ => false

/-- The thread is outside the queue or asleep: it cannot run and owes no notification. -/
def Thread.isQuiet : Thread α → Bool
  | .idle => true
  | .pushWaits _ => true
  | .popWaits => true
  | _ => false

/-- The queue with its threads, the values accepted and taken so far in the order of the critical
sections, and what the calls of each thread returned. -/
structure QueueState (W α : Type*) where
  queue : Queue α
  threads : W → Thread α
  accepted : List (W × α)
  taken : List (W × α)
  pushes : W → List (α × Bool)
  pops : W → List (Option α)

def QueueState.start : QueueState W α where
  queue := {}
  threads _ := .idle
  accepted := []
  taken := []
  pushes _ := []
  pops _ := []

section Steps

variable [DecidableEq W]

def QueueState.set (s : QueueState W α) (w : W) (t : Thread α) : QueueState W α :=
  { s with threads := Function.update s.threads w t }

/-- A call of `push` returns. -/
def QueueState.pushReturns (s : QueueState W α) (w : W) (v : α) (ok : Bool) : QueueState W α :=
  { s.set w .idle with pushes := Function.update s.pushes w (s.pushes w ++ [(v, ok)]) }

/-- A call of `pop` returns. -/
def QueueState.popReturns (s : QueueState W α) (w : W) (r : Option α) : QueueState W α :=
  { s.set w .idle with pops := Function.update s.pops w (s.pops w ++ [r]) }

/-- The thread `w` holds the lock in `push`. -/
def QueueState.lockedPush (capacity : ℕ) (s : QueueState W α) (w : W) (v : α) : QueueState W α :=
  match pushSection capacity s.queue v with
  | none => s.set w (.pushWaits v)
  | some (false, q) => { s.pushReturns w v false with queue := q }
  | some (true, q) => { s.set w (.pushed v) with queue := q, accepted := s.accepted ++ [(w, v)] }

/-- The thread `w` holds the lock in `pop`. -/
def QueueState.lockedPop (s : QueueState W α) (w : W) : QueueState W α :=
  match popSection s.queue with
  | none => s.set w .popWaits
  | some (none, q) => { s.popReturns w none with queue := q }
  | some (some v, q) => { s.set w (.popped v) with queue := q, taken := s.taken ++ [(w, v)] }

/-- One step of one thread. -/
inductive QueueStep (capacity : ℕ) (s : QueueState W α) : QueueState W α → Prop
  | call (w : W) (c : Call α) : s.threads w = .idle → QueueStep capacity s (s.set w c.start)
  | push (w : W) (v : α) : s.threads w = .pushing v →
      QueueStep capacity s (s.lockedPush capacity w v)
  | pop (w : W) : s.threads w = .popping → QueueStep capacity s (s.lockedPop w)
  | pushNotifies (w : W) (v : α) (f : W → Thread α) : s.threads w = .pushed v →
      NotifyOne Thread.isPopWaits Thread.wake s.threads f →
      QueueStep capacity s (({ s with threads := f } : QueueState W α).pushReturns w v true)
  | popNotifies (w : W) (v : α) (f : W → Thread α) : s.threads w = .popped v →
      NotifyOne Thread.isPushWaits Thread.wake s.threads f →
      QueueStep capacity s (({ s with threads := f } : QueueState W α).popReturns w (some v))
  | close (w : W) : s.threads w = .closing →
      QueueStep capacity s { s.set w .wakesConsumers with queue := closeSection s.queue }
  | closeWakesConsumers (w : W) : s.threads w = .wakesConsumers →
      QueueStep capacity s (({ s with
        threads := notifyAll Thread.isPopWaits Thread.wake s.threads } : QueueState W α).set w
          .wakesProducers)
  | closeWakesProducers (w : W) : s.threads w = .wakesProducers →
      QueueStep capacity s (({ s with
        threads := notifyAll Thread.isPushWaits Thread.wake s.threads } : QueueState W α).set w
          .idle)
  | spurious (w : W) : (s.threads w).isPushWaits = true ∨ (s.threads w).isPopWaits = true →
      QueueStep capacity s (s.set w (s.threads w).wake)

/-- A state the queue can get into. -/
def Reachable (capacity : ℕ) (s : QueueState W α) : Prop :=
  Relation.ReflTransGen (QueueStep capacity) QueueState.start s

end Steps

/-! ### The critical sections -/

section Sections

variable {capacity : ℕ} {q q' : Queue α} {v : α}

theorem capacityOf_pos (capacity : ℕ) : 0 < capacityOf capacity := by
  unfold capacityOf
  split <;> omega

theorem pushSection_none_iff : pushSection capacity q v = none ↔
    q.closed = false ∧ capacityOf capacity ≤ q.items.length := by
  unfold pushSection
  split
  · next h =>
    have hno : ¬ (q.closed = false ∧ capacityOf capacity ≤ q.items.length) := by
      rintro ⟨ho, hfull⟩
      rcases h with hroom | hclosed
      · omega
      · rw [ho] at hclosed
        cases hclosed
    simp only [hno, iff_false]
    split <;> simp
  · next h =>
    rw [not_or] at h
    simpa [h.2] using h.1

theorem pushSection_eq_some {ok : Bool} (h : pushSection capacity q v = some (ok, q')) :
    (ok = false ∧ q.closed = true ∧ q' = q) ∨
      (ok = true ∧ q.closed = false ∧ q.items.length < capacityOf capacity ∧
        q' = { q with items := q.items ++ [v] }) := by
  unfold pushSection at h
  split at h
  · next hgo =>
    split at h
    · next hc =>
      cases h
      exact Or.inl ⟨rfl, hc, rfl⟩
    · next hc =>
      cases h
      exact Or.inr ⟨rfl, by simpa using hc, hgo.resolve_right hc, rfl⟩
  · cases h

theorem popSection_none_iff : popSection q = none ↔ q.closed = false ∧ q.items = [] := by
  unfold popSection
  cases hitems : q.items with
  | nil => cases q.closed <;> simp
  | cons a rest => simp

theorem popSection_eq_some {r : Option α} (h : popSection q = some (r, q')) :
    (r = none ∧ q.closed = true ∧ q.items = [] ∧ q' = q) ∨
      ∃ v rest, r = some v ∧ q.items = v :: rest ∧ q' = { q with items := rest } := by
  unfold popSection at h
  split at h
  · next hgo =>
    split at h
    · next hnil =>
      cases h
      exact Or.inl ⟨rfl, hgo.resolve_left (by simp [hnil]), hnil, rfl⟩
    · next v rest hcons =>
      cases h
      exact Or.inr ⟨v, rest, rfl, hcons, rfl⟩
  · cases h

end Sections

section Proofs

variable [DecidableEq W] {capacity : ℕ} {s s' : QueueState W α}

/-- What a step of `push` with the lock held comes to. -/
theorem lockedPush_cases (capacity : ℕ) (s : QueueState W α) (w : W) (v : α) :
    (s.queue.closed = false ∧ capacityOf capacity ≤ s.queue.items.length ∧
      s.lockedPush capacity w v = s.set w (.pushWaits v)) ∨
    (s.queue.closed = true ∧ s.lockedPush capacity w v = s.pushReturns w v false) ∨
    (s.queue.closed = false ∧ s.queue.items.length < capacityOf capacity ∧
      s.lockedPush capacity w v = { s.set w (.pushed v) with
        queue := { s.queue with items := s.queue.items ++ [v] }
        accepted := s.accepted ++ [(w, v)] }) := by
  unfold QueueState.lockedPush
  cases hp : pushSection capacity s.queue v with
  | none =>
    have h := pushSection_none_iff.mp hp
    exact Or.inl ⟨h.1, h.2, rfl⟩
  | some r =>
    obtain ⟨ok, q⟩ := r
    rcases pushSection_eq_some hp with ⟨rfl, hc, rfl⟩ | ⟨rfl, ho, hroom, rfl⟩
    · exact Or.inr (Or.inl ⟨hc, rfl⟩)
    · exact Or.inr (Or.inr ⟨ho, hroom, rfl⟩)

/-- What a step of `pop` with the lock held comes to. -/
theorem lockedPop_cases (s : QueueState W α) (w : W) :
    (s.queue.closed = false ∧ s.queue.items = [] ∧ s.lockedPop w = s.set w .popWaits) ∨
    (s.queue.closed = true ∧ s.queue.items = [] ∧ s.lockedPop w = s.popReturns w none) ∨
    ∃ v rest, s.queue.items = v :: rest ∧ s.lockedPop w = { s.set w (.popped v) with
      queue := { s.queue with items := rest }
      taken := s.taken ++ [(w, v)] } := by
  unfold QueueState.lockedPop
  cases hp : popSection s.queue with
  | none =>
    have h := popSection_none_iff.mp hp
    exact Or.inl ⟨h.1, h.2, rfl⟩
  | some r =>
    obtain ⟨r, q⟩ := r
    rcases popSection_eq_some hp with ⟨rfl, hc, hnil, rfl⟩ | ⟨v, rest, rfl, hcons, rfl⟩
    · exact Or.inr (Or.inl ⟨hc, hnil, rfl⟩)
    · exact Or.inr (Or.inr ⟨v, rest, hcons, rfl⟩)

/-! ### First in, first out -/

/-- What was accepted was taken or is queued, in order, and the queue is within its capacity. -/
structure Fifo (capacity : ℕ) (s : QueueState W α) : Prop where
  order : s.accepted.map Prod.snd = s.taken.map Prod.snd ++ s.queue.items
  bounded : s.queue.items.length ≤ capacityOf capacity

omit [DecidableEq W] in
theorem fifo_start : Fifo capacity (QueueState.start : QueueState W α) where
  order := rfl
  bounded := Nat.zero_le _

theorem Fifo.step (h : Fifo capacity s) (hs : QueueStep capacity s s') : Fifo capacity s' := by
  cases hs with
  | call w c hw => exact ⟨h.order, h.bounded⟩
  | push w v hw =>
    rcases lockedPush_cases capacity s w v with ⟨_, _, he⟩ | ⟨_, he⟩ | ⟨_, hroom, he⟩
    · rw [he]
      exact ⟨h.order, h.bounded⟩
    · rw [he]
      exact ⟨h.order, h.bounded⟩
    · rw [he]
      refine ⟨?_, ?_⟩
      · simp only [List.map_append, h.order, List.append_assoc]
        rfl
      · show (s.queue.items ++ [v]).length ≤ _
        rw [List.length_append]
        exact hroom
  | pop w hw =>
    rcases lockedPop_cases s w with ⟨_, _, he⟩ | ⟨_, _, he⟩ | ⟨v, rest, hitems, he⟩
    · rw [he]
      exact ⟨h.order, h.bounded⟩
    · rw [he]
      exact ⟨h.order, h.bounded⟩
    · have hbound := h.bounded
      rw [he]
      rw [hitems, List.length_cons] at hbound
      refine ⟨?_, by show rest.length ≤ _; omega⟩
      show s.accepted.map Prod.snd = (s.taken ++ [(w, v)]).map Prod.snd ++ rest
      rw [h.order, hitems, List.map_append, List.append_assoc]
      rfl
  | pushNotifies w v f hw hn => exact ⟨h.order, h.bounded⟩
  | popNotifies w v f hw hn => exact ⟨h.order, h.bounded⟩
  | close w hw => exact ⟨h.order, h.bounded⟩
  | closeWakesConsumers w hw => exact ⟨h.order, h.bounded⟩
  | closeWakesProducers w hw => exact ⟨h.order, h.bounded⟩
  | spurious w hw => exact ⟨h.order, h.bounded⟩

/-! ### What the calls return -/

/-- The value whose `push` is about to return true. -/
def Thread.accepted : Thread α → List α
  | .pushed v => [v]
  | _ => []

/-- The value that `pop` is about to return. -/
def Thread.taken : Thread α → List α
  | .popped v => [v]
  | _ => []

@[simp] theorem accepted_wake (t : Thread α) : t.wake.accepted = t.accepted := by
  cases t <;> rfl

@[simp] theorem taken_wake (t : Thread α) : t.wake.taken = t.taken := by
  cases t <;> rfl

/-- The values of a thread in a history. -/
def valuesOf (w : W) (l : List (W × α)) : List α := (l.filter fun p => p.1 = w).map Prod.snd

theorem valuesOf_append_self (w : W) (l : List (W × α)) (v : α) :
    valuesOf w (l ++ [(w, v)]) = valuesOf w l ++ [v] := by
  simp [valuesOf]

theorem valuesOf_append_other {w u : W} (h : w ≠ u) (l : List (W × α)) (v : α) :
    valuesOf w (l ++ [(u, v)]) = valuesOf w l := by
  simp [valuesOf, h.symm]

/-- The values with which `push` returned true. -/
def returnedTrue (l : List (α × Bool)) : List α := (l.filter fun p => p.2).map Prod.fst

/-- What was accepted from a thread is what its pushes returned true for, and what one is about to;
what it took is what its pops returned, and what one is about to. -/
structure Logged (s : QueueState W α) : Prop where
  pushes : ∀ w, valuesOf w s.accepted = returnedTrue (s.pushes w) ++ (s.threads w).accepted
  pops : ∀ w, valuesOf w s.taken = (s.pops w).filterMap id ++ (s.threads w).taken

theorem logged_start : Logged (QueueState.start : QueueState W α) where
  pushes _ := rfl
  pops _ := rfl

/-- Threads that have the same value to return keep the logs. -/
theorem Logged.threads (h : Logged s) {f : W → Thread α}
    (hf : ∀ w, (f w).accepted = (s.threads w).accepted ∧ (f w).taken = (s.threads w).taken) :
    Logged { s with threads := f } where
  pushes w := by
    show _ = _ ++ (f w).accepted
    rw [(hf w).1]
    exact h.pushes w
  pops w := by
    show _ = _ ++ (f w).taken
    rw [(hf w).2]
    exact h.pops w

theorem Logged.set (h : Logged s) {w : W} {t : Thread α}
    (ht : t.accepted = (s.threads w).accepted ∧ t.taken = (s.threads w).taken) :
    Logged (s.set w t) := by
  refine h.threads fun u => ?_
  by_cases hu : u = w
  · rw [hu, Function.update_self]
    exact ht
  · rw [Function.update_of_ne hu]
    exact ⟨rfl, rfl⟩

/-- A `push` that is to return true, or returns false, keeps the logs when it returns. -/
theorem Logged.pushReturns (h : Logged s) {w : W} {v : α} {ok : Bool}
    (hw : (s.threads w).accepted = (if ok = true then [v] else []) ∧ (s.threads w).taken = []) :
    Logged (s.pushReturns w v ok) := by
  constructor
  · intro u
    show valuesOf u s.accepted = returnedTrue (Function.update s.pushes w _ u) ++
      (Function.update s.threads w .idle u).accepted
    by_cases hu : u = w
    · rw [hu, Function.update_self, Function.update_self, h.pushes w, hw.1]
      cases ok <;> simp [returnedTrue, Thread.accepted]
    · rw [Function.update_of_ne hu, Function.update_of_ne hu]
      exact h.pushes u
  · intro u
    show valuesOf u s.taken = (s.pops u).filterMap id ++ (Function.update s.threads w .idle u).taken
    by_cases hu : u = w
    · rw [hu, Function.update_self, h.pops w, hw.2]
      rfl
    · rw [Function.update_of_ne hu]
      exact h.pops u

/-- So does a `pop` that returns what it has taken. -/
theorem Logged.popReturns (h : Logged s) {w : W} {r : Option α}
    (hw : (s.threads w).taken = r.toList ∧ (s.threads w).accepted = []) :
    Logged (s.popReturns w r) := by
  constructor
  · intro u
    show valuesOf u s.accepted = returnedTrue (s.pushes u) ++
      (Function.update s.threads w .idle u).accepted
    by_cases hu : u = w
    · rw [hu, Function.update_self, h.pushes w, hw.2]
      rfl
    · rw [Function.update_of_ne hu]
      exact h.pushes u
  · intro u
    show valuesOf u s.taken = (Function.update s.pops w _ u).filterMap id ++
      (Function.update s.threads w .idle u).taken
    by_cases hu : u = w
    · rw [hu, Function.update_self, Function.update_self, h.pops w, hw.1]
      cases r <;> simp [Thread.taken]
    · rw [Function.update_of_ne hu, Function.update_of_ne hu]
      exact h.pops u

theorem notifyOne_logs {waits : Thread α → Bool} {f g : W → Thread α}
    (hn : NotifyOne waits Thread.wake f g) (w : W) :
    (g w).accepted = (f w).accepted ∧ (g w).taken = (f w).taken := by
  cases hn with
  | nobody _ => exact ⟨rfl, rfl⟩
  | woken u _ =>
    by_cases hu : w = u
    · rw [hu, Function.update_self]
      simp
    · rw [Function.update_of_ne hu]
      exact ⟨rfl, rfl⟩

omit [DecidableEq W] in
theorem notifyAll_logs (waits : Thread α → Bool) (f : W → Thread α) (w : W) :
    (notifyAll waits Thread.wake f w).accepted = (f w).accepted ∧
      (notifyAll waits Thread.wake f w).taken = (f w).taken := by
  unfold notifyAll
  split <;> simp

theorem Logged.accept (h : Logged s) {w : W} {v : α} (hw : s.threads w = .pushing v) (q : Queue α) :
    Logged { s.set w (.pushed v) with queue := q, accepted := s.accepted ++ [(w, v)] } := by
  constructor
  · intro u
    show valuesOf u (s.accepted ++ [(w, v)]) = returnedTrue (s.pushes u) ++
      (Function.update s.threads w (.pushed v) u).accepted
    by_cases hu : u = w
    · have hpush := h.pushes w
      rw [hw] at hpush
      rw [hu, valuesOf_append_self, Function.update_self, hpush]
      simp [Thread.accepted]
    · rw [valuesOf_append_other hu, Function.update_of_ne hu]
      exact h.pushes u
  · intro u
    show valuesOf u s.taken = (s.pops u).filterMap id ++
      (Function.update s.threads w (.pushed v) u).taken
    by_cases hu : u = w
    · rw [hu, Function.update_self, h.pops w, hw]
      rfl
    · rw [Function.update_of_ne hu]
      exact h.pops u

theorem Logged.take (h : Logged s) {w : W} (v : α) (hw : s.threads w = .popping) (q : Queue α) :
    Logged { s.set w (.popped v) with queue := q, taken := s.taken ++ [(w, v)] } := by
  constructor
  · intro u
    show valuesOf u s.accepted = returnedTrue (s.pushes u) ++
      (Function.update s.threads w (.popped v) u).accepted
    by_cases hu : u = w
    · rw [hu, Function.update_self, h.pushes w, hw]
      rfl
    · rw [Function.update_of_ne hu]
      exact h.pushes u
  · intro u
    show valuesOf u (s.taken ++ [(w, v)]) = (s.pops u).filterMap id ++
      (Function.update s.threads w (.popped v) u).taken
    by_cases hu : u = w
    · have hpop := h.pops w
      rw [hw] at hpop
      rw [hu, valuesOf_append_self, Function.update_self, hpop]
      simp [Thread.taken]
    · rw [valuesOf_append_other hu, Function.update_of_ne hu]
      exact h.pops u

theorem Logged.withQueue (h : Logged s) (q : Queue α) : Logged { s with queue := q } :=
  ⟨h.pushes, h.pops⟩

theorem Logged.step (h : Logged s) (hs : QueueStep capacity s s') : Logged s' := by
  cases hs with
  | call w c hw => exact h.set (by rw [hw]; cases c <;> exact ⟨rfl, rfl⟩)
  | push w v hw =>
    rcases lockedPush_cases capacity s w v with ⟨_, _, he⟩ | ⟨_, he⟩ | ⟨_, _, he⟩
    · rw [he]
      exact h.set (by rw [hw]; exact ⟨rfl, rfl⟩)
    · rw [he]
      exact h.pushReturns (by rw [hw]; exact ⟨rfl, rfl⟩)
    · rw [he]
      exact h.accept hw _
  | pop w hw =>
    rcases lockedPop_cases s w with ⟨_, _, he⟩ | ⟨_, _, he⟩ | ⟨v, rest, _, he⟩
    · rw [he]
      exact h.set (by rw [hw]; exact ⟨rfl, rfl⟩)
    · rw [he]
      exact h.popReturns (by rw [hw]; exact ⟨rfl, rfl⟩)
    · rw [he]
      exact h.take v hw _
  | pushNotifies w v f hw hn =>
    refine (h.threads (notifyOne_logs hn)).pushReturns ?_
    have hf := notifyOne_logs hn w
    rw [hw] at hf
    exact ⟨hf.1, hf.2⟩
  | popNotifies w v f hw hn =>
    refine (h.threads (notifyOne_logs hn)).popReturns ?_
    have hf := notifyOne_logs hn w
    rw [hw] at hf
    exact ⟨hf.2, hf.1⟩
  | close w hw =>
    have hset : Logged (s.set w .wakesConsumers) := h.set (by rw [hw]; exact ⟨rfl, rfl⟩)
    exact hset.withQueue _
  | closeWakesConsumers w hw =>
    refine (h.threads (notifyAll_logs Thread.isPopWaits s.threads)).set ?_
    have hf := notifyAll_logs Thread.isPopWaits s.threads w
    rw [hw] at hf
    exact ⟨hf.1.symm, hf.2.symm⟩
  | closeWakesProducers w hw =>
    refine (h.threads (notifyAll_logs Thread.isPushWaits s.threads)).set ?_
    have hf := notifyAll_logs Thread.isPushWaits s.threads w
    rw [hw] at hf
    exact ⟨hf.1.symm, hf.2.symm⟩
  | spurious w hw => exact h.set (by simp)

/-! ### Nobody waits without reason -/

def Thread.isWakesConsumers : Thread α → Bool
  | .wakesConsumers => true
  | _ => false

/-- The thread has closed the queue and still owes a `notify_all` to the producers. -/
def Thread.isWaker : Thread α → Bool
  | .wakesConsumers => true
  | .wakesProducers => true
  | _ => false

variable [Fintype W]

/-- While the queue is open, items have consumers awake or notifications owed to them, and room has
producers; when it is closed, whoever waits is about to be woken. -/
structure Awake (capacity : ℕ) (s : QueueState W α) : Prop where
  consumers : s.queue.closed = false → Covers Thread.isPopWaits Thread.isPopping Thread.isPushed
    s.queue.items.length s.threads
  producers : s.queue.closed = false → Covers Thread.isPushWaits Thread.isPushing Thread.isPopped
    (capacityOf capacity - s.queue.items.length) s.threads
  noWaker : s.queue.closed = false → ∀ w, (s.threads w).isWaker = false
  releasedConsumers : s.queue.closed = true →
    Released Thread.isPopWaits Thread.isWakesConsumers s.threads
  releasedProducers : s.queue.closed = true → Released Thread.isPushWaits Thread.isWaker s.threads

omit [DecidableEq W] in
theorem awake_start : Awake capacity (QueueState.start : QueueState W α) where
  consumers _ := covers_of_none rfl
  producers _ := Or.inl (count_eq_zero_iff.mpr fun _ => rfl)
  noWaker _ _ := rfl
  releasedConsumers h := by cases h
  releasedProducers h := by cases h

theorem isWakesConsumers_of_isWaker {t : Thread α} (h : t.isWaker = false) :
    t.isWakesConsumers = false := by
  cases t with
  | wakesConsumers => cases h
  | _ => rfl

/-- A thread goes on, with what the queue becomes. -/
theorem Awake.move (h : Awake capacity s) {w : W} {x : Thread α} {q : Queue α}
    (hclosed : q.closed = s.queue.closed)
    (hwaker : (s.threads w).isWaker = false ∧ x.isWaker = false)
    (hwaits : x.isPopWaits = false ∧ x.isPushWaits = false)
    (hconsumers : s.queue.closed = false → q.items.length + (s.threads w).isPopping.toNat
      + (s.threads w).isPushed.toNat ≤ s.queue.items.length + x.isPopping.toNat + x.isPushed.toNat)
    (hproducers : s.queue.closed = false → (capacityOf capacity - q.items.length)
      + (s.threads w).isPushing.toNat + (s.threads w).isPopped.toNat
        ≤ (capacityOf capacity - s.queue.items.length) + x.isPushing.toNat + x.isPopped.toNat) :
    Awake capacity { s.set w x with queue := q } where
  consumers ho := (h.consumers (hclosed ▸ ho)).update w hwaits.1 (hconsumers (hclosed ▸ ho))
  producers ho := (h.producers (hclosed ▸ ho)).update w hwaits.2 (hproducers (hclosed ▸ ho))
  noWaker ho u := by
    show (Function.update s.threads w x u).isWaker = false
    by_cases hu : u = w
    · rw [hu, Function.update_self]
      exact hwaker.2
    · rw [Function.update_of_ne hu]
      exact h.noWaker (hclosed ▸ ho) u
  releasedConsumers hc := by
    refine (h.releasedConsumers (hclosed ▸ hc)).update w hwaits.1 fun hw => ?_
    rw [isWakesConsumers_of_isWaker hwaker.1] at hw
    cases hw
  releasedProducers hc := by
    refine (h.releasedProducers (hclosed ▸ hc)).update w hwaits.2 fun hw => ?_
    rw [hwaker.1] at hw
    cases hw

/-- A consumer goes to wait on an empty queue, or a producer on a full one. -/
theorem Awake.sleep (h : Awake capacity s) (ho : s.queue.closed = false) {w : W} {x : Thread α}
    (hx : (x = .popWaits ∧ s.queue.items = [] ∧ s.threads w = .popping) ∨
      ∃ v, x = .pushWaits v ∧ capacityOf capacity ≤ s.queue.items.length ∧
        s.threads w = .pushing v) : Awake capacity (s.set w x) where
  consumers _ := by
    rcases hx with ⟨rfl, hnil, hw⟩ | ⟨v, rfl, _, hw⟩
    · exact covers_of_none (by simp [QueueState.set, hnil])
    · exact (h.consumers ho).update w rfl (by rw [hw]; exact le_refl _)
  producers _ := by
    rcases hx with ⟨rfl, _, hw⟩ | ⟨v, rfl, hfull, hw⟩
    · exact (h.producers ho).update w rfl (by rw [hw]; exact le_refl _)
    · exact covers_of_none (Nat.sub_eq_zero_of_le hfull)
  noWaker _ u := by
    show (Function.update s.threads w x u).isWaker = false
    by_cases hu : u = w
    · rw [hu, Function.update_self]
      rcases hx with ⟨rfl, _⟩ | ⟨v, rfl, _⟩ <;> rfl
    · rw [Function.update_of_ne hu]
      exact h.noWaker ho u
  releasedConsumers hc := by
    rw [show (s.set w x).queue.closed = s.queue.closed from rfl, ho] at hc
    cases hc
  releasedProducers hc := by
    rw [show (s.set w x).queue.closed = s.queue.closed from rfl, ho] at hc
    cases hc

omit [Fintype W] in
/-- A notification wakes no thread that closes the queue. -/
theorem notifyOne_isWaker {waits : Thread α → Bool} {f g : W → Thread α}
    (hn : NotifyOne waits Thread.wake f g) (w : W) : (g w).isWaker = (f w).isWaker := by
  have hwake : ∀ t : Thread α, t.wake.isWaker = t.isWaker := by
    intro t
    cases t <;> rfl
  cases hn with
  | nobody _ => rfl
  | woken u _ =>
    by_cases hu : w = u
    · rw [hu, Function.update_self, hwake]
    · rw [Function.update_of_ne hu]

/-- The facts about waiting and woken threads that the rules for notifications ask for. -/
theorem isPopWaits_spec (t : Thread α) (h : t.isPopWaits = true) :
    t = .popWaits ∧ t.wake = .popping := by
  cases t with
  | popWaits => exact ⟨rfl, rfl⟩
  | _ => cases h

theorem isPushWaits_spec (t : Thread α) (h : t.isPushWaits = true) :
    ∃ v, t = .pushWaits v ∧ t.wake = .pushing v := by
  cases t with
  | pushWaits v => exact ⟨v, rfl, rfl⟩
  | _ => cases h

/-- A `push` notifies a consumer and returns. -/
theorem Awake.pushNotifies (h : Awake capacity s) {w : W} {v : α} {f : W → Thread α}
    (hw : s.threads w = .pushed v) (hn : NotifyOne Thread.isPopWaits Thread.wake s.threads f) :
    Awake capacity (({ s with threads := f } : QueueState W α).pushReturns w v true) where
  consumers ho := by
    refine (h.consumers ho).notifyOne hn w rfl (by rw [hw]; exact ⟨rfl, rfl, rfl⟩) ?_ ?_
    · intro t ht
      obtain ⟨rfl, _⟩ := isPopWaits_spec t ht
      exact ⟨rfl, rfl⟩
    · intro t ht
      rw [(isPopWaits_spec t ht).2]
      exact ⟨rfl, rfl⟩
  producers ho := by
    have hother := (h.producers ho).notifyOther hn
      (fun t ht => by obtain ⟨rfl, _⟩ := isPopWaits_spec t ht; exact ⟨rfl, rfl⟩)
      (fun t ht => by rw [(isPopWaits_spec t ht).2]; rfl)
    have hfw : f w = .pushed v := by
      cases hn with
      | nobody _ => exact hw
      | woken u hu =>
        have huw : w ≠ u := fun he => by
          rw [← he, hw] at hu
          cases hu
        rw [Function.update_of_ne huw, hw]
    exact hother.update w rfl (by rw [hfw]; exact le_refl _)
  noWaker ho u := by
    show (Function.update f w .idle u).isWaker = false
    by_cases hu : u = w
    · rw [hu, Function.update_self]
      rfl
    · rw [Function.update_of_ne hu, notifyOne_isWaker hn]
      exact h.noWaker ho u
  releasedConsumers hc := by
    refine ((h.releasedConsumers hc).notifyOne hn (fun t ht => ?_) fun t ht => ?_).update w rfl ?_
    · rw [(isPopWaits_spec t ht).2]
      rfl
    · obtain ⟨rfl, _⟩ := isPopWaits_spec t ht
      rfl
    · intro hfw
      have hsame := notifyOne_isWaker hn w
      rw [hw] at hsame
      rw [isWakesConsumers_of_isWaker hsame] at hfw
      cases hfw
  releasedProducers hc := by
    refine ((h.releasedProducers hc).notifyOne hn (fun t ht => ?_) fun t ht => ?_).update w rfl ?_
    · rw [(isPopWaits_spec t ht).2]
      rfl
    · obtain ⟨rfl, _⟩ := isPopWaits_spec t ht
      rfl
    · intro hfw
      have hsame := notifyOne_isWaker hn w
      rw [hw] at hsame
      rw [hsame] at hfw
      cases hfw

/-- A `pop` notifies a producer and returns. -/
theorem Awake.popNotifies (h : Awake capacity s) {w : W} {v : α} {f : W → Thread α}
    (hw : s.threads w = .popped v) (hn : NotifyOne Thread.isPushWaits Thread.wake s.threads f) :
    Awake capacity (({ s with threads := f } : QueueState W α).popReturns w (some v)) where
  consumers ho := by
    have hother := (h.consumers ho).notifyOther hn
      (fun t ht => by obtain ⟨x, rfl, _⟩ := isPushWaits_spec t ht; exact ⟨rfl, rfl⟩)
      (fun t ht => by obtain ⟨x, _, he⟩ := isPushWaits_spec t ht; rw [he]; rfl)
    have hfw : f w = .popped v := by
      cases hn with
      | nobody _ => exact hw
      | woken u hu =>
        have huw : w ≠ u := fun he => by
          rw [← he, hw] at hu
          cases hu
        rw [Function.update_of_ne huw, hw]
    exact hother.update w rfl (by rw [hfw]; exact le_refl _)
  producers ho := by
    refine (h.producers ho).notifyOne hn w rfl (by rw [hw]; exact ⟨rfl, rfl, rfl⟩) ?_ ?_
    · intro t ht
      obtain ⟨x, rfl, _⟩ := isPushWaits_spec t ht
      exact ⟨rfl, rfl⟩
    · intro t ht
      obtain ⟨x, _, he⟩ := isPushWaits_spec t ht
      rw [he]
      exact ⟨rfl, rfl⟩
  noWaker ho u := by
    show (Function.update f w .idle u).isWaker = false
    by_cases hu : u = w
    · rw [hu, Function.update_self]
      rfl
    · rw [Function.update_of_ne hu, notifyOne_isWaker hn]
      exact h.noWaker ho u
  releasedConsumers hc := by
    refine ((h.releasedConsumers hc).notifyOne hn (fun t ht => ?_) fun t ht => ?_).update w rfl ?_
    · obtain ⟨x, _, he⟩ := isPushWaits_spec t ht
      rw [he]
      rfl
    · obtain ⟨x, rfl, _⟩ := isPushWaits_spec t ht
      rfl
    · intro hfw
      have hsame := notifyOne_isWaker hn w
      rw [hw] at hsame
      rw [isWakesConsumers_of_isWaker hsame] at hfw
      cases hfw
  releasedProducers hc := by
    refine ((h.releasedProducers hc).notifyOne hn (fun t ht => ?_) fun t ht => ?_).update w rfl ?_
    · obtain ⟨x, _, he⟩ := isPushWaits_spec t ht
      rw [he]
      rfl
    · obtain ⟨x, rfl, _⟩ := isPushWaits_spec t ht
      rfl
    · intro hfw
      have hsame := notifyOne_isWaker hn w
      rw [hw] at hsame
      rw [hsame] at hfw
      cases hfw

omit [DecidableEq W] in
/-- Only a closed queue has wakers. -/
theorem Awake.closed_of_waker (h : Awake capacity s) {w : W} (hw : (s.threads w).isWaker = true) :
    s.queue.closed = true := by
  cases hc : s.queue.closed with
  | true => rfl
  | false =>
    rw [h.noWaker hc w] at hw
    cases hw

omit [DecidableEq W] in
/-- The facts of a closed queue are all there is to it. -/
theorem awake_of_closed (hc : s.queue.closed = true)
    (hconsumers : Released Thread.isPopWaits Thread.isWakesConsumers s.threads)
    (hproducers : Released Thread.isPushWaits Thread.isWaker s.threads) : Awake capacity s where
  consumers ho := by
    rw [hc] at ho
    cases ho
  producers ho := by
    rw [hc] at ho
    cases ho
  noWaker ho := by
    rw [hc] at ho
    cases ho
  releasedConsumers _ := hconsumers
  releasedProducers _ := hproducers

theorem Awake.closeWakesConsumers (h : Awake capacity s) {w : W}
    (hw : s.threads w = .wakesConsumers) :
    Awake capacity (({ s with
      threads := notifyAll Thread.isPopWaits Thread.wake s.threads } : QueueState W α).set w
        .wakesProducers) := by
  have hc := h.closed_of_waker (w := w) (by rw [hw]; rfl)
  refine awake_of_closed hc ?_ ?_
  · have hnone : count (notifyAll Thread.isPopWaits Thread.wake s.threads) Thread.isPopWaits = 0 :=
      count_notifyAll s.threads fun t ht => by
        rw [(isPopWaits_spec t ht).2]
        rfl
    exact Or.inl (count_update_of_none hnone w rfl)
  · have hsame : Released Thread.isPushWaits Thread.isWaker
        (notifyAll Thread.isPopWaits Thread.wake s.threads) := by
      refine (h.releasedProducers hc).congr (notifyAll_apply (fun t ht => ?_) _)
        (notifyAll_apply (fun t ht => ?_) _)
      · obtain ⟨rfl, _⟩ := isPopWaits_spec t ht
        rfl
      · obtain ⟨rfl, _⟩ := isPopWaits_spec t ht
        rfl
    exact hsame.update w rfl fun _ => rfl

theorem Awake.closeWakesProducers (h : Awake capacity s) {w : W}
    (hw : s.threads w = .wakesProducers) :
    Awake capacity (({ s with
      threads := notifyAll Thread.isPushWaits Thread.wake s.threads } : QueueState W α).set w
        .idle) := by
  have hc := h.closed_of_waker (w := w) (by rw [hw]; rfl)
  refine awake_of_closed hc ?_ ?_
  · have hsame : Released Thread.isPopWaits Thread.isWakesConsumers
        (notifyAll Thread.isPushWaits Thread.wake s.threads) := by
      refine (h.releasedConsumers hc).congr (notifyAll_apply (fun t ht => ?_) _)
        (notifyAll_apply (fun t ht => ?_) _)
      · obtain ⟨v, rfl, _⟩ := isPushWaits_spec t ht
        rfl
      · obtain ⟨v, rfl, _⟩ := isPushWaits_spec t ht
        rfl
    refine hsame.update w rfl fun hu => ?_
    unfold notifyAll at hu
    rw [hw] at hu
    cases hu
  · have hnone : count (notifyAll Thread.isPushWaits Thread.wake s.threads) Thread.isPushWaits = 0 :=
      count_notifyAll s.threads fun t ht => by
        obtain ⟨v, _, he⟩ := isPushWaits_spec t ht
        rw [he]
        rfl
    exact Or.inl (count_update_of_none hnone w rfl)

theorem Awake.step (h : Awake capacity s) (hs : QueueStep capacity s s') : Awake capacity s' := by
  cases hs with
  | call w c hw =>
    have hmove : Awake capacity { s.set w c.start with queue := s.queue } := by
      refine h.move rfl ?_ ?_ (fun _ => ?_) fun _ => ?_
      · rw [hw]
        cases c <;> exact ⟨rfl, rfl⟩
      · cases c <;> exact ⟨rfl, rfl⟩
      · rw [hw]
        exact Nat.le_trans (Nat.le_add_right _ _) (Nat.le_add_right _ _)
      · rw [hw]
        exact Nat.le_trans (Nat.le_add_right _ _) (Nat.le_add_right _ _)
    exact hmove
  | push w v hw =>
    rcases lockedPush_cases capacity s w v with ⟨ho, hfull, he⟩ | ⟨hc, he⟩ | ⟨ho, hroom, he⟩
    · rw [he]
      exact h.sleep ho (Or.inr ⟨v, rfl, hfull, hw⟩)
    · rw [he]
      refine awake_of_closed hc ?_ ?_
      · exact (h.releasedConsumers hc).update w rfl fun hx => by rw [hw] at hx; cases hx
      · exact (h.releasedProducers hc).update w rfl fun hx => by rw [hw] at hx; cases hx
    · have hmove : Awake capacity { s.set w (.pushed v) with
          queue := { s.queue with items := s.queue.items ++ [v] } } := by
        refine h.move rfl (by rw [hw]; exact ⟨rfl, rfl⟩) ⟨rfl, rfl⟩ (fun _ => ?_) fun _ => ?_
        · rw [hw]
          simp [Thread.isPopping, Thread.isPushed]
        · rw [hw]
          simp only [Thread.isPushing, Thread.isPopped, List.length_append, List.length_singleton,
            Bool.toNat_true, Bool.toNat_false]
          omega
      rw [he]
      exact ⟨hmove.consumers, hmove.producers, hmove.noWaker, hmove.releasedConsumers,
        hmove.releasedProducers⟩
  | pop w hw =>
    rcases lockedPop_cases s w with ⟨ho, hnil, he⟩ | ⟨hc, _, he⟩ | ⟨v, rest, hitems, he⟩
    · rw [he]
      exact h.sleep ho (Or.inl ⟨rfl, hnil, hw⟩)
    · rw [he]
      refine awake_of_closed hc ?_ ?_
      · exact (h.releasedConsumers hc).update w rfl fun hx => by rw [hw] at hx; cases hx
      · exact (h.releasedProducers hc).update w rfl fun hx => by rw [hw] at hx; cases hx
    · have hmove : Awake capacity { s.set w (.popped v) with
          queue := { s.queue with items := rest } } := by
        refine h.move rfl (by rw [hw]; exact ⟨rfl, rfl⟩) ⟨rfl, rfl⟩ (fun _ => ?_) fun _ => ?_
        · rw [hw, hitems]
          simp [Thread.isPopping, Thread.isPushed]
        · rw [hw, hitems]
          simp only [Thread.isPushing, Thread.isPopped, List.length_cons, Bool.toNat_true,
            Bool.toNat_false]
          omega
      rw [he]
      exact ⟨hmove.consumers, hmove.producers, hmove.noWaker, hmove.releasedConsumers,
        hmove.releasedProducers⟩
  | pushNotifies w v f hw hn => exact h.pushNotifies hw hn
  | popNotifies w v f hw hn => exact h.popNotifies hw hn
  | close w hw =>
    exact awake_of_closed rfl (Or.inr ⟨w, by simp [QueueState.set, Thread.isWakesConsumers]⟩)
      (Or.inr ⟨w, by simp [QueueState.set, Thread.isWaker]⟩)
  | closeWakesConsumers w hw => exact h.closeWakesConsumers hw
  | closeWakesProducers w hw => exact h.closeWakesProducers hw
  | spurious w hw =>
    have hmove : Awake capacity { s.set w (s.threads w).wake with queue := s.queue } := by
      rcases hw with hw | hw
      · obtain ⟨v, ht, he⟩ := isPushWaits_spec _ hw
        rw [he]
        refine h.move rfl (by rw [ht]; exact ⟨rfl, rfl⟩) ⟨rfl, rfl⟩ (fun _ => ?_) fun _ => ?_
        · rw [ht]
          exact le_refl _
        · rw [ht]
          simp [Thread.isPushing, Thread.isPopped]
      · obtain ⟨ht, he⟩ := isPopWaits_spec _ hw
        rw [he]
        refine h.move rfl (by rw [ht]; exact ⟨rfl, rfl⟩) ⟨rfl, rfl⟩ (fun _ => ?_) fun _ => ?_
        · rw [ht]
          simp [Thread.isPopping, Thread.isPushed]
        · rw [ht]
          exact le_refl _
    exact hmove

/-! ### Whole runs -/

/-- What holds of the queue over every interleaving. -/
structure QueueCorrect (capacity : ℕ) (s : QueueState W α) : Prop where
  /-- What was taken is a prefix of what was accepted, and the rest is what is queued. -/
  order : s.accepted.map Prod.snd = s.taken.map Prod.snd ++ s.queue.items
  /-- The values accepted from a thread are those its pushes returned true for, and the one of the
  push that has yet to return. -/
  pushes : ∀ w, valuesOf w s.accepted = returnedTrue (s.pushes w) ++ (s.threads w).accepted
  /-- The values a thread took are those its pops returned, and the one of the pop that has yet to
  return. -/
  pops : ∀ w, valuesOf w s.taken = (s.pops w).filterMap id ++ (s.threads w).taken
  bounded : s.queue.items.length ≤ capacityOf capacity
  /-- A `pop` that returns nothing returns from a closed and empty queue. -/
  drained : ∀ s' w, QueueStep capacity s s' → s'.pops w = s.pops w ++ [none] →
    s.queue.closed = true ∧ s.queue.items = []
  /-- With nobody running and no notification owed, whoever waits has a reason to. -/
  awake : (∀ w, (s.threads w).isQuiet = true) → ∀ w,
    ((s.threads w).isPopWaits = true → s.queue.items = [] ∧ s.queue.closed = false) ∧
    ((s.threads w).isPushWaits = true →
      s.queue.items.length = capacityOf capacity ∧ s.queue.closed = false)

omit [Fintype W] in
/-- A log grows by nothing, or by the result of the call that returns. -/
theorem drained_of_step (hs : QueueStep capacity s s') {w : W}
    (h : s'.pops w = s.pops w ++ [none]) : s.queue.closed = true ∧ s.queue.items = [] := by
  have hsame : ¬ s.pops w = s.pops w ++ [none] := by
    intro he
    have hlen := congrArg List.length he
    rw [List.length_append] at hlen
    simp at hlen
  cases hs with
  | push u v hu =>
    rcases lockedPush_cases capacity s u v with ⟨_, _, he⟩ | ⟨_, he⟩ | ⟨_, _, he⟩
    all_goals
      rw [he] at h
      exact absurd h hsame
  | pop u hu =>
    rcases lockedPop_cases s u with ⟨_, _, he⟩ | ⟨hc, hnil, _⟩ | ⟨v, rest, _, he⟩
    · rw [he] at h
      exact absurd h hsame
    · exact ⟨hc, hnil⟩
    · rw [he] at h
      exact absurd h hsame
  | popNotifies u v f hu hn =>
    exfalso
    by_cases hw : w = u
    · have hlast : s.pops u ++ [some v] = s.pops u ++ [none] := by
        simpa only [hw, QueueState.popReturns, Function.update_self] using h
      have hone := List.append_cancel_left hlast
      cases hone
    · refine hsame ?_
      simpa only [QueueState.popReturns, Function.update_of_ne hw] using h
  | _ => exact absurd h hsame

omit [DecidableEq W] in
/-- With every thread quiet, no thread is in a state that is not. -/
theorem count_of_quiet {p : Thread α → Bool} (hp : ∀ t, t.isQuiet = true → p t = false)
    (hquiet : ∀ w, (s.threads w).isQuiet = true) : count s.threads p = 0 :=
  count_eq_zero_iff.mpr fun w => hp _ (hquiet w)

omit [DecidableEq W] in
/-- With every thread quiet, a consumer waits on an empty open queue and a producer on a full one. -/
theorem Awake.waits_for (h : Awake capacity s) (hquiet : ∀ w, (s.threads w).isQuiet = true)
    (w : W) :
    ((s.threads w).isPopWaits = true → s.queue.items = [] ∧ s.queue.closed = false) ∧
    ((s.threads w).isPushWaits = true →
      capacityOf capacity ≤ s.queue.items.length ∧ s.queue.closed = false) := by
  have hawake : ∀ {p : Thread α → Bool}, (∀ t, t.isQuiet = true → p t = false) →
      count s.threads p = 0 := fun hp => count_of_quiet hp hquiet
  cases hc : s.queue.closed with
  | false =>
    refine ⟨fun hw => ⟨?_, rfl⟩, fun hw => ⟨?_, rfl⟩⟩
    · have hnone := (h.consumers hc).eq_zero
        (hawake fun t ht => by cases t <;> first | rfl | cases ht)
        (hawake fun t ht => by cases t <;> first | rfl | cases ht) hw
      exact List.length_eq_zero_iff.mp hnone
    · have hnone := (h.producers hc).eq_zero
        (hawake fun t ht => by cases t <;> first | rfl | cases ht)
        (hawake fun t ht => by cases t <;> first | rfl | cases ht) hw
      exact Nat.le_of_sub_eq_zero hnone
  | true =>
    refine ⟨fun hw => ?_, fun hw => ?_⟩
    · have hnot := (h.releasedConsumers hc).not_waits
        (hawake fun t ht => by cases t <;> first | rfl | cases ht) w
      rw [hw] at hnot
      cases hnot
    · have hnot := (h.releasedProducers hc).not_waits
        (hawake fun t ht => by cases t <;> first | rfl | cases ht) w
      rw [hw] at hnot
      cases hnot

omit [Fintype W] in
theorem Reachable.fifo (h : Reachable capacity s) : Fifo capacity s := by
  induction h with
  | refl => exact fifo_start
  | tail _ hs ih => exact ih.step hs

omit [Fintype W] in
theorem Reachable.logged (h : Reachable capacity s) : Logged s := by
  induction h with
  | refl => exact logged_start
  | tail _ hs ih => exact ih.step hs

theorem Reachable.awake (h : Reachable capacity s) : Awake capacity s := by
  induction h with
  | refl => exact awake_start
  | tail _ hs ih => exact ih.step hs

/-- **Over every interleaving the queue is a closable bounded FIFO without lost wakeups.** -/
theorem queue_correct (capacity : ℕ) (s : QueueState W α) (h : Reachable capacity s) :
    QueueCorrect capacity s where
  order := h.fifo.order
  pushes := h.logged.pushes
  pops := h.logged.pops
  bounded := h.fifo.bounded
  drained _ _ hs hnone := drained_of_step hs hnone
  awake hquiet w := by
    obtain ⟨hpop, hpush⟩ := h.awake.waits_for hquiet w
    exact ⟨hpop, fun hw => ⟨Nat.le_antisymm h.fifo.bounded (hpush hw).1, (hpush hw).2⟩⟩

end Proofs

/-! ### One run -/

/-- A consumer that goes to wait on the empty queue. -/
def consumerWaits : QueueState Bool ℕ :=
  ((QueueState.start : QueueState Bool ℕ).set false .popping).lockedPop false

theorem consumerWaits_reachable (capacity : ℕ) : Reachable capacity consumerWaits :=
  (Relation.ReflTransGen.single (QueueStep.call false .pop rfl)).tail
    (QueueStep.pop false rfl)

/-- A producer pushes a value, which wakes the consumer. -/
def consumerWoken : QueueState Bool ℕ :=
  let pushed := (consumerWaits.set true (.pushing 7)).lockedPush 1 true 7
  ({ pushed with threads := Function.update pushed.threads false (pushed.threads false).wake } :
    QueueState Bool ℕ).pushReturns true 7 true

theorem consumerWoken_reachable : Reachable 1 consumerWoken :=
  (((consumerWaits_reachable 1).tail (.call true (.push 7) rfl)).tail (.push true 7 rfl)).tail
    (.pushNotifies true 7 _ rfl (.woken false rfl))

/-- It closes the queue. -/
def queueClosed : QueueState Bool ℕ :=
  let closing := consumerWoken.set true .closing
  let wakes : QueueState Bool ℕ :=
    { closing.set true .wakesConsumers with queue := closeSection closing.queue }
  let half : QueueState Bool ℕ := { wakes with
    threads := notifyAll Thread.isPopWaits Thread.wake wakes.threads }
  let halfway := half.set true .wakesProducers
  ({ halfway with threads := notifyAll Thread.isPushWaits Thread.wake halfway.threads } :
    QueueState Bool ℕ).set true .idle

theorem queueClosed_reachable : Reachable 1 queueClosed :=
  (((consumerWoken_reachable.tail (.call true .close rfl)).tail (.close true rfl)).tail
    (.closeWakesConsumers true rfl)).tail (.closeWakesProducers true rfl)

/-- The consumer takes the value, and the next time nothing. -/
def consumerDone : QueueState Bool ℕ :=
  let popped := queueClosed.lockedPop false
  ((popped.popReturns false (some 7)).set false .popping).lockedPop false

theorem consumerDone_reachable : Reachable 1 consumerDone :=
  (((queueClosed_reachable.tail (.pop false rfl)).tail
    (.popNotifies false 7 _ rfl (.nobody (by decide)))).tail (.call false .pop rfl)).tail
    (.pop false rfl)

/-- One value goes through the queue and wakes the consumer, which drains it when it is closed. -/
theorem queue_correct_waits : Reachable 1 consumerDone ∧ QueueCorrect 1 consumerDone ∧
    consumerDone.pushes true = [(7, true)] ∧ consumerDone.pops false = [some 7, none] :=
  ⟨consumerDone_reachable, queue_correct 1 consumerDone consumerDone_reachable, rfl, rfl⟩

end StarBase.Scan.BoundedQueue

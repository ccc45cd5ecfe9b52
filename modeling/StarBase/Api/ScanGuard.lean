import Mathlib.Logic.Function.Basic
import StarBase.Lib.Run

/-!
# One scan at a time

`POST /scan` and the scheduler start scans through `try_start_scan`, the scan thread clears the
active flag under the same mutex, and `stop` joins the scan thread without it.

* `Party`, `Place` — who starts scans, and where in the code each is;
* `Enabled`, `next` — the actions of the parties, of the scan threads and of `stop`, each a step
  between two accesses to the shared state;
* `Exclusive` — one scan thread at most, the active flag right, no joinable handle overwritten, and
  nothing running once `stop` has returned;
* `scan_exclusive` — **PROVED**: this holds throughout every run in which each thread asked for is
  made and no request starts a scan from the moment `stop` looks at the handle.

A scan may end at any step, so the cancel flag, which only makes it end sooner, is left out.
-/

namespace StarBase.Api.ScanGuard

variable {W : Type*}

/-- Who starts scans. -/
inductive Party (W : Type*)
  | scheduler
  | handler (w : W)
  deriving DecidableEq

/-- Where a party is.  From `tests` to `spawns` it holds the mutex in `try_start_scan`. -/
inductive Place
  /-- A handler without a request, the scheduler before it reads its stop flag. -/
  | idle
  /-- The scheduler is about to read the active flag. -/
  | looks
  /-- The roots and the mapping are read from the database. -/
  | prepares
  | enters
  /-- No scan is active, and the handle is about to be tested. -/
  | tests
  /-- The handle was joinable. -/
  | joins
  | reaps (i : ℕ)
  /-- The state is about to be reset. -/
  | activates
  /-- The active flag is set, and the thread about to be made. -/
  | spawns
  /-- The scheduler has left its loop. -/
  | exited

/-- A scan thread: it scans, has cleared the active flag, or has ended. -/
inductive ScanThread
  | absent
  | scanning
  | reported
  | ended

/-- Where `stop` is. -/
inductive StopPlace
  | notCalled
  | flagged
  | schedulerJoined
  /-- The handle was joinable. -/
  | joins
  | waits (i : ℕ)
  | reaped
  | drains
  | returned
  /-- `join` threw. -/
  | threw

structure GuardState (W : Type*) where
  place : Party W → Place
  lock : Option (Party W)
  active : Bool
  handle : Option ℕ
  threads : ℕ → ScanThread
  stop : StopPlace
  schedulerStop : Bool
  /-- The server takes requests. -/
  accepting : Bool

/-- The server right after its start, with or without the scheduler. -/
def start (scheduled : Bool) : GuardState W where
  place
    | .scheduler => if scheduled then .idle else .exited
    | .handler _ => .idle
  lock := none
  active := false
  handle := none
  threads _ := .absent
  stop := .notCalled
  schedulerStop := false
  accepting := true

inductive ScanAction (W : Type*)
  /-- A request arrives, or the scheduler has slept. -/
  | calls (p : Party W)
  | looks
  /-- Nothing to scan, or an error on the way. -/
  | givesUp (p : Party W)
  | prepared (p : Party W)
  | enters (p : Party W)
  | tests (p : Party W)
  | joins (p : Party W)
  | reaps (p : Party W)
  | activates (p : Party W)
  | spawns (p : Party W) (i : ℕ)
  | spawnFails (p : Party W)
  /-- The scan thread clears the active flag. -/
  | reports (i : ℕ)
  | ends (i : ℕ)
  | stop

/-! ### Steps -/

/-- What `stop` waits for where it is. -/
def StopEnabled (s : GuardState W) : StopPlace → Prop
  | .flagged => s.place .scheduler = .exited
  | .waits i => s.threads i = .ended
  | .drains => ∀ w, s.place (.handler w) = .idle
  | .returned => False
  | .threw => False
  | _ => True

def Enabled (s : GuardState W) : ScanAction W → Prop
  | .calls p => s.place p = .idle ∧ (p = .scheduler ∨ s.accepting = true)
  | .looks => s.place .scheduler = .looks ∧ s.lock = none
  | .givesUp p => s.place p = .prepares
  | .prepared p => s.place p = .prepares
  | .enters p => s.place p = .enters ∧ s.lock = none
  | .tests p => s.place p = .tests
  | .joins p => s.place p = .joins
  | .reaps p => ∃ i, s.place p = .reaps i ∧ s.threads i = .ended
  | .activates p => s.place p = .activates
  | .spawns p i => s.place p = .spawns ∧ s.threads i = .absent
  | .spawnFails p => s.place p = .spawns
  | .reports i => s.threads i = .scanning ∧ s.lock = none
  | .ends i => s.threads i = .reported
  | .stop => StopEnabled s s.stop

/-- A call of `stop` takes its next step. -/
def stopNext (s : GuardState W) : GuardState W :=
  match s.stop with
  | .notCalled => { s with stop := .flagged, schedulerStop := true }
  | .flagged => { s with stop := .schedulerJoined }
  | .schedulerJoined => { s with stop := if s.handle.isSome then .joins else .reaped }
  | .joins =>
    match s.handle with
    | none => { s with stop := .threw }
    | some i => { s with stop := .waits i }
  | .waits _ => { s with stop := .reaped, handle := none }
  | .reaped => { s with stop := .drains, accepting := false }
  | .drains => { s with stop := .returned }
  | .returned => s
  | .threw => s

section Next

variable [DecidableEq W]

def GuardState.move (s : GuardState W) (p : Party W) (a : Place) : GuardState W :=
  { s with place := Function.update s.place p a }

/-- The state that an action leaves. -/
def next (s : GuardState W) : ScanAction W → GuardState W
  | .calls .scheduler => s.move .scheduler (if s.schedulerStop then .exited else .looks)
  | .calls (.handler w) => s.move (.handler w) .prepares
  | .looks => s.move .scheduler (if s.active then .idle else .prepares)
  | .givesUp p => s.move p .idle
  | .prepared p => s.move p .enters
  | .enters p => if s.active then s.move p .idle else { s.move p .tests with lock := some p }
  | .tests p => s.move p (if s.handle.isSome then .joins else .activates)
  | .joins p =>
    match s.handle with
    -- `join` throws, and the guard gives the mutex back
    | none => { s.move p .idle with lock := none }
    | some i => s.move p (.reaps i)
  | .reaps p => { s.move p .activates with handle := none }
  | .activates p => { s.move p .spawns with active := true }
  | .spawns p i =>
    { s.move p .idle with
      lock := none
      handle := some i
      threads := Function.update s.threads i .scanning }
  -- the constructor of the thread throws
  | .spawnFails p => { s.move p .idle with lock := none }
  | .reports i => { s with active := false, threads := Function.update s.threads i .reported }
  | .ends i => { s with threads := Function.update s.threads i .ended }
  | .stop => stopNext s

end Next

/-! ### What the guard is for -/

def ScanThread.live : ScanThread → Bool
  | .scanning => true
  | .reported => true
  | _ => false

/-- The party is past the check of the active flag and holds the mutex. -/
def Place.starting : Place → Bool
  | .tests => true
  | .joins => true
  | .reaps _ => true
  | .activates => true
  | .spawns => true
  | _ => false

/-- `stop` has looked at the handle. -/
def StopPlace.tested : StopPlace → Bool
  | .notCalled => false
  | .flagged => false
  | .schedulerJoined => false
  | _ => true

/-- **Scan exclusivity.** -/
structure Exclusive (s : GuardState W) : Prop where
  single : ∀ i j, (s.threads i).live = true → (s.threads j).live = true → i = j
  flag : s.active = true ↔ (∃ i, s.threads i = .scanning) ∨ ∃ p, s.place p = .spawns
  /-- The handle that is about to be assigned is not joinable. -/
  handle : ∀ p, s.place p = .spawns → s.handle = none
  stopped : s.stop = .returned → ∀ i, (s.threads i).live = false

/-- Every thread asked for is made, no request is starting a scan when `stop` looks at the handle,
and none passes the active flag afterwards. -/
def Guarded (s : GuardState W) : ScanAction W → Prop
  | .spawnFails _ => False
  | .stop => s.stop = .schedulerJoined → ∀ w, (s.place (.handler w)).starting = false
  | .enters (.handler _) => s.active = false → s.stop.tested = false
  | _ => True

/-! ### The invariant -/

/-- What the handle is where a party uses it. -/
def Place.Fits (handle : Option ℕ) : Place → Prop
  | .joins => handle ≠ none
  | .reaps i => handle = some i
  | .activates => handle = none
  | .spawns => handle = none
  | _ => True

def StopPlace.Fits (handle : Option ℕ) : StopPlace → Prop
  | .joins => handle ≠ none
  | .waits i => handle = some i
  | .reaped => handle = none
  | .drains => handle = none
  | .returned => handle = none
  | _ => True

theorem Place.fits_of_not_starting {a : Place} (h : a.starting = false) (handle : Option ℕ) :
    a.Fits handle := by
  cases a <;> trivial

theorem StopPlace.fits_of_not_tested {a : StopPlace} (h : a.tested = false) (handle : Option ℕ) :
    a.Fits handle := by
  cases a <;> trivial

/-- The parties in `try_start_scan` exclude each other, the handle is that of the one live scan
thread, and `stop` has it to itself once it has looked at it. -/
structure Held (s : GuardState W) : Prop where
  locked : ∀ p, (s.place p).starting = true ↔ s.lock = some p
  flag : s.active = true ↔ (∃ i, s.threads i = .scanning) ∨ ∃ p, s.place p = .spawns
  live : ∀ i, (s.threads i).live = true → s.handle = some i
  place : ∀ p, (s.place p).Fits s.handle
  stop : s.stop.Fits s.handle
  idle : ∀ p, (s.place p).starting = true → s.place p ≠ .spawns → s.active = false
  untouched : s.stop.tested = true → s.lock = none
  scheduler : s.stop ≠ .notCalled → s.stop ≠ .flagged → s.place .scheduler = .exited

theorem held_start (scheduled : Bool) : Held (start scheduled : GuardState W) where
  locked p := by cases p <;> cases scheduled <;> simp [start, Place.starting]
  flag := by
    refine ⟨fun h => absurd h Bool.false_ne_true, ?_⟩
    rintro (⟨i, hi⟩ | ⟨p, hp⟩)
    · cases hi
    · cases p <;> cases scheduled <;> cases hp
  live i h := by cases h
  place p := by cases p <;> cases scheduled <;> trivial
  stop := trivial
  idle p h := by cases p <;> cases scheduled <;> cases h
  untouched h := by cases h
  scheduler h := absurd rfl h

/-- **The invariant gives exclusivity.** -/
theorem Held.exclusive {s : GuardState W} (h : Held s) : Exclusive s where
  single i j hi hj := Option.some.inj ((h.live i hi).symm.trans (h.live j hj))
  flag := h.flag
  handle p hp := by
    have hfits := h.place p
    rw [hp] at hfits
    exact hfits
  stopped hstop i := by
    have hnone := h.stop
    rw [hstop] at hnone
    cases hlive : (s.threads i).live with
    | false => rfl
    | true => cases hnone.symm.trans (h.live i hlive)

section Proofs

variable [DecidableEq W] {s : GuardState W} {p : Party W} {a : Place}

omit [DecidableEq W] in
/-- The others are not in `try_start_scan` while one is. -/
theorem Held.alone (h : Held s) (hp : (s.place p).starting = true) {q : Party W} (hq : q ≠ p) :
    (s.place q).starting = false := by
  cases hs : (s.place q).starting with
  | false => rfl
  | true =>
    have hlock := (h.locked p).mp hp
    rw [(h.locked q).mp hs] at hlock
    exact absurd (Option.some.inj hlock) hq

omit [DecidableEq W] in
/-- The scheduler is at work only before `stop` has joined it. -/
theorem Held.not_scheduler (h : Held s) (hp : s.place p ≠ .exited) (h₁ : s.stop ≠ .notCalled)
    (h₂ : s.stop ≠ .flagged) : p ≠ .scheduler := by
  intro he
  rw [he] at hp
  exact hp (h.scheduler h₁ h₂)

/-- Whoever holds the mutex goes on, with what becomes of the shared state. -/
theorem Held.holder (h : Held s) (hp : (s.place p).starting = true) {lock : Option (Party W)}
    {active : Bool} {handle : Option ℕ} {threads : ℕ → ScanThread}
    (hlock : lock = if a.starting = true then some p else none)
    (hflag : active = true ↔ (∃ i, threads i = .scanning) ∨ a = .spawns)
    (hlive : ∀ i, (threads i).live = true → handle = some i) (ha : a.Fits handle)
    (hidle : a.starting = true → a ≠ .spawns → active = false) :
    Held { s with
      place := Function.update s.place p a
      lock := lock
      active := active
      handle := handle
      threads := threads } := by
  have hmutex := (h.locked p).mp hp
  have huntested : s.stop.tested = false := by
    cases ht : s.stop.tested with
    | false => rfl
    | true => cases hmutex.symm.trans (h.untouched ht)
  constructor
  · intro q
    show (Function.update s.place p a q).starting = true ↔ lock = some q
    by_cases hq : q = p
    · rw [hq, Function.update_self, hlock]
      cases a.starting <;> simp
    · rw [Function.update_of_ne hq, h.alone hp hq, hlock]
      cases a.starting <;> simp [Ne.symm hq]
  · show active = true ↔ (∃ i, threads i = .scanning) ∨ ∃ q, Function.update s.place p a q = .spawns
    rw [hflag]
    refine or_congr_right ⟨fun he => ⟨p, by rw [Function.update_self, he]⟩, ?_⟩
    rintro ⟨q, hq⟩
    by_cases he : q = p
    · rwa [he, Function.update_self] at hq
    · have hnot := h.alone hp he
      rw [Function.update_of_ne he] at hq
      rw [hq] at hnot
      cases hnot
  · exact hlive
  · intro q
    show (Function.update s.place p a q).Fits handle
    by_cases hq : q = p
    · rw [hq, Function.update_self]
      exact ha
    · rw [Function.update_of_ne hq]
      exact Place.fits_of_not_starting (h.alone hp hq) handle
  · exact StopPlace.fits_of_not_tested huntested handle
  · intro q
    show (Function.update s.place p a q).starting = true → Function.update s.place p a q ≠ .spawns →
      active = false
    by_cases hq : q = p
    · rw [hq, Function.update_self]
      exact hidle
    · rw [Function.update_of_ne hq, h.alone hp hq]
      intro hno
      cases hno
  · intro ht
    cases huntested.symm.trans ht
  · intro h₁ h₂
    have hne : p ≠ .scheduler := h.not_scheduler (by
      intro he
      rw [he] at hp
      cases hp) h₁ h₂
    show Function.update s.place p a .scheduler = .exited
    rw [Function.update_of_ne hne.symm]
    exact h.scheduler h₁ h₂

/-- A party outside `try_start_scan` goes on outside of it. -/
theorem Held.elsewhere (h : Held s) (hp : (s.place p).starting = false)
    (hne : s.place p ≠ .exited) (ha : a.starting = false) : Held (s.move p a) := by
  constructor
  · intro q
    show (Function.update s.place p a q).starting = true ↔ s.lock = some q
    by_cases hq : q = p
    · rw [hq, Function.update_self, ha, ← h.locked p, hp]
    · rw [Function.update_of_ne hq]
      exact h.locked q
  · show s.active = true ↔ (∃ i, s.threads i = .scanning) ∨
      ∃ q, Function.update s.place p a q = .spawns
    rw [h.flag]
    refine or_congr_right (exists_congr fun q => ?_)
    by_cases hq : q = p
    · rw [hq, Function.update_self]
      refine iff_of_false (fun he => ?_) fun he => ?_
      · rw [he] at hp
        cases hp
      · rw [he] at ha
        cases ha
    · rw [Function.update_of_ne hq]
  · exact h.live
  · intro q
    show (Function.update s.place p a q).Fits s.handle
    by_cases hq : q = p
    · rw [hq, Function.update_self]
      exact Place.fits_of_not_starting ha _
    · rw [Function.update_of_ne hq]
      exact h.place q
  · exact h.stop
  · intro q
    show (Function.update s.place p a q).starting = true → Function.update s.place p a q ≠ .spawns →
      s.active = false
    by_cases hq : q = p
    · rw [hq, Function.update_self, ha]
      intro hno
      cases hno
    · rw [Function.update_of_ne hq]
      exact h.idle q
  · exact h.untouched
  · intro h₁ h₂
    show Function.update s.place p a .scheduler = .exited
    rw [Function.update_of_ne (h.not_scheduler hne h₁ h₂).symm]
    exact h.scheduler h₁ h₂

/-! ### One step -/

/-- A party that finds no scan active takes the mutex. -/
theorem Held.takes (h : Held s) (hp : s.place p = .enters) (hlock : s.lock = none)
    (hactive : s.active = false) (htested : s.stop.tested = false) :
    Held { s.move p .tests with lock := some p } := by
  have hout : ∀ q, (s.place q).starting = false := by
    intro q
    cases hq : (s.place q).starting with
    | false => rfl
    | true => cases hlock.symm.trans ((h.locked q).mp hq)
  have hnone : ∀ q, s.place q ≠ .spawns := by
    intro q hq
    have hstarting := hout q
    rw [hq] at hstarting
    cases hstarting
  constructor
  · intro q
    show (Function.update s.place p .tests q).starting = true ↔ some p = some q
    by_cases hq : q = p
    · rw [hq, Function.update_self]
      exact iff_of_true rfl rfl
    · rw [Function.update_of_ne hq, hout q]
      simp [Ne.symm hq]
  · show s.active = true ↔ (∃ i, s.threads i = .scanning) ∨
      ∃ q, Function.update s.place p .tests q = .spawns
    rw [h.flag]
    refine or_congr_right (iff_of_false (fun ⟨q, hq⟩ => hnone q hq) ?_)
    rintro ⟨q, hq⟩
    by_cases he : q = p
    · rw [he, Function.update_self] at hq
      cases hq
    · rw [Function.update_of_ne he] at hq
      exact hnone q hq
  · exact h.live
  · intro q
    show (Function.update s.place p .tests q).Fits s.handle
    by_cases hq : q = p
    · rw [hq, Function.update_self]
      trivial
    · rw [Function.update_of_ne hq]
      exact h.place q
  · exact h.stop
  · exact fun _ _ _ => hactive
  · intro ht
    cases htested.symm.trans ht
  · intro h₁ h₂
    show Function.update s.place p .tests .scheduler = .exited
    rw [Function.update_of_ne (h.not_scheduler (by rw [hp]; exact fun he => by cases he) h₁ h₂).symm]
    exact h.scheduler h₁ h₂

omit [DecidableEq W] in
/-- Before a start sets the active flag no thread scans. -/
theorem Held.not_scanning (h : Held s) (hp : (s.place p).starting = true)
    (hne : s.place p ≠ .spawns) (ha : a ≠ .spawns) :
    s.active = true ↔ (∃ i, s.threads i = .scanning) ∨ a = .spawns := by
  have hactive := h.idle p hp hne
  refine iff_of_false (ne_true_of_eq_false hactive) ?_
  rintro (hscan | he)
  · exact ne_true_of_eq_false hactive (h.flag.mpr (Or.inl hscan))
  · exact ha he

omit [DecidableEq W] in
/-- A scan thread clears the active flag. -/
theorem Held.reports (h : Held s) {i : ℕ} (hi : s.threads i = .scanning) (hlock : s.lock = none) :
    Held { s with active := false, threads := Function.update s.threads i .reported } := by
  have hout : ∀ q, s.place q ≠ .spawns := by
    intro q hq
    cases hlock.symm.trans ((h.locked q).mp (by rw [hq]; rfl))
  have hhandle : s.handle = some i := h.live i (by rw [hi]; rfl)
  constructor
  · exact h.locked
  · refine ⟨fun hf => absurd hf Bool.false_ne_true, ?_⟩
    rintro (⟨j, hj⟩ | ⟨q, hq⟩)
    · -- the handle is that of the thread which reports
      replace hj : Function.update s.threads i .reported j = .scanning := hj
      by_cases he : j = i
      · rw [he, Function.update_self] at hj
        cases hj
      · rw [Function.update_of_ne he] at hj
        have hother := h.live j (by rw [hj]; rfl)
        exact absurd (Option.some.inj (hother.symm.trans hhandle)) he
    · exact absurd hq (hout q)
  · intro j
    show (Function.update s.threads i .reported j).live = true → s.handle = some j
    by_cases he : j = i
    · exact fun _ => he ▸ hhandle
    · rw [Function.update_of_ne he]
      exact h.live j
  · exact h.place
  · exact h.stop
  · exact fun _ _ _ => rfl
  · exact h.untouched
  · exact h.scheduler

omit [DecidableEq W] in
theorem Held.ends (h : Held s) {i : ℕ} (hi : s.threads i = .reported) :
    Held { s with threads := Function.update s.threads i .ended } := by
  constructor
  · exact h.locked
  · show s.active = true ↔ (∃ j, Function.update s.threads i .ended j = .scanning) ∨ _
    rw [h.flag]
    refine or_congr_left (exists_congr fun j => ?_)
    by_cases he : j = i
    · rw [he, Function.update_self, hi]
      exact iff_of_false (fun hno => by cases hno) fun hno => by cases hno
    · rw [Function.update_of_ne he]
  · intro j
    show (Function.update s.threads i .ended j).live = true → s.handle = some j
    by_cases he : j = i
    · rw [he, Function.update_self]
      intro hno
      cases hno
    · rw [Function.update_of_ne he]
      exact h.live j
  · exact h.place
  · exact h.stop
  · exact h.idle
  · exact h.untouched
  · exact h.scheduler

omit [DecidableEq W] in
/-- `stop` goes on without touching the handle. -/
theorem Held.stops (h : Held s) {a : StopPlace} {schedulerStop accepting : Bool}
    (ha : a.Fits s.handle) (hlock : a.tested = true → s.lock = none)
    (hscheduler : a ≠ .notCalled → a ≠ .flagged → s.place .scheduler = .exited) :
    Held { s with stop := a, schedulerStop := schedulerStop, accepting := accepting } :=
  ⟨h.locked, h.flag, h.live, h.place, ha, h.idle, hlock, hscheduler⟩

omit [DecidableEq W] in
/-- `stop` has joined the scan thread. -/
theorem Held.joined (h : Held s) {i : ℕ} (hstop : s.stop = .waits i) (hi : s.threads i = .ended) :
    Held { s with stop := .reaped, handle := none } := by
  have hlock : s.lock = none := h.untouched (by rw [hstop]; rfl)
  have hhandle : s.handle = some i := by
    have hfits := h.stop
    rw [hstop] at hfits
    exact hfits
  have hout : ∀ q, (s.place q).starting = false := by
    intro q
    cases hq : (s.place q).starting with
    | false => rfl
    | true => cases hlock.symm.trans ((h.locked q).mp hq)
  refine ⟨h.locked, h.flag, ?_, ?_, rfl, h.idle, fun _ => hlock, fun _ _ => ?_⟩
  · -- the one thread that could be alive has ended
    intro j hj
    replace hj : (s.threads j).live = true := hj
    rw [Option.some.inj ((h.live j hj).symm.trans hhandle), hi] at hj
    cases hj
  · exact fun q => Place.fits_of_not_starting (hout q) none
  · exact h.scheduler (by rw [hstop]; exact fun he => by cases he)
      (by rw [hstop]; exact fun he => by cases he)

omit [DecidableEq W] in
/-- A step of `stop`, with no request starting a scan when it looks at the handle. -/
theorem Held.stopNext (h : Held s) (henabled : StopEnabled s s.stop)
    (hguarded : s.stop = .schedulerJoined → ∀ w, (s.place (.handler w)).starting = false) :
    Held (stopNext s) := by
  have hfits := h.stop
  have hlocked := h.untouched
  have hexited := h.scheduler
  unfold ScanGuard.stopNext
  cases hs : s.stop with
  | notCalled => exact h.stops trivial (fun ht => by cases ht) fun _ he => absurd rfl he
  | flagged =>
    rw [hs] at henabled
    exact h.stops trivial (fun ht => by cases ht) fun _ _ => henabled
  | schedulerJoined =>
    have hgone : s.place .scheduler = .exited :=
      hexited (by rw [hs]; exact fun he => by cases he) (by rw [hs]; exact fun he => by cases he)
    -- whoever held the mutex would be a request on its way to a scan
    have hfree : s.lock = none := by
      cases hl : s.lock with
      | none => rfl
      | some p =>
        have hp := (h.locked p).mpr hl
        cases p with
        | scheduler =>
          rw [hgone] at hp
          cases hp
        | handler w => cases hp.symm.trans (hguarded hs w)
    refine h.stops ?_ (fun _ => hfree) fun _ _ => hgone
    cases hh : s.handle with
    | none => exact rfl
    | some i => exact fun he => by cases he
  | joins =>
    rw [hs] at hfits hlocked hexited
    have hgone := hexited (fun he => by cases he) fun he => by cases he
    show Held (match s.handle with
      | none => { s with stop := .threw }
      | some i => { s with stop := .waits i })
    cases hh : s.handle with
    | none => exact absurd hh hfits
    | some i =>
      have hwaits : Held { s with stop := .waits i } :=
        h.stops (show (StopPlace.waits i).Fits s.handle from hh) (fun _ => hlocked rfl) fun _ _ => hgone
      rw [hh] at hwaits
      exact hwaits
  | waits i =>
    rw [hs] at henabled
    exact h.joined hs henabled
  | reaped =>
    rw [hs] at hfits hlocked hexited
    exact h.stops hfits (fun _ => hlocked rfl)
      fun _ _ => hexited (fun he => by cases he) fun he => by cases he
  | drains =>
    rw [hs] at hfits hlocked hexited
    exact h.stops hfits (fun _ => hlocked rfl)
      fun _ _ => hexited (fun he => by cases he) fun he => by cases he
  | returned => exact h
  | threw => exact h

/-- Every step of the run keeps the invariant. -/
theorem Held.next (h : Held s) (t : ScanAction W) (henabled : Enabled s t) (hguarded : Guarded s t) :
    Held (next s t) := by
  cases t with
  | calls p =>
    have hp : (s.place p).starting = false ∧ s.place p ≠ .exited := by
      rw [henabled.1]
      exact ⟨rfl, fun he => by cases he⟩
    cases p with
    | scheduler => exact h.elsewhere hp.1 hp.2 (by split <;> rfl)
    | handler w => exact h.elsewhere hp.1 hp.2 rfl
  | looks =>
    have hp := henabled.1
    exact h.elsewhere (by rw [hp]; rfl) (by rw [hp]; exact fun he => by cases he)
      (by split <;> rfl)
  | givesUp p =>
    have hp : s.place p = .prepares := henabled
    exact h.elsewhere (by rw [hp]; rfl) (by rw [hp]; exact fun he => by cases he) rfl
  | prepared p =>
    have hp : s.place p = .prepares := henabled
    exact h.elsewhere (by rw [hp]; rfl) (by rw [hp]; exact fun he => by cases he) rfl
  | enters p =>
    obtain ⟨hp, hlock⟩ := henabled
    have hne : s.place p ≠ .exited := by
      rw [hp]
      exact fun he => by cases he
    show Held (if s.active then s.move p .idle else { s.move p .tests with lock := some p })
    split
    · exact h.elsewhere (by rw [hp]; rfl) hne rfl
    · next hactive =>
      rw [Bool.not_eq_true] at hactive
      refine h.takes hp hlock hactive ?_
      cases p with
      | scheduler =>
        -- `stop` looks at the handle only when the scheduler is gone
        cases ht : s.stop.tested with
        | false => rfl
        | true =>
          refine absurd (h.scheduler (fun he => ?_) fun he => ?_) hne
          · rw [he] at ht
            cases ht
          · rw [he] at ht
            cases ht
      | handler w => exact hguarded hactive
  | tests p =>
    have hp : s.place p = .tests := henabled
    have hstarting : (s.place p).starting = true := by rw [hp]; rfl
    have hne : s.place p ≠ .spawns := by rw [hp]; exact fun he => by cases he
    have hactive := h.idle p hstarting hne
    have hlock := (h.locked p).mp hstarting
    show Held (s.move p (if s.handle.isSome then .joins else .activates))
    cases hh : s.handle with
    | none =>
      exact h.holder hstarting hlock (h.not_scanning hstarting hne fun he => by cases he) h.live hh
        fun _ _ => hactive
    | some i =>
      refine h.holder hstarting hlock (h.not_scanning hstarting hne fun he => by cases he) h.live ?_
        fun _ _ => hactive
      show s.handle ≠ none
      rw [hh]
      exact fun he => by cases he
  | joins p =>
    have hp : s.place p = .joins := henabled
    have hstarting : (s.place p).starting = true := by rw [hp]; rfl
    have hne : s.place p ≠ .spawns := by rw [hp]; exact fun he => by cases he
    have hactive := h.idle p hstarting hne
    have hlock := (h.locked p).mp hstarting
    have hfits := h.place p
    rw [hp] at hfits
    show Held (match s.handle with
      | none => { s.move p .idle with lock := none }
      | some i => s.move p (.reaps i))
    cases hh : s.handle with
    | none => exact absurd hh hfits
    | some i =>
      exact h.holder hstarting hlock (h.not_scanning hstarting hne fun he => by cases he) h.live hh
        fun _ _ => hactive
  | reaps p =>
    obtain ⟨i, hp, hi⟩ := henabled
    have hstarting : (s.place p).starting = true := by rw [hp]; rfl
    have hne : s.place p ≠ .spawns := by rw [hp]; exact fun he => by cases he
    have hactive := h.idle p hstarting hne
    have hhandle : s.handle = some i := by
      have hfits := h.place p
      rw [hp] at hfits
      exact hfits
    refine h.holder hstarting ((h.locked p).mp hstarting)
      (h.not_scanning hstarting hne fun he => by cases he) ?_ rfl fun _ _ => hactive
    intro j hj
    replace hj : (s.threads j).live = true := hj
    rw [Option.some.inj ((h.live j hj).symm.trans hhandle), hi] at hj
    cases hj
  | activates p =>
    have hp : s.place p = .activates := henabled
    have hstarting : (s.place p).starting = true := by rw [hp]; rfl
    have hfits := h.place p
    rw [hp] at hfits
    refine h.holder hstarting ((h.locked p).mp hstarting) ?_ h.live hfits
      fun _ hne => absurd rfl hne
    simp
  | spawns p i =>
    obtain ⟨hp, hi⟩ := henabled
    have hstarting : (s.place p).starting = true := by rw [hp]; rfl
    have hfits : s.handle = none := by
      have hplace := h.place p
      rw [hp] at hplace
      exact hplace
    refine h.holder hstarting rfl ?_ ?_ trivial fun hno => by cases hno
    · refine iff_of_true (h.flag.mpr (Or.inr ⟨p, hp⟩)) (Or.inl ⟨i, ?_⟩)
      rw [Function.update_self]
    · intro j hj
      by_cases he : j = i
      · rw [he]
      · rw [Function.update_of_ne he] at hj
        cases hfits.symm.trans (h.live j hj)
  | spawnFails p => exact hguarded.elim
  | reports i => exact h.reports henabled.1 henabled.2
  | ends i => exact h.ends henabled
  | stop => exact h.stopNext henabled hguarded

end Proofs

/-! ### Whole runs -/

/-- **In every run in which each thread asked for is made, no request is between the check of the
active flag and the start of its thread when `stop` looks at the handle, and none passes the check
afterwards, the scans exclude each other and none is left when `stop` has returned.** -/
theorem scan_exclusive [DecidableEq W] (scheduled : Bool) (actions : List (ScanAction W))
    (henabled : Run.Each next Enabled (start scheduled) actions)
    (hguarded : Run.Each next Guarded (start scheduled) actions) :
    Run.Always next Exclusive (start scheduled) actions := by
  have hheld : Run.Always next Held (start scheduled : GuardState W) actions :=
    Run.always_of_each (C := fun s t => Enabled s t ∧ Guarded s t)
      (fun s t h hst => Held.next h t hst.1 hst.2) (held_start scheduled) (henabled.and hguarded)
  rw [Run.always_iff_take] at hheld ⊢
  exact fun k => (hheld k).exclusive

/-- A scan that is over when `stop` is called. -/
def quietStop : List (ScanAction Unit) :=
  [.calls (.handler ()), .prepared (.handler ()), .enters (.handler ()), .tests (.handler ()),
    .activates (.handler ()), .spawns (.handler ()) 0, .reports 0, .ends 0,
    .stop, .stop, .stop, .stop, .stop, .stop, .stop]

/-- `stop` has found no scan thread to join, and a request starts one before the server closes. -/
def lateRequest : List (ScanAction Unit) :=
  [.stop, .stop, .stop, .calls (.handler ()), .prepared (.handler ()), .enters (.handler ()),
    .tests (.handler ()), .activates (.handler ()), .spawns (.handler ()) 0, .stop, .stop]

theorem scan_exclusive_quietStop : Run.Each next Enabled (start false) quietStop ∧
    Run.Always next Exclusive (start false) quietStop := by
  have henabled : Run.Each next Enabled (start false) quietStop :=
    ⟨⟨rfl, Or.inr rfl⟩, rfl, ⟨rfl, rfl⟩, rfl, rfl, ⟨rfl, rfl⟩, ⟨rfl, rfl⟩, rfl, trivial, rfl, trivial,
      trivial, rfl, trivial, fun _ => rfl, trivial⟩
  refine ⟨henabled, scan_exclusive false quietStop henabled ?_⟩
  exact ⟨trivial, trivial, fun _ => rfl, trivial, trivial, trivial, trivial, trivial,
    (by intro h; cases h), (by intro h; cases h), fun _ _ => rfl, (by intro h; cases h),
    (by intro h; cases h), (by intro h; cases h), (by intro h; cases h), trivial⟩

/-- The scan runs on after `stop` has returned. -/
theorem late_request_runs_on : ¬ ∀ actions : List (ScanAction Unit),
    Run.Each next Enabled (start false) actions → Run.Always next Exclusive (start false) actions := by
  intro hall
  have henabled : Run.Each next Enabled (start false) lateRequest :=
    ⟨trivial, rfl, trivial, ⟨rfl, Or.inr rfl⟩, rfl, ⟨rfl, rfl⟩, rfl, rfl, ⟨rfl, rfl⟩, trivial,
      fun _ => rfl, trivial⟩
  have hlast := (hall lateRequest henabled).last
  cases hlast.stopped rfl 0

end StarBase.Api.ScanGuard

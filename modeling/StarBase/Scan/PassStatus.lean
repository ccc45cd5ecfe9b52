import StarBase.Scan.PassInvariant

/-!
# The recorded status of a scan

A scan that is cut short in the walk or in the workers' loop, or whose walk meets an error of the
iterator, is recorded as `ok` when no item failed.

* `Truthful` — what `ok` is meant to say: the tree was walked to its end without an error, every item
  was looked at, and none failed;
* `Uncut`, `Faultless`, `Unbooked` — what a step does not do: cut the pass short, fail an item,
  record the scan;
* `recorded_status_truthful_iff` — **PROVED**: the status is truthful exactly after a run that is not
  cut short, fails an item or does not record the scan.

A file whose `stat` fails was looked at: the code takes it for one that vanished.
-/

namespace StarBase.Scan.Pass

open BoundedQueue

section Status

variable {n : ℕ}

/-- The root's status says `ok` only for a pass that was complete.  A file whose `stat` fails, with
any `errno`, was looked at: the code takes it for one that vanished. -/
def Truthful (s : PassState n) : Prop :=
  ∀ st, s.stamp = some st → st.status = .ok →
    (s.script = [] ∧ s.walkErrors = 0) ∧
      (∀ i < s.pushed, ∃ v, (i, v) ∈ s.trace ∧ v ≠ .dropped) ∧
      ∀ e ∈ s.trace, e.2 ≠ .failed

/-- The walk stands on an entry or is at its end, and the stop flag is not up when the walk tests it
in front of an entry or a worker tests it for an item. -/
def Uncut (s : PassState n) : Event n → Prop
  | .main _ => s.main = .walks →
      s.script = [] ∨ s.stop = false ∧ ∃ e rest, s.script = .entry e :: rest
  | .worker w _ => (∃ i, s.workers w = .holds i) → s.stop = false
  | _ => True

/-- No call made for an item throws. -/
def Faultless (s : PassState n) : Event n → Prop
  | .worker w a => (s.workers w).serves = true → a.thrown = none
  | _ => True

/-- The statements that record the scan are not made, or one throws. -/
def Unbooked (s : PassState n) : Event n → Prop
  | .main a => s.main = .records → a.thrown ≠ none
  | _ => True

/-! ### The walk -/

/-- The loop over the tree was entered and left. -/
def MainPlace.walked : MainPlace → Bool
  | .joins _ failed => failed.isNone
  | .stopsReporter failed => failed.isNone
  | .joinsReporter failed => failed.isNone
  | .links | .reconciles | .records | .returned => true
  | _ => false

/-- Away from the loop over the tree the calling thread leaves the walk as it is. -/
theorem main_script (cfg : PassConfig) (s : PassState n) (a : Answer) (hm : s.main ≠ .walks) :
    (mainNext cfg s a).script = s.script ∧ (mainNext cfg s a).walkErrors = s.walkErrors ∧
      (mainNext cfg s a).main.walked = s.main.walked := by
  obtain ⟨shown, he⟩ := emit_eq cfg s
  unfold mainNext
  cases hmain : s.main with
  | walks => exact absurd hmain hm
  | spawns k =>
    dsimp only
    by_cases hk : k < n
    · rw [dif_pos hk]
      exact ⟨rfl, rfl, rfl⟩
    · rw [dif_neg hk]
      exact ⟨rfl, rfl, rfl⟩
  | opens =>
    dsimp only
    split <;> exact ⟨rfl, rfl, rfl⟩
  | pushes i =>
    unfold pushNext
    dsimp only
    split
    · exact ⟨rfl, rfl, by rw [hmain]⟩
    · exact ⟨rfl, rfl, rfl⟩
    · exact ⟨rfl, rfl, rfl⟩
  | joins k failed =>
    unfold joinNext
    dsimp only
    split_ifs
    · split
      · exact ⟨rfl, rfl, rfl⟩
      · exact ⟨rfl, rfl, by rw [hmain]⟩
    · exact ⟨rfl, rfl, rfl⟩
  | joinsReporter failed =>
    have hover : (failed.elim MainPlace.links .threw).walked = failed.isNone := by
      cases failed <;> rfl
    unfold joinReporterNext
    rw [he]
    dsimp only
    split
    · exact ⟨rfl, rfl, by rw [hmain]⟩
    · exact ⟨rfl, rfl, by rw [hmain]⟩
    · exact ⟨rfl, rfl, hover⟩
    · exact ⟨rfl, rfl, hover⟩
  | reconciles =>
    unfold reconcileNext
    dsimp only
    split_ifs <;> exact ⟨rfl, rfl, rfl⟩
  | records =>
    unfold recordNext
    dsimp only
    split <;> exact ⟨rfl, rfl, rfl⟩
  | loads => exact ⟨rfl, rfl, rfl⟩
  | marks => exact ⟨rfl, rfl, rfl⟩
  | stopsReporter failed => exact ⟨rfl, rfl, rfl⟩
  | links => exact ⟨rfl, rfl, rfl⟩
  | returned => exact ⟨rfl, rfl, by rw [hmain]⟩
  | threw what => exact ⟨rfl, rfl, by rw [hmain]⟩

/-! ### Passes that are cut short -/

/-- The pass has met an error of the iterator, left entries or dropped an item. -/
def CutShort (s : PassState n) : Prop :=
  s.walkErrors ≠ 0 ∨ (∃ i, (i, Verdict.dropped) ∈ s.trace) ∨ s.main.walked = true ∧ s.script ≠ []

theorem CutShort.congr {s t : PassState n} (hscript : t.script = s.script)
    (herrors : t.walkErrors = s.walkErrors) (htrace : t.trace = s.trace)
    (hmain : t.main.walked = s.main.walked) : CutShort t ↔ CutShort s := by
  unfold CutShort
  rw [hscript, herrors, htrace, hmain]

/-- In the loop over the tree the pass is cut short by an error, or by the stop flag. -/
theorem cutShort_walk (cfg : PassConfig) {s : PassState n} (hm : s.main = .walks) :
    CutShort (walkNext cfg s) ↔ CutShort s ∨
      ¬ (s.script = [] ∨ s.stop = false ∧ ∃ e rest, s.script = .entry e :: rest) := by
  have hwalked : s.main.walked = false := by rw [hm]; rfl
  have hs : CutShort s ↔ s.walkErrors ≠ 0 ∨ ∃ i, (i, Verdict.dropped) ∈ s.trace := by
    unfold CutShort
    rw [hwalked]
    simp
  rw [hs]
  unfold walkNext
  cases hscript : s.script with
  | nil =>
    have ht : CutShort (s.endWalk none) ↔ s.walkErrors ≠ 0 ∨ ∃ i, (i, Verdict.dropped) ∈ s.trace := by
      unfold CutShort
      simp [PassState.endWalk, hscript]
    simpa using ht
  | cons x rest =>
    cases x with
    | failed => simp [CutShort]
    | lost => simp [CutShort, PassState.endWalk]
    | entry e =>
      cases hstop : s.stop with
      | true =>
        have hover : CutShort (s.endWalk none) := by
          refine Or.inr (Or.inr ⟨rfl, ?_⟩)
          show s.script ≠ []
          rw [hscript]
          exact List.cons_ne_nil _ _
        simpa using hover
      | false =>
        dsimp only
        cases offered cfg.ignore e with
        | none => simp [CutShort, hwalked]
        | some i => simp [CutShort, MainPlace.walked]

theorem cutShort_main (cfg : PassConfig) (s : PassState n) (a : Answer) :
    CutShort (mainNext cfg s a) ↔ CutShort s ∨ ¬ Uncut s (.main a) := by
  by_cases hm : s.main = .walks
  · have hs : mainNext cfg s a = walkNext cfg s := by
      unfold mainNext
      rw [hm]
    rw [hs, cutShort_walk cfg hm]
    unfold Uncut
    simp [hm]
  · obtain ⟨hscript, herrors, hwalked⟩ := main_script cfg s a hm
    have huncut : Uncut s (.main a) := fun h => absurd h hm
    rw [CutShort.congr hscript herrors (main_books cfg s a).1 hwalked,
      or_iff_left (not_not.mpr huncut)]

theorem cutShort_worker (cfg : PassConfig) (clock : Fin n → Int) (s : PassState n) (w : Fin n)
    (a : Answer) :
    CutShort (workerNext cfg clock s w a) ↔ CutShort s ∨ ¬ Uncut s (.worker w a) := by
  by_cases huncut : Uncut s (.worker w a)
  · rw [or_iff_left (not_not.mpr huncut)]
    have hs := worker_step cfg clock s w a
    generalize workerNext cfg clock s w a = t at hs
    cases hs with
    | stays => rfl
    | crashes => rfl
    | moves k p => rfl
    | takes i rest => rfl
    | ends => rfl
    | closes k p i v hm hi hp hv =>
      -- The item is not dropped, since the stop flag is down.
      have hne : v ≠ .dropped := by
        intro he
        obtain ⟨hstop, hholds⟩ := hv he
        rw [huncut hholds] at hstop
        cases hstop
      have htrace : (∃ j, (j, Verdict.dropped) ∈ s.trace ++ [(i, v)]) ↔
          ∃ j, (j, Verdict.dropped) ∈ s.trace := by
        refine exists_congr fun j => ?_
        rw [List.mem_append, List.mem_singleton, or_iff_left]
        intro he
        exact hne (congrArg Prod.snd he).symm
      unfold CutShort
      exact or_congr Iff.rfl (or_congr htrace Iff.rfl)
  · refine iff_of_true ?_ (Or.inr huncut)
    unfold Uncut at huncut
    push Not at huncut
    obtain ⟨⟨i, hi⟩, hstop⟩ := huncut
    rw [Bool.ne_false_iff] at hstop
    have hs : workerNext cfg clock s w a = s.close w .pops i.1 .dropped := by
      unfold workerNext
      rw [hi]
      dsimp only
      rw [if_pos hstop]
    rw [hs]
    exact Or.inr (Or.inl ⟨i.1, List.mem_append_right _ (List.mem_singleton_self _)⟩)

theorem cutShort_next (cfg : PassConfig) (clock : Fin n → Int) (s : PassState n) (e : Event n)
    (hup : s.down = false) : CutShort (next cfg clock s e) ↔ CutShort s ∨ ¬ Uncut s e := by
  unfold next
  rw [hup]
  cases e with
  | raise => simp [Uncut, CutShort]
  | main a => exact cutShort_main cfg s a
  | worker w a => exact cutShort_worker cfg clock s w a
  | reporter =>
    obtain ⟨r, shown, he⟩ := reporter_eq cfg s
    show CutShort (reporterNext cfg s) ↔ _
    rw [he]
    simp [Uncut, CutShort]

/-! ### Items that fail -/

/-- A worker counts an error exactly when a call made for an item throws. -/
theorem errored_worker (cfg : PassConfig) (clock : Fin n → Int) (s : PassState n) (w : Fin n)
    (a : Answer) :
    (workerNext cfg clock s w a).stats.errored ≠ 0 ↔
      s.stats.errored ≠ 0 ∨ ¬ Faultless s (.worker w a) := by
  by_cases hfault : Faultless s (.worker w a)
  · rw [or_iff_left (not_not.mpr hfault)]
    have hs := worker_step cfg clock s w a
    generalize workerNext cfg clock s w a = t at hs
    cases hs with
    | stays => rfl
    | crashes => rfl
    | moves k p => rfl
    | takes i rest => rfl
    | ends => rfl
    | closes k p i v hm hi hp hv hf =>
      have hne : v.isFailed = false := by
        by_contra hv
        rw [Bool.not_eq_false] at hv
        obtain ⟨hserves, hthrown⟩ := hf (of_decide_eq_true hv)
        exact hthrown (hfault hserves)
      have hcount : ((s.see k).close w p i v).stats.errored = s.stats.errored := by
        show (v.count _).errored = _
        rw [count_errored, hne]
        rfl
      rw [hcount]
  · refine iff_of_true ?_ (Or.inr hfault)
    unfold Faultless at hfault
    push Not at hfault
    obtain ⟨hserves, hthrown⟩ := hfault
    obtain ⟨e, he⟩ := Option.ne_none_iff_exists'.mp hthrown
    unfold workerNext
    rw [he]
    cases hw : s.workers w with
    | records i => exact Nat.succ_ne_zero _
    | selects i st => exact Nat.succ_ne_zero _
    | touches i => exact Nat.succ_ne_zero _
    | reads i known => exact Nat.succ_ne_zero _
    | stores i known => exact Nat.succ_ne_zero _
    | _ =>
      rw [hw] at hserves
      cases hserves

theorem errored_next (cfg : PassConfig) (clock : Fin n → Int) (s : PassState n) (e : Event n)
    (hup : s.down = false) :
    (next cfg clock s e).stats.errored ≠ 0 ↔ s.stats.errored ≠ 0 ∨ ¬ Faultless s e := by
  unfold next
  rw [hup]
  cases e with
  | raise => simp [Faultless]
  | main a =>
    have herrored : (mainNext cfg s a).stats.errored = s.stats.errored :=
      congrArg ScanStats.errored (main_books cfg s a).2.1
    simp [Faultless, herrored]
  | worker w a => exact errored_worker cfg clock s w a
  | reporter =>
    obtain ⟨r, shown, he⟩ := reporter_eq cfg s
    show (reporterNext cfg s).stats.errored ≠ 0 ↔ _
    rw [he]
    simp [Faultless]

/-! ### The record -/

/-- The scan is recorded exactly by a step that makes the statements. -/
theorem stamp_next (cfg : PassConfig) (clock : Fin n → Int) {s : PassState n} (e : Event n)
    (h : Coherent s) :
    (next cfg clock s e).stamp ≠ none ↔ s.stamp ≠ none ∨ ¬ Unbooked s e := by
  unfold next
  cases hup : s.down with
  | true =>
    -- The process went down before the pool was joined.
    have hun : Unbooked s e := by
      cases e with
      | main a =>
        intro hm
        have hs := h.up (by rw [hm]; rfl)
        rw [hup] at hs
        cases hs
      | _ => trivial
    rw [or_iff_left (not_not.mpr hun)]
    rfl
  | false =>
    cases e with
    | raise => simp [Unbooked]
    | reporter =>
      obtain ⟨r, shown, he⟩ := reporter_eq cfg s
      show (reporterNext cfg s).stamp ≠ none ↔ _
      rw [he]
      simp [Unbooked]
    | worker w a =>
      have hs := worker_step cfg clock s w a
      have hsame : (workerNext cfg clock s w a).stamp = s.stamp := by
        generalize workerNext cfg clock s w a = t at hs
        cases hs <;> rfl
      show (workerNext cfg clock s w a).stamp ≠ none ↔ _
      rw [hsame]
      simp [Unbooked]
    | main a =>
      show (mainNext cfg s a).stamp ≠ none ↔ _
      by_cases hun : Unbooked s (.main a)
      · rw [or_iff_left (not_not.mpr hun)]
        rcases (main_books cfg s a).2.2.2 with hsame | ⟨hm, ha⟩
        · rw [hsame]
        · exact absurd ha (hun hm)
      · refine iff_of_true ?_ (Or.inr hun)
        unfold Unbooked at hun
        push Not at hun
        obtain ⟨hm, ha⟩ := hun
        unfold mainNext recordNext
        rw [hm, ha]
        exact Option.some_ne_none _

theorem errored_eq_zero_iff {s : PassState n} (h : Coherent s) :
    s.stats.errored = 0 ↔ ∀ e ∈ s.trace, e.2 ≠ .failed := by
  rw [h.books.errored, List.countP_eq_zero]
  refine forall₂_congr fun e _ => ?_
  unfold Verdict.isFailed
  rw [decide_eq_true_iff]

theorem truthful_iff {s : PassState n} (h : Coherent s) (hn : 0 < n) :
    Truthful s ↔ ¬ CutShort s ∨ s.stats.errored ≠ 0 ∨ s.stamp = none := by
  cases hstamp : s.stamp with
  | none =>
    refine iff_of_true ?_ (Or.inr (Or.inr rfl))
    intro st hst
    rw [hstamp] at hst
    cases hst
  | some st =>
    obtain ⟨hm, k, rfl⟩ := h.books.stamped st hstamp
    by_cases herrored : s.stats.errored = 0
    · have hok : (stampOf s.stats k).status = .ok := if_pos herrored
      have hwalked : s.main.walked = true := by rw [hm]; rfl
      have hreaped : s.main.reaped n = n := by rw [hm]; rfl
      rw [or_iff_left (by simp [herrored])]
      constructor
      · intro ht
        obtain ⟨⟨hscript, herrors⟩, hall, -⟩ := ht _ hstamp hok
        rintro (hc | ⟨i, hi⟩ | ⟨-, hc⟩)
        · exact hc herrors
        · obtain ⟨v, hv, hne⟩ := hall i (h.pushed_of_verdict hi)
          exact hne (h.one_verdict hv hi)
        · exact hc hscript
      · intro hc st' hst' _
        unfold CutShort at hc
        push Not at hc
        obtain ⟨herrors, hdropped, hscript⟩ := hc
        refine ⟨⟨hscript hwalked, herrors⟩, ?_, (errored_eq_zero_iff h).mp herrored⟩
        intro i hi
        obtain ⟨v, hv⟩ := h.all_verdicts hn hreaped hi
        exact ⟨v, hv, fun he => hdropped i (he ▸ hv)⟩
    · refine iff_of_true ?_ (Or.inr (Or.inl herrored))
      intro st' hst' hok
      rw [hstamp] at hst'
      cases hst'
      rw [show (stampOf s.stats k).status = .error from if_neg herrored] at hok
      cases hok

theorem unbooked_run (cfg : PassConfig) (clock : Fin n → Int) (script : List Increment)
    (es : List (Event n)) :
    (es.foldl (next cfg clock) (start script)).stamp ≠ none ↔
      ¬ Run.Each (next cfg clock) Unbooked (start script) es := by
  have hall : Run.Each (next cfg clock) (fun s _ => Coherent s) (start script) es :=
    Run.each_of_invariant (I := Coherent) (fun s e h _ => coherent_next cfg clock s e h)
      (fun _ _ h _ => h) (coherent_start script) (Run.each_of_forall (C := fun _ _ => True) fun _ _ => trivial)
  rw [Run.fault_iff_each (F := fun s => s.stamp ≠ none) (fun s e h => stamp_next cfg clock e h) hall]
  exact or_iff_right (by simp [start])

/-- A process that is up at the end was up all the time. -/
theorem each_up (cfg : PassConfig) (clock : Fin n → Int) {s : PassState n} {es : List (Event n)}
    (h : (es.foldl (next cfg clock) s).down = false) :
    Run.Each (next cfg clock) (fun s _ => s.down = false) s es := by
  have hstays : ∀ s e, s.down = true → (next cfg clock s e).down = true := by
    intro s e hd
    unfold next
    rw [hd]
    exact hd
  refine Run.each_of_not_last (I := fun _ => True) (F := fun s => s.down = true)
    (fun _ _ _ => trivial) hstays ?_ trivial ?_
  · intro s e _ _ hd
    exact hstays s e (by simpa using hd)
  · rw [h]
    exact Bool.false_ne_true

/-- **When the recorded status is truthful.**  After any run, the root's status says `ok` only of a
complete pass, exactly if no step has cut the pass short, or an item has failed, or the scan was not
recorded. -/
theorem recorded_status_truthful_iff (cfg : PassConfig) (threads : Int) (hardware : ℕ)
    (clock : Fin (poolSize threads hardware) → Int) (script : List Increment)
    (es : List (Event (poolSize threads hardware))) :
    Truthful (es.foldl (next cfg clock) (start script)) ↔
      Run.Each (next cfg clock) Uncut (start script) es ∨
        ¬ Run.Each (next cfg clock) Faultless (start script) es ∨
        Run.Each (next cfg clock) Unbooked (start script) es := by
  have hcoherent := coherent_run cfg clock script es
  rw [truthful_iff hcoherent (poolSize_pos threads hardware)]
  have hstamp : (es.foldl (next cfg clock) (start script)).stamp = none ↔
      Run.Each (next cfg clock) Unbooked (start script) es := by
    rw [← not_iff_not, ← Ne.eq_def]
    exact unbooked_run cfg clock script es
  cases hup : (es.foldl (next cfg clock) (start script)).down with
  | true =>
    -- Nothing is recorded once the process is down.
    have hnone : (es.foldl (next cfg clock) (start script)).stamp = none := by
      by_contra hsome
      obtain ⟨st, hst⟩ := Option.ne_none_iff_exists'.mp hsome
      have hm := (hcoherent.books.stamped st hst).1
      rw [hcoherent.up (by rw [hm]; rfl)] at hup
      cases hup
    exact iff_of_true (Or.inr (Or.inr hnone)) (Or.inr (Or.inr (hstamp.mp hnone)))
  | false =>
    have hall := each_up cfg clock hup
    have hcut : CutShort (es.foldl (next cfg clock) (start script)) ↔
        ¬ Run.Each (next cfg clock) Uncut (start script) es := by
      rw [Run.fault_iff_each (F := CutShort) (fun s e h => cutShort_next cfg clock s e h) hall]
      exact or_iff_right (by simp [CutShort, start, MainPlace.walked])
    have herrored : (es.foldl (next cfg clock) (start script)).stats.errored ≠ 0 ↔
        ¬ Run.Each (next cfg clock) Faultless (start script) es := by
      rw [Run.fault_iff_each (F := fun s => s.stats.errored ≠ 0)
        (fun s e h => errored_next cfg clock s e h) hall]
      exact or_iff_right (by simp [start])
    rw [hcut, herrored, hstamp, not_not]

/-! ### A scan that is cancelled -/

def frameEntry : DirEntry where
  absPath := "/mnt/nas/a.fits".toList
  name := "a.fits".toList
  isRegularFile := true
  relPath := some "a.fits".toList

/-- The flag goes up when the walk stands on the first entry; every call succeeds. -/
def cancelledRun : List (Event 1) :=
  List.replicate 5 (.main {}) ++ [.raise, .main {}] ++ List.replicate 3 (.worker ⟨0, Nat.one_pos⟩ {}) ++
    List.replicate 7 (.main {})

/-- The file was not looked at, and the root's status is `ok`. -/
theorem cancelled_recorded_ok :
    ¬ Truthful (cancelledRun.foldl
      (next { label := "nas".toList, path := "/mnt/nas".toList } fun _ => 0)
      (start [.entry frameEntry])) := by
  intro h
  have hscript := (h (stampOf {} 0) rfl rfl).1.1
  cases hscript

end Status

end StarBase.Scan.Pass

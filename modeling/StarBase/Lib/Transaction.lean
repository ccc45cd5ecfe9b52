import Mathlib.Tactic.Common

/-!
# Transactions that are tried again

A `Tx σ ε α` sends statements to a store.  Each statement meets the next entry of a schedule: an
error strikes it, and then it has no effect, or nothing does.

* `step`, `statement` — what runs between the statements, and one statement;
* `Lawful m` — a run of `m` that returns met no error, so it is the run without a schedule;
* `Within R m` — the frame condition of `m`;
* `transaction undo body` — `body` between `START TRANSACTION` and `COMMIT`, undone on an error;
* `retry again m n` — `m`, and up to `n` times more after an error that allows it;
* `transaction_ok`, `transaction_error` — **PROVED**: a transaction is a run of its body without
  errors, or leaves the store undone;
* `retry_error`, `retry_ok` — **PROVED**: the same of a transaction that is tried again, up to
  what undoing leaves.
-/

namespace Transactions

/-- What the statements of a run meet, in order; nothing after the end. -/
abbrev Schedule (ε : Type) := List (Option ε)

/-- What a run leaves: its result, the store and the schedule it did not use. -/
structure Outcome (σ ε α : Type) where
  result : Except ε α
  store : σ
  rest : Schedule ε

def Tx (σ ε α : Type) := σ → Schedule ε → Outcome σ ε α

variable {σ ε α β : Type}

/-- Carry on with `f` after a result, stop at an error. -/
def Outcome.andThen (o : Outcome σ ε α) (f : α → Tx σ ε β) : Outcome σ ε β :=
  match o.result with
  | .ok a => f a o.store o.rest
  | .error e => ⟨.error e, o.store, o.rest⟩

instance : Monad (Tx σ ε) where
  pure a := fun s fs => ⟨.ok a, s, fs⟩
  bind m f := fun s fs => (m s fs).andThen f

/-- What runs between the statements. -/
def step (f : σ → Except ε α × σ) : Tx σ ε α := fun s fs => ⟨(f s).1, (f s).2, fs⟩

/-- One statement; the server may reject it with an error of its own. -/
def statement (f : σ → Except ε α × σ) : Tx σ ε α := fun s fs =>
  match fs with
  | some e :: rest => ⟨.error e, s, rest⟩
  | none :: rest => ⟨(f s).1, (f s).2, rest⟩
  | [] => ⟨(f s).1, (f s).2, []⟩

/-! ### Running the constructs -/

section Apply

variable (s : σ) (fs : Schedule ε)

@[simp] theorem pure_apply (a : α) : (pure a : Tx σ ε α) s fs = ⟨.ok a, s, fs⟩ := rfl

@[simp] theorem step_apply (f : σ → Except ε α × σ) : step f s fs = ⟨(f s).1, (f s).2, fs⟩ := rfl

@[simp] theorem statement_quiet (f : σ → Except ε α × σ) :
    statement f s [] = ⟨(f s).1, (f s).2, []⟩ := rfl

theorem bind_apply (m : Tx σ ε α) (f : α → Tx σ ε β) : (m >>= f) s fs = (m s fs).andThen f := rfl

@[simp] theorem andThen_ok (a : α) (f : α → Tx σ ε β) :
    (Outcome.mk (.ok a) s fs : Outcome σ ε α).andThen f = f a s fs := rfl

@[simp] theorem andThen_error (e : ε) (f : α → Tx σ ε β) :
    (Outcome.mk (.error e) s fs : Outcome σ ε α).andThen f = ⟨.error e, s, fs⟩ := rfl

theorem Outcome.eq_mk {o : Outcome σ ε α} {r : Except ε α} {t : σ} {gs : Schedule ε}
    (hr : o.result = r) (ht : o.store = t) (hg : o.rest = gs) : o = ⟨r, t, gs⟩ := by
  subst hr ht hg
  rfl

/-- The first part of a run, and what follows it. -/
theorem bind_of {m : Tx σ ε α} {s t : σ} {fs gs : Schedule ε} {a : α}
    (h : m s fs = ⟨.ok a, t, gs⟩) (f : α → Tx σ ε β) : (m >>= f) s fs = f a t gs := by
  rw [bind_apply, h]
  rfl

theorem bind_ok {m : Tx σ ε α} {f : α → Tx σ ε β} {s : σ} {fs : Schedule ε} {b : β}
    (h : ((m >>= f) s fs).result = .ok b) :
    ∃ a, (m s fs).result = .ok a ∧ (m >>= f) s fs = f a (m s fs).store (m s fs).rest := by
  rw [bind_apply] at h ⊢
  unfold Outcome.andThen at h ⊢
  cases ha : (m s fs).result with
  | ok a => exact ⟨a, rfl, rfl⟩
  | error e =>
    rw [ha] at h
    cases h

end Apply

/-! ### Runs that return -/

/-- A run of `m` that returns met no error. -/
structure Lawful (m : Tx σ ε α) : Prop where
  rest : ∀ s, (m s []).rest = []
  undisturbed : ∀ s fs a, (m s fs).result = .ok a →
    (m s []).result = .ok a ∧ (m s []).store = (m s fs).store

theorem lawful_pure (a : α) : Lawful (pure a : Tx σ ε α) :=
  ⟨fun _ => rfl, fun _ _ _ h => ⟨h, rfl⟩⟩

theorem lawful_step (f : σ → Except ε α × σ) : Lawful (step f) :=
  ⟨fun _ => rfl, fun _ _ _ h => ⟨h, rfl⟩⟩

theorem lawful_statement (f : σ → Except ε α × σ) : Lawful (statement f) where
  rest _ := rfl
  undisturbed s fs a h := by
    cases fs with
    | nil => exact ⟨h, rfl⟩
    | cons r rest =>
      cases r with
      | none => exact ⟨h, rfl⟩
      | some e => cases h

theorem lawful_bind {m : Tx σ ε α} {f : α → Tx σ ε β} (hm : Lawful m) (hf : ∀ a, Lawful (f a)) :
    Lawful (m >>= f) where
  rest s := by
    rw [bind_apply]
    unfold Outcome.andThen
    cases (m s []).result with
    | ok a =>
      dsimp only
      rw [hm.rest s]
      exact (hf a).rest _
    | error e => exact hm.rest s
  undisturbed s fs b h := by
    obtain ⟨a, ha, hrun⟩ := bind_ok h
    rw [hrun] at h ⊢
    obtain ⟨hq, hs⟩ := hm.undisturbed s fs a ha
    obtain ⟨hb, ht⟩ := (hf a).undisturbed _ _ b h
    rw [bind_of (Outcome.eq_mk hq hs (hm.rest s))]
    exact ⟨hb, ht⟩

/-- A lawful run that returns, as the run without a schedule. -/
theorem Lawful.quiet {m : Tx σ ε α} (hm : Lawful m) {s : σ} {fs : Schedule ε} {a : α}
    (h : (m s fs).result = .ok a) : m s [] = ⟨.ok a, (m s fs).store, []⟩ := by
  obtain ⟨hq, hs⟩ := hm.undisturbed s fs a h
  exact Outcome.eq_mk hq hs (hm.rest s)

/-! ### Frame conditions -/

/-- Whatever the schedule, `m` takes every store to one related to it by `R`. -/
def Within (R : σ → σ → Prop) (m : Tx σ ε α) : Prop := ∀ s fs, R s (m s fs).store

section Within

variable {R : σ → σ → Prop}

theorem within_pure (hr : ∀ s, R s s) (a : α) : Within R (pure a : Tx σ ε α) := fun s _ => hr s

theorem within_step {f : σ → Except ε α × σ} (h : ∀ s, R s (f s).2) : Within R (step f) :=
  fun s _ => h s

theorem within_statement (hr : ∀ s, R s s) {f : σ → Except ε α × σ} (h : ∀ s, R s (f s).2) :
    Within R (statement f) := by
  intro s fs
  cases fs with
  | nil => exact h s
  | cons r rest =>
    cases r with
    | none => exact h s
    | some e => exact hr s

theorem within_bind (ht : ∀ s t u, R s t → R t u → R s u) {m : Tx σ ε α} {f : α → Tx σ ε β}
    (hm : Within R m) (hf : ∀ a, Within R (f a)) : Within R (m >>= f) := by
  intro s fs
  rw [bind_apply]
  unfold Outcome.andThen
  cases (m s fs).result with
  | ok a => exact ht _ _ _ (hm s fs) (hf a _ _)
  | error e => exact hm s fs

end Within

/-! ### Transactions -/

/-- `COMMIT`. -/
def commit (a : α) : Tx σ ε α := statement fun s => (.ok a, s)

theorem lawful_commit (a : α) : Lawful (commit a : Tx σ ε α) := lawful_statement _

/-- `body` in a transaction.  On an error, of `COMMIT` too, the server undoes what was done since
the store was `s`, whether or not the `ROLLBACK` is answered. -/
def transaction (undo : σ → σ → σ) (body : Tx σ ε α) : Tx σ ε α := fun s fs =>
  match fs with
  | some e :: rest => ⟨.error e, s, rest⟩
  | _ =>
    let o := (body >>= commit) s fs.tail
    match o.result with
    | .ok _ => o
    | .error e => ⟨.error e, undo s o.store, o.rest.tail⟩

section Transaction

variable {undo : σ → σ → σ} {body : Tx σ ε α} {s : σ} {fs : Schedule ε}

/-- The statement that opens a transaction meets an error, or the transaction runs. -/
theorem transaction_cases (undo : σ → σ → σ) (body : Tx σ ε α) (s : σ) (fs : Schedule ε) :
    (∃ e rest, transaction undo body s fs = ⟨.error e, s, rest⟩) ∨
    (∃ a, ((body >>= commit) s fs.tail).result = .ok a ∧
      transaction undo body s fs = (body >>= commit) s fs.tail) ∨
    ∃ e, transaction undo body s fs =
      ⟨.error e, undo s ((body >>= commit) s fs.tail).store,
        ((body >>= commit) s fs.tail).rest.tail⟩ := by
  have hrun : ∀ fs : Schedule ε, (∀ e rest, fs ≠ some e :: rest) →
      (∃ a, ((body >>= commit) s fs.tail).result = .ok a ∧
        transaction undo body s fs = (body >>= commit) s fs.tail) ∨
      ∃ e, transaction undo body s fs =
        ⟨.error e, undo s ((body >>= commit) s fs.tail).store,
          ((body >>= commit) s fs.tail).rest.tail⟩ := by
    intro fs hfs
    unfold transaction
    split
    · next e rest => exact absurd rfl (hfs e rest)
    · dsimp only
      split
      · next a ha => exact Or.inl ⟨a, ha, rfl⟩
      · next e he => exact Or.inr ⟨e, rfl⟩
  cases fs with
  | nil => exact Or.inr (hrun [] fun _ _ h => nomatch h)
  | cons r rest =>
    cases r with
    | none => exact Or.inr (hrun _ fun _ _ h => nomatch (List.cons.inj h).1)
    | some e => exact Or.inl ⟨e, rest, rfl⟩

/-- **A transaction that returns** is the run of its body without errors. -/
theorem transaction_ok (hbody : Lawful body) {a : α}
    (h : (transaction undo body s fs).result = .ok a) :
    body s [] = ⟨.ok a, (transaction undo body s fs).store, []⟩ := by
  rcases transaction_cases undo body s fs with ⟨e, rest, hrun⟩ | ⟨b, hb, hrun⟩ | ⟨e, hrun⟩
  · rw [hrun] at h
    cases h
  · rw [hrun] at h ⊢
    have hquiet := (lawful_bind hbody lawful_commit).quiet h
    obtain ⟨c, hc, hrest⟩ := bind_ok (congrArg Outcome.result hquiet)
    have hbody' := hbody.quiet hc
    rw [bind_of hbody'] at hquiet
    obtain ⟨hca, hstore, -⟩ := Outcome.mk.inj hquiet
    cases hca
    rw [← hstore]
    exact hbody'
  · rw [hrun] at h
    cases h

theorem within_commit {Q : σ → σ → Prop} (hrefl : ∀ s, Q s s) (a : α) :
    Within Q (commit a : Tx σ ε α) := within_statement hrefl fun s => hrefl s

/-- **A transaction that fails** leaves the store as it was or undone. -/
theorem transaction_error {Q R : σ → σ → Prop} (hrefl : ∀ s, Q s s)
    (htrans : ∀ s t u, Q s t → Q t u → Q s u) (hbody : Within Q body) (hr : ∀ s, R s s)
    (hundo : ∀ s t, Q s t → R s (undo s t)) {e : ε}
    (h : (transaction undo body s fs).result = .error e) :
    R s (transaction undo body s fs).store := by
  rcases transaction_cases undo body s fs with ⟨e', rest, hrun⟩ | ⟨b, hb, hrun⟩ | ⟨e', hrun⟩
  · rw [hrun]
    exact hr s
  · rw [hrun, hb] at h
    cases h
  · rw [hrun]
    exact hundo s _ (within_bind htrans hbody (within_commit hrefl) s fs.tail)

/-- Without errors a transaction is its body. -/
theorem transaction_quiet {a : α} {t : σ} (h : body s [] = ⟨.ok a, t, []⟩) :
    transaction undo body s [] = ⟨.ok a, t, []⟩ := by
  have hrun : (body >>= commit) s [] = ⟨.ok a, t, []⟩ := bind_of h _
  unfold transaction
  dsimp only [List.tail_nil]
  rw [hrun]

end Transaction

/-! ### Attempts -/

/-- Carry on with `next` after an error that allows it. -/
def Outcome.orElse (o : Outcome σ ε α) (again : ε → Bool) (next : Tx σ ε α) : Outcome σ ε α :=
  match o.result with
  | .ok _ => o
  | .error e => if again e then next o.store o.rest else o

theorem orElse_cases (o : Outcome σ ε α) (again : ε → Bool) (next : Tx σ ε α) :
    o.orElse again next = o ∨
      ∃ e, o.result = .error e ∧ o.orElse again next = next o.store o.rest := by
  unfold Outcome.orElse
  split
  · exact Or.inl rfl
  · next e he =>
    split
    · exact Or.inr ⟨e, he, rfl⟩
    · exact Or.inl rfl

/-- `m`, and up to `n` attempts more after an error that allows one; each knows how many are left
after it. -/
def retry (again : ε → Bool) (m : ℕ → Tx σ ε α) : ℕ → Tx σ ε α
  | 0 => m 0
  | n + 1 => fun s fs => (m (n + 1) s fs).orElse again (retry again m n)

section Retry

variable {again : ε → Bool} {m : ℕ → Tx σ ε α} {R : σ → σ → Prop}

/-- One attempt, and the others if it fails. -/
theorem retry_succ (again : ε → Bool) (m : ℕ → Tx σ ε α) (n : ℕ) (s : σ) (fs : Schedule ε) :
    retry again m (n + 1) s fs = m (n + 1) s fs ∨
      ∃ e, (m (n + 1) s fs).result = .error e ∧ retry again m (n + 1) s fs =
        retry again m n (m (n + 1) s fs).store (m (n + 1) s fs).rest :=
  orElse_cases _ _ _

/-- **Attempts that fail** leave what failed attempts leave. -/
theorem retry_error (htrans : ∀ s t u, R s t → R t u → R s u)
    (hm : ∀ k s fs e, (m k s fs).result = .error e → R s (m k s fs).store) {n : ℕ} :
    ∀ {s : σ} {fs : Schedule ε} {e : ε}, (retry again m n s fs).result = .error e →
      R s (retry again m n s fs).store := by
  induction n with
  | zero => exact fun h => hm 0 _ _ _ h
  | succ n ih =>
    intro s fs e h
    rcases retry_succ again m n s fs with hrun | ⟨e', he', hrun⟩
    · rw [hrun] at h ⊢
      exact hm _ _ _ _ h
    · rw [hrun] at h ⊢
      exact htrans _ _ _ (hm _ _ _ _ he') (ih h)

/-- **Attempts that return** do so with one attempt, on what failed attempts leave. -/
theorem retry_ok (hrefl : ∀ s, R s s) (htrans : ∀ s t u, R s t → R t u → R s u)
    (hm : ∀ k s fs e, (m k s fs).result = .error e → R s (m k s fs).store) {n : ℕ} :
    ∀ {s : σ} {fs : Schedule ε} {a : α}, (retry again m n s fs).result = .ok a →
      ∃ k t gs, R s t ∧ (m k t gs).result = .ok a ∧
        (m k t gs).store = (retry again m n s fs).store := by
  induction n with
  | zero => exact fun h => ⟨0, _, _, hrefl _, h, rfl⟩
  | succ n ih =>
    intro s fs a h
    rcases retry_succ again m n s fs with hrun | ⟨e', he', hrun⟩
    · rw [hrun] at h ⊢
      exact ⟨n + 1, s, fs, hrefl s, h, rfl⟩
    · rw [hrun] at h ⊢
      obtain ⟨k, t, gs, hst, hres, hstore⟩ := ih h
      exact ⟨k, t, gs, htrans _ _ _ (hm _ _ _ _ he') hst, hres, hstore⟩

/-- The first attempt that returns is the last. -/
theorem retry_of_ok {n : ℕ} {s : σ} {fs : Schedule ε} {o : Outcome σ ε α} {a : α}
    (h : m n s fs = o) (ho : o.result = .ok a) : retry again m n s fs = o := by
  cases n with
  | zero => exact h
  | succ n =>
    rcases retry_succ again m n s fs with hrun | ⟨e, he, -⟩
    · exact hrun.trans h
    · rw [h, ho] at he
      cases he

end Retry

end Transactions

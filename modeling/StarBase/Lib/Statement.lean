import Mathlib.Tactic.Common

/-!
# Programs that send statements to a server which may fail

A `Prog σ ε α` sends statements to a store `σ`, may raise an exception `ε`, and returns an `α`.
Every statement consumes one `Reply`: the server answers, refuses it without effect, or carries it
out while the answer is lost.  When the given replies run out the server is healthy.

* `query`, `exec` — one statement that reads, one that changes the store;
* `Ensures P m Q` — from a store in `P`, whatever the replies, `m` ends in `Q`; with one rule for
  each construct;
* `Within R m` — whatever the replies, the stores before and after `m` are related by `R`: the
  frame condition of `m`, with `ReadOnly m` the case of equality and `Keeps P m` that of an
  invariant;
* `Healthy n` — the next `n` statements are answered, so that a program can be run through.
-/

namespace Statements

/-- What the client sees of one statement. -/
inductive Reply
  | ok
  | failed
  | lost
  deriving DecidableEq, Repr

/-- An exception type that has a value for a statement that failed. -/
class StatementError (ε : Type) where
  statementFailed : ε

/-- What a program leaves: its result, the store and the replies it did not use. -/
structure Done (σ ε α : Type) where
  result : Except ε α
  store : σ
  replies : List Reply

/-- A program over the store `σ`. -/
def Prog (σ ε α : Type) := σ → List Reply → Done σ ε α

variable {σ ε α β : Type}

/-- Carry on with `f` after a result, stop at an exception. -/
def Done.andThen (d : Done σ ε α) (f : α → Prog σ ε β) : Done σ ε β :=
  match d.result with
  | .ok a => f a d.store d.replies
  | .error e => ⟨.error e, d.store, d.replies⟩

/-- Carry on with `handler` after an exception; the store keeps what was done before it. -/
def Done.rescue (d : Done σ ε α) (handler : ε → Prog σ ε α) : Done σ ε α :=
  match d.result with
  | .ok _ => d
  | .error e => handler e d.store d.replies

instance : Monad (Prog σ ε) where
  pure a := fun s rs => ⟨.ok a, s, rs⟩
  bind m f := fun s rs => (m s rs).andThen f

instance : MonadExceptOf ε (Prog σ ε) where
  throw e := fun s rs => ⟨.error e, s, rs⟩
  tryCatch m handler := fun s rs => (m s rs).rescue handler

/-- Reading and writing the store without a statement. -/
instance : MonadStateOf σ (Prog σ ε) where
  get := fun s rs => ⟨.ok s, s, rs⟩
  set t := fun _ rs => ⟨.ok (), t, rs⟩
  modifyGet f := fun s rs => ⟨.ok (f s).1, (f s).2, rs⟩

/-- The reply to the next statement, and the replies after it. -/
def nextReply : List Reply → Reply × List Reply
  | [] => (.ok, [])
  | r :: rs => (r, rs)

/-- A statement that reads the store. -/
def query [StatementError ε] (f : σ → α) : Prog σ ε α := fun s rs =>
  match nextReply rs with
  | (.ok, rest) => ⟨.ok (f s), s, rest⟩
  | (_, rest) => ⟨.error StatementError.statementFailed, s, rest⟩

/-- A statement that changes the store, unless the server rejects it with an exception. -/
def exec [StatementError ε] (f : σ → Except ε σ) : Prog σ ε Unit := fun s rs =>
  match nextReply rs, f s with
  | (.ok, rest), .ok t => ⟨.ok (), t, rest⟩
  | (.ok, rest), .error e => ⟨.error e, s, rest⟩
  | (.failed, rest), _ => ⟨.error StatementError.statementFailed, s, rest⟩
  | (.lost, rest), .ok t => ⟨.error StatementError.statementFailed, t, rest⟩
  | (.lost, rest), .error _ => ⟨.error StatementError.statementFailed, s, rest⟩

/-! ### Running the constructs -/

section Apply

variable (s : σ) (rs : List Reply)

@[simp] theorem pure_apply (a : α) : (pure a : Prog σ ε α) s rs = ⟨.ok a, s, rs⟩ := rfl

@[simp] theorem throw_apply (e : ε) : (throw e : Prog σ ε α) s rs = ⟨.error e, s, rs⟩ := rfl

@[simp] theorem get_apply : (get : Prog σ ε σ) s rs = ⟨.ok s, s, rs⟩ := rfl

@[simp] theorem modifyGet_apply (f : σ → α × σ) :
    (modifyGet f : Prog σ ε α) s rs = ⟨.ok (f s).1, (f s).2, rs⟩ := rfl

theorem bind_apply (m : Prog σ ε α) (f : α → Prog σ ε β) :
    (m >>= f) s rs = (m s rs).andThen f := rfl

theorem tryCatch_apply (m : Prog σ ε α) (handler : ε → Prog σ ε α) :
    (tryCatch m handler : Prog σ ε α) s rs = (m s rs).rescue handler := rfl

@[simp] theorem rescue_ok (a : α) (handler : ε → Prog σ ε α) :
    (Done.mk (.ok a) s rs : Done σ ε α).rescue handler = ⟨.ok a, s, rs⟩ := rfl

@[simp] theorem rescue_error (e : ε) (handler : ε → Prog σ ε α) :
    (Done.mk (.error e) s rs : Done σ ε α).rescue handler = handler e s rs := rfl

@[simp] theorem andThen_ok (a : α) (f : α → Prog σ ε β) :
    (Done.mk (.ok a) s rs : Done σ ε α).andThen f = f a s rs := rfl

@[simp] theorem andThen_error (e : ε) (f : α → Prog σ ε β) :
    (Done.mk (.error e) s rs : Done σ ε α).andThen f = ⟨.error e, s, rs⟩ := rfl

instance : LawfulMonad (Prog σ ε) :=
  LawfulMonad.mk' (Prog σ ε)
    (by
      intro α x
      funext s rs
      show (x s rs).andThen _ = x s rs
      rcases x s rs with ⟨_ | _, _, _⟩ <;> rfl)
    (by
      intro α β a f
      rfl)
    (by
      intro α β γ x f g
      funext s rs
      show ((x s rs).andThen f).andThen g = (x s rs).andThen fun a => f a >>= g
      rcases x s rs with ⟨_ | _, _, _⟩ <;> rfl)

@[simp] theorem query_store [StatementError ε] (f : σ → α) :
    (query f : Prog σ ε α) s rs = ⟨((query f : Prog σ ε α) s rs).result, s, (nextReply rs).2⟩ := by
  unfold query
  rcases nextReply rs with ⟨_ | _ | _, rest⟩ <;> rfl

theorem exec_healthy_ok [StatementError ε] {f : σ → Except ε σ} {t : σ} (h : f s = .ok t) :
    exec f s [] = ⟨.ok (), t, []⟩ := by
  simp [exec, nextReply, h]

theorem exec_healthy_error [StatementError ε] {f : σ → Except ε σ} {e : ε} (h : f s = .error e) :
    exec f s [] = ⟨.error e, s, []⟩ := by
  simp [exec, nextReply, h]

end Apply

/-! ### Pre- and postconditions -/

/-- From a store in `P`, whatever the replies, `m` ends with its result and store in `Q`. -/
def Ensures (P : σ → Prop) (m : Prog σ ε α) (Q : Except ε α → σ → Prop) : Prop :=
  ∀ s rs, P s → Q (m s rs).result (m s rs).store

theorem ensures_mono {P P' : σ → Prop} {Q Q' : Except ε α → σ → Prop} {m : Prog σ ε α}
    (h : Ensures P m Q) (hP : ∀ s, P' s → P s) (hQ : ∀ r s, Q r s → Q' r s) :
    Ensures P' m Q' :=
  fun s rs hs => hQ _ _ (h s rs (hP s hs))

theorem ensures_pure {P : σ → Prop} {Q : Except ε α → σ → Prop} {a : α}
    (h : ∀ s, P s → Q (.ok a) s) : Ensures P (pure a : Prog σ ε α) Q :=
  fun s _ hs => h s hs

/-- The sequencing rule: the intermediate condition `M` must give the next program's
precondition after a result and the postcondition after an exception. -/
theorem ensures_bind {P : σ → Prop} {M : Except ε α → σ → Prop} {Q : Except ε β → σ → Prop}
    {m : Prog σ ε α} {f : α → Prog σ ε β} (hm : Ensures P m M)
    (hf : ∀ a, Ensures (M (.ok a)) (f a) Q) (he : ∀ e s, M (.error e) s → Q (.error e) s) :
    Ensures P (m >>= f) Q := by
  intro s rs hs
  have hM := hm s rs hs
  rw [bind_apply, Done.andThen]
  cases hr : (m s rs).result with
  | ok a =>
    rw [hr] at hM
    exact hf a _ _ hM
  | error e =>
    rw [hr] at hM
    exact he e _ hM

theorem ensures_tryCatch {P : σ → Prop} {M Q : Except ε α → σ → Prop}
    {m : Prog σ ε α} {handler : ε → Prog σ ε α} (hm : Ensures P m M)
    (hok : ∀ a s, M (.ok a) s → Q (.ok a) s)
    (hh : ∀ e, Ensures (M (.error e)) (handler e) Q) :
    Ensures P (tryCatch m handler) Q := by
  intro s rs hs
  have hM := hm s rs hs
  rw [tryCatch_apply, Done.rescue]
  cases hr : (m s rs).result with
  | ok a =>
    rw [hr] at hM
    simpa [hr] using hok a _ hM
  | error e =>
    rw [hr] at hM
    exact hh e _ _ hM

/-- A query keeps the store; what it returns is read from that store. -/
theorem ensures_query [StatementError ε] {P : σ → Prop} {Q : Except ε α → σ → Prop} {f : σ → α}
    (hok : ∀ s, P s → Q (.ok (f s)) s)
    (hfail : ∀ s, P s → Q (.error StatementError.statementFailed) s) :
    Ensures P (query f) Q := by
  intro s rs hs
  unfold query
  rcases nextReply rs with ⟨_ | _ | _, rest⟩
  · exact hok s hs
  · exact hfail s hs
  · exact hfail s hs

/-- A changing statement ends in the old store or in the one it was to write. -/
theorem ensures_exec [StatementError ε] {P : σ → Prop} {Q : Except ε Unit → σ → Prop}
    {f : σ → Except ε σ}
    (hold : ∀ s e, P s → Q (.error e) s)
    (hnew : ∀ s t r, P s → f s = .ok t → Q r t) :
    Ensures P (exec f) Q := by
  intro s rs hs
  unfold exec
  rcases nextReply rs with ⟨_ | _ | _, rest⟩ <;> cases hf : f s with
  | ok t => first | exact hnew s t _ hs hf | exact hold s _ hs
  | error e => exact hold s _ hs

theorem ensures_ite {P : σ → Prop} {Q : Except ε α → σ → Prop} {c : Prop} [Decidable c]
    {m n : Prog σ ε α} (hm : c → Ensures P m Q) (hn : ¬ c → Ensures P n Q) :
    Ensures P (if c then m else n) Q := by
  split
  · next h => exact hm h
  · next h => exact hn h

/-! ### Frame conditions -/

/-- Whatever the replies, `m` takes every store to one related to it by `R`. -/
def Within (R : σ → σ → Prop) (m : Prog σ ε α) : Prop :=
  ∀ s rs, R s (m s rs).store

/-- Whatever the replies, `m` leaves the store as it found it. -/
def ReadOnly (m : Prog σ ε α) : Prop := Within (fun s t => t = s) m

section Within

variable {R : σ → σ → Prop}

theorem within_pure (hr : ∀ s, R s s) (a : α) : Within R (pure a : Prog σ ε α) :=
  fun s _ => hr s

theorem within_throw (hr : ∀ s, R s s) (e : ε) : Within R (throw e : Prog σ ε α) :=
  fun s _ => hr s

theorem within_bind (ht : ∀ s t u, R s t → R t u → R s u) {m : Prog σ ε α}
    {f : α → Prog σ ε β} (hm : Within R m) (hf : ∀ a, Within R (f a)) : Within R (m >>= f) := by
  intro s rs
  rw [bind_apply, Done.andThen]
  cases (m s rs).result with
  | ok a => exact ht _ _ _ (hm s rs) (hf a _ _)
  | error e => exact hm s rs

theorem within_tryCatch (ht : ∀ s t u, R s t → R t u → R s u) {m : Prog σ ε α}
    {handler : ε → Prog σ ε α} (hm : Within R m) (hh : ∀ e, Within R (handler e)) :
    Within R (tryCatch m handler) := by
  intro s rs
  rw [tryCatch_apply, Done.rescue]
  cases (m s rs).result with
  | ok a => exact hm s rs
  | error e => exact ht _ _ _ (hm s rs) (hh e _ _)

theorem within_query [StatementError ε] (hr : ∀ s, R s s) (f : σ → α) :
    Within R (query f : Prog σ ε α) := by
  intro s rs
  rw [query_store]
  exact hr s

theorem ReadOnly.within {m : Prog σ ε α} (hr : ∀ s, R s s) (h : ReadOnly m) : Within R m := by
  intro s rs
  rw [show (m s rs).store = s from h s rs]
  exact hr s

/-- Before it, a program that only reads needs nothing of the relation. -/
theorem within_bind_readOnly (hr : ∀ s, R s s) {m : Prog σ ε α} {f : α → Prog σ ε β}
    (hm : ReadOnly m) (hf : ∀ a, Within R (f a)) : Within R (m >>= f) := by
  intro s rs
  have hstore : (m s rs).store = s := hm s rs
  rw [bind_apply, Done.andThen]
  cases (m s rs).result with
  | ok a =>
    have hrun := hf a (m s rs).store (m s rs).replies
    rwa [hstore] at hrun ⊢
  | error e =>
    show R s (m s rs).store
    rw [hstore]
    exact hr s

/-- Nor does a handler that only reads. -/
theorem within_tryCatch_readOnly {m : Prog σ ε α} {handler : ε → Prog σ ε α} (hm : Within R m)
    (hh : ∀ e, ReadOnly (handler e)) : Within R (tryCatch m handler) := by
  intro s rs
  rw [tryCatch_apply, Done.rescue]
  cases (m s rs).result with
  | ok a => exact hm s rs
  | error e =>
    show R s (handler e (m s rs).store (m s rs).replies).store
    rw [show (handler e (m s rs).store (m s rs).replies).store = (m s rs).store from hh e _ _]
    exact hm s rs

theorem within_exec [StatementError ε] (hr : ∀ s, R s s) {f : σ → Except ε σ}
    (hf : ∀ s t, f s = .ok t → R s t) : Within R (exec f) :=
  fun s rs => ensures_exec (P := fun u => u = s) (Q := fun _ t => R s t)
    (fun _ _ hu => hu ▸ hr s) (fun _ t _ hu h => hf s t (hu ▸ h)) s rs rfl

end Within

/-! ### Invariants -/

/-- Whatever the replies, a store in `P` stays in `P`: the frame condition of an invariant. -/
def Keeps (P : σ → Prop) (m : Prog σ ε α) : Prop := Within (fun s t => P s → P t) m

section Keeps

variable {P : σ → Prop}

theorem keeps_pure (a : α) : Keeps P (pure a : Prog σ ε α) := within_pure (fun _ h => h) a

theorem keeps_bind {m : Prog σ ε α} {f : α → Prog σ ε β} (hm : Keeps P m)
    (hf : ∀ a, Keeps P (f a)) : Keeps P (m >>= f) :=
  within_bind (fun _ _ _ h₁ h₂ h => h₂ (h₁ h)) hm hf

theorem keeps_tryCatch {m : Prog σ ε α} {handler : ε → Prog σ ε α} (hm : Keeps P m)
    (hh : ∀ e, Keeps P (handler e)) : Keeps P (tryCatch m handler) :=
  within_tryCatch (fun _ _ _ h₁ h₂ h => h₂ (h₁ h)) hm hh

theorem Keeps.ensures {m : Prog σ ε α} (h : Keeps P m) : Ensures P m fun _ t => P t := h

theorem keeps_ite {c : Prop} [Decidable c] {m n : Prog σ ε α} (hm : c → Keeps P m)
    (hn : ¬ c → Keeps P n) : Keeps P (if c then m else n) := by
  split
  · next h => exact hm h
  · next h => exact hn h

theorem ReadOnly.keeps {m : Prog σ ε α} (h : ReadOnly m) : Keeps P m :=
  ReadOnly.within (fun _ h => h) h

/-- Sequencing with what the first program establishes beside the invariant. -/
theorem keeps_bind_ensures {Q : α → σ → Prop} {m : Prog σ ε α} {f : α → Prog σ ε β}
    (hm : Ensures P m fun r t => P t ∧ ∀ a, r = .ok a → Q a t)
    (hf : ∀ a, Ensures (fun s => P s ∧ Q a s) (f a) fun _ t => P t) : Keeps P (m >>= f) := by
  intro s rs hs
  refine ensures_bind (Q := fun _ t => P t) hm (fun a => ?_) (fun _ _ h => h.1) s rs hs
  exact ensures_mono (hf a) (fun t h => ⟨h.1, h.2 a rfl⟩) fun _ _ h => h

end Keeps

/-! ### Programs that only read -/

theorem readOnly_pure (a : α) : ReadOnly (pure a : Prog σ ε α) := fun _ _ => rfl

theorem readOnly_throw (e : ε) : ReadOnly (throw e : Prog σ ε α) := fun _ _ => rfl

theorem readOnly_get : ReadOnly (get : Prog σ ε σ) := fun _ _ => rfl

theorem readOnly_query [StatementError ε] (f : σ → α) : ReadOnly (query f : Prog σ ε α) :=
  within_query (R := fun s t => t = s) (fun _ => rfl) f

theorem readOnly_bind {m : Prog σ ε α} {f : α → Prog σ ε β} (hm : ReadOnly m)
    (hf : ∀ a, ReadOnly (f a)) : ReadOnly (m >>= f) :=
  within_bind (fun _ _ _ h₁ h₂ => h₂.trans h₁) hm hf

theorem readOnly_tryCatch {m : Prog σ ε α} {handler : ε → Prog σ ε α} (hm : ReadOnly m)
    (hh : ∀ e, ReadOnly (handler e)) : ReadOnly (tryCatch m handler) :=
  within_tryCatch (fun _ _ _ h₁ h₂ => h₂.trans h₁) hm hh

/-- One program for each member of a list. -/
theorem readOnly_mapM {f : α → Prog σ ε β} (h : ∀ a, ReadOnly (f a)) (as : List α) :
    ReadOnly (as.mapM f) := by
  induction as with
  | nil => exact readOnly_pure _
  | cons a as ih =>
    rw [List.mapM_cons]
    exact readOnly_bind (h a) fun _ => readOnly_bind ih fun _ => readOnly_pure _

/-- A program that only reads keeps every precondition. -/
theorem ReadOnly.ensures {m : Prog σ ε α} (h : ReadOnly m) (P : σ → Prop) :
    Ensures P m fun _ t => P t := by
  intro s rs hs
  have ht : (m s rs).store = s := h s rs
  rw [ht]
  exact hs

/-- Sequencing after a program that only reads. -/
theorem ensures_bind_readOnly {P Q : σ → Prop} {m : Prog σ ε α} {f : α → Prog σ ε β}
    (hm : ReadOnly m) (hf : ∀ a, Ensures P (f a) fun _ s => Q s) (hQ : ∀ s, P s → Q s) :
    Ensures P (m >>= f) fun _ s => Q s :=
  ensures_bind (hm.ensures P) hf fun _ s hs => hQ s hs

/-- Sequencing after a query, in a store that is known: what it returns is known too. -/
theorem ensures_bind_query [StatementError ε] {s₀ : σ} {Q : σ → Prop} {f : σ → α}
    {k : α → Prog σ ε β} (hQ : Q s₀) (hk : Ensures (fun s => s = s₀) (k (f s₀)) fun _ s => Q s) :
    Ensures (fun s => s = s₀) (query f >>= k) fun _ s => Q s := by
  intro s rs hs
  subst hs
  rw [bind_apply]
  unfold query
  rcases nextReply rs with ⟨_ | _ | _, rest⟩
  · exact hk s rest rfl
  · exact hQ
  · exact hQ

/-! ### Healthy stretches -/

/-- The next `n` statements are answered. -/
def Healthy (n : ℕ) (rs : List Reply) : Prop := ∀ r ∈ rs.take n, r = .ok

theorem Healthy.next {n : ℕ} {rs : List Reply} (h : Healthy (n + 1) rs) :
    nextReply rs = (.ok, rs.tail) ∧ Healthy n rs.tail := by
  cases rs with
  | nil => exact ⟨rfl, by simp [Healthy]⟩
  | cons r rest =>
    have hr : r = .ok := h r (by simp)
    subst hr
    exact ⟨rfl, fun x hx => h x (List.mem_cons_of_mem _ hx)⟩

theorem healthy_zero (rs : List Reply) : Healthy 0 rs := by
  intro r hr
  simp at hr

theorem Healthy.cons {n : ℕ} {rs : List Reply} (h : (nextReply rs).1 = .ok)
    (ht : Healthy n rs.tail) : Healthy (n + 1) rs := by
  cases rs with
  | nil => simp [Healthy]
  | cons r rest =>
    intro x hx
    rcases List.mem_cons.mp hx with hx | hx
    · exact hx.trans h
    · exact ht x hx

theorem healthy_add {m n : ℕ} {rs : List Reply} (h : Healthy m rs) (h' : Healthy n (rs.drop m)) :
    Healthy (m + n) rs := by
  intro r hr
  rw [List.take_add] at hr
  rcases List.mem_append.mp hr with hr | hr
  · exact h r hr
  · exact h' r hr

/-- A query that goes on has been answered; one that does not ends the program there. -/
theorem bind_query_induct [StatementError ε] {motive : Done σ ε β → Prop} {f : σ → α}
    {k : α → Prog σ ε β} {s : σ} {rs : List Reply}
    (hstop : ∀ rest, motive ⟨.error StatementError.statementFailed, s, rest⟩)
    (hgo : (nextReply rs).1 = .ok → motive (k (f s) s rs.tail)) : motive ((query f >>= k) s rs) := by
  cases rs with
  | nil => exact hgo rfl
  | cons r rest =>
    cases r with
    | ok => exact hgo rfl
    | failed => exact hstop rest
    | lost => exact hstop rest

theorem Healthy.drop {m n : ℕ} {rs : List Reply} (h : Healthy (m + n) rs) :
    Healthy m rs ∧ Healthy n (rs.drop m) := by
  constructor
  · intro r hr
    refine h r ?_
    rw [List.take_add]
    exact List.mem_append_left _ hr
  · intro r hr
    refine h r ?_
    rw [List.take_add]
    exact List.mem_append_right _ hr

/-- A changing statement that is refused changes nothing. -/
theorem exec_store_of_failed [StatementError ε] {f : σ → Except ε σ} {s : σ} {rs : List Reply}
    (hr : (nextReply rs).1 = .failed) : (exec f s rs).store = s := by
  unfold exec
  cases hn : nextReply rs with
  | mk r rest =>
    rw [hn] at hr
    cases hr
    rfl

/-- A changing statement that reaches the server is carried out. -/
theorem exec_store_of_reply [StatementError ε] {f : σ → Except ε σ} {s t : σ} {rs : List Reply}
    (hr : (nextReply rs).1 ≠ .failed) (h : f s = .ok t) : (exec f s rs).store = t := by
  unfold exec
  rw [h]
  cases hn : nextReply rs with
  | mk r rest =>
    rw [hn] at hr
    cases r with
    | ok => rfl
    | failed => exact absurd rfl hr
    | lost => rfl

theorem query_of_healthy [StatementError ε] {n : ℕ} {rs : List Reply} (h : Healthy (n + 1) rs)
    (f : σ → α) (s : σ) : (query f : Prog σ ε α) s rs = ⟨.ok (f s), s, rs.tail⟩ := by
  simp [query, h.next.1]

/-- Computing with what a program returned leaves the store it left. -/
@[simp] theorem bind_pure_store (m : Prog σ ε α) (g : α → β) (s : σ) (rs : List Reply) :
    ((m >>= fun a => pure (g a)) s rs).store = (m s rs).store := by
  rw [bind_apply, Done.andThen]
  rcases m s rs with ⟨_ | _, _, _⟩ <;> rfl

/-- Where a program stands that begins with a query. -/
theorem bind_query_store [StatementError ε] {f : σ → α} {k : α → Prog σ ε β} (s : σ)
    (rs : List Reply) : ((query f >>= k) s rs).store
      = if (nextReply rs).1 = .ok then (k (f s) s rs.tail).store else s := by
  rw [bind_apply, query]
  rcases rs with _ | ⟨_ | _ | _, rs⟩ <;> rfl

/-- Where a program stands that begins with a changing statement which the server accepts. -/
theorem bind_exec_store [StatementError ε] {f : σ → Except ε σ} {k : Unit → Prog σ ε β} {s t : σ}
    (h : f s = .ok t) (rs : List Reply) : ((exec f >>= k) s rs).store
      = match (nextReply rs).1 with
        | .ok => (k () t rs.tail).store
        | .failed => s
        | .lost => t := by
  rw [bind_apply, exec]
  rcases rs with _ | ⟨_ | _ | _, rs⟩ <;> simp only [nextReply, h] <;> rfl

/-! ### Runs that end in a result -/

section Results

variable {s t : σ} {rs rs' : List Reply}

theorem nextReply_eq (rs : List Reply) : nextReply rs = ((nextReply rs).1, rs.tail) := by
  cases rs <;> rfl

/-- The next `n + 1` statements are answered: the next one is, and the `n` after it. -/
theorem healthy_succ_iff {n : ℕ} : Healthy (n + 1) rs ↔ (nextReply rs).1 = .ok ∧ Healthy n rs.tail := by
  constructor
  · intro h
    exact ⟨by rw [h.next.1], h.next.2⟩
  · intro h
    exact Healthy.cons h.1 h.2

theorem healthy_one_iff : Healthy 1 rs ↔ (nextReply rs).1 = .ok :=
  healthy_succ_iff.trans (and_iff_left (healthy_zero _))

theorem healthy_add_iff (m n : ℕ) : Healthy (m + n) rs ↔ Healthy m rs ∧ Healthy n (rs.drop m) :=
  ⟨Healthy.drop, fun h => healthy_add h.1 h.2⟩

theorem pure_eq_ok_iff {a b : α} :
    (pure a : Prog σ ε α) s rs = ⟨.ok b, t, rs'⟩ ↔ a = b ∧ s = t ∧ rs = rs' := by
  simp [pure_apply]

theorem bind_eq_ok_iff {m : Prog σ ε α} {f : α → Prog σ ε β} {b : β} :
    (m >>= f) s rs = ⟨.ok b, t, rs'⟩ ↔
      ∃ a u rs₁, m s rs = ⟨.ok a, u, rs₁⟩ ∧ f a u rs₁ = ⟨.ok b, t, rs'⟩ := by
  rw [bind_apply, Done.andThen]
  rcases m s rs with ⟨e | a, u, rs₁⟩
  · simp
  · constructor
    · intro h
      exact ⟨a, u, rs₁, rfl, h⟩
    · intro h
      obtain ⟨_, _, _, he, h⟩ := h
      cases he
      exact h

theorem query_eq_ok_iff [StatementError ε] {f : σ → α} {a : α} :
    (query f : Prog σ ε α) s rs = ⟨.ok a, t, rs'⟩ ↔
      (nextReply rs).1 = .ok ∧ f s = a ∧ s = t ∧ rs.tail = rs' := by
  unfold query
  rw [nextReply_eq]
  cases (nextReply rs).1 <;> simp

theorem exec_eq_ok_iff [StatementError ε] {f : σ → Except ε σ} {u : Unit} :
    exec f s rs = ⟨.ok u, t, rs'⟩ ↔ (nextReply rs).1 = .ok ∧ f s = .ok t ∧ rs.tail = rs' := by
  unfold exec
  rw [nextReply_eq]
  cases (nextReply rs).1 <;> cases f s <;> simp

end Results

end Statements

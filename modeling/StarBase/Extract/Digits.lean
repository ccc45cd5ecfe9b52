import Mathlib.Data.List.TakeWhile
import Mathlib.Tactic.Ring
import StarBase.Extract.Resolver

/-!
# Digits

The decimal text of a natural number, and what the readers make of a run of digits.

* `digitsValue_natText`, `digitsValue_point` — **PROVED**: digits denote the number they are printed
  from;
* `scanInteger_digits` — **PROVED**: `strtol` reads a run of digits to its end.
-/

namespace StarBase.Extract

theorem hexValue_digit {c : Char} (h : c.isDigit = true) :
    (hexValue c).getD 0 = c.toNat - '0'.toNat := by
  unfold hexValue
  rw [if_pos h]
  rfl

theorem digitsValue_eq {s : Str} (h : ∀ c ∈ s, c.isDigit = true) :
    digitsValue 10 s = Nat.ofDigitChars 10 s 0 := by
  have hfold : ∀ init, s.foldl (fun n c => n * 10 + (hexValue c).getD 0) init =
      Nat.ofDigitChars 10 s init := by
    induction s with
    | nil => exact fun _ => rfl
    | cons c cs ih =>
      intro init
      show cs.foldl _ (init * 10 + (hexValue c).getD 0) = _
      rw [hexValue_digit (h c List.mem_cons_self), Nat.ofDigitChars_cons, Nat.mul_comm]
      exact ih (fun d hd => h d (List.mem_cons_of_mem _ hd)) _
  exact hfold 0

theorem digitsValue_natText (n : ℕ) : digitsValue 10 (natText n) = n := by
  rw [digitsValue_eq fun _ => isDigit_natText, natText_eq]
  exact Nat.ofDigitChars_toDigits (by decide) (by decide)

theorem isDigit_padLeft {n k : ℕ} {c : Char} (h : c ∈ padLeft k (natText n)) : c.isDigit = true := by
  rcases List.mem_append.mp h with h | h
  · rw [List.eq_of_mem_replicate h]
    rfl
  · exact isDigit_natText h

theorem length_padLeft {n k : ℕ} (hk : 0 < k) (h : n < 10 ^ k) :
    (padLeft k (natText n)).length = k := by
  have hlen : (natText n).length ≤ k := by
    rw [natText_eq]
    exact (Nat.length_toDigits_le_iff (by decide) hk).mpr h
  unfold padLeft
  rw [List.length_append, List.length_replicate]
  omega

theorem digitsValue_append {s t : Str} (hs : ∀ c ∈ s, c.isDigit = true)
    (ht : ∀ c ∈ t, c.isDigit = true) :
    digitsValue 10 (s ++ t) = digitsValue 10 s * 10 ^ t.length + digitsValue 10 t := by
  have hst : ∀ c ∈ s ++ t, c.isDigit = true :=
    fun c hc => (List.mem_append.mp hc).elim (hs c) (ht c)
  rw [digitsValue_eq hst, Nat.ofDigitChars_append, Nat.ofDigitChars_eq_ofDigitChars_zero,
    ← digitsValue_eq hs, ← digitsValue_eq ht, Nat.mul_comm]

theorem digitsValue_lt {s : Str} (hs : ∀ c ∈ s, c.isDigit = true) : digitsValue 10 s < 10 ^ s.length := by
  induction s using List.reverseRecOn with
  | nil => exact Nat.zero_lt_one
  | append_singleton s c ih =>
    have hc : c.isDigit = true := hs c (List.mem_append_right _ List.mem_cons_self)
    have hs' : ∀ d ∈ s, d.isDigit = true := fun d hd => hs d (List.mem_append_left _ hd)
    have hlast : digitsValue 10 [c] < 10 := by
      show 0 * 10 + (hexValue c).getD 0 < 10
      rw [hexValue_digit hc]
      simp only [Char.isDigit, Bool.and_eq_true, decide_eq_true_eq] at hc
      have hle : c.toNat ≤ '9'.toNat := hc.2
      have h9 : '9'.toNat = 57 := rfl
      have h0 : '0'.toNat = 48 := rfl
      omega
    have hrest := ih hs'
    rw [digitsValue_append hs' (List.forall_mem_singleton.mpr hc), List.length_append,
      List.length_singleton, pow_one, pow_succ]
    omega

theorem digitsValue_padLeft (k n : ℕ) : digitsValue 10 (padLeft k (natText n)) = n := by
  rw [digitsValue_eq fun c => isDigit_padLeft]
  unfold padLeft
  rw [Nat.ofDigitChars_append, Nat.ofDigitChars_replicate_zero, Nat.mul_zero,
    ← digitsValue_eq fun _ => isDigit_natText, digitsValue_natText]

theorem digitsValue_point {a b k : ℕ} (hk : 0 < k) (h : b < 10 ^ k) :
    digitsValue 10 (natText a ++ padLeft k (natText b)) = a * 10 ^ k + b := by
  rw [digitsValue_append (fun _ => isDigit_natText) (fun _ => isDigit_padLeft), digitsValue_natText,
    digitsValue_padLeft, length_padLeft hk h]

theorem padLeft_natText_ne_nil (k n : ℕ) : padLeft k (natText n) ≠ [] :=
  List.append_ne_nil_of_right_ne_nil _ (natText_ne_nil n)

/-- A run of digits ends where something else follows. -/
theorem span_digits {s t : Str} (hs : ∀ c ∈ s, c.isDigit = true) (ht : ∀ c ∈ t.head?, c.isDigit = false) :
    (s ++ t).takeWhile Char.isDigit = s ∧ (s ++ t).dropWhile Char.isDigit = t :=
  ⟨takeWhile_append_stop hs ht, dropWhile_append_stop hs ht⟩

/-- `strtol` reads a run of digits and leaves what follows. -/
theorem scanInteger_digits {s t : Str} (hs : ∀ c ∈ s, c.isDigit = true) (hne : s ≠ [])
    (ht : ∀ c ∈ t.head?, c.isDigit = false) : scanInteger (s ++ t) = some ((digitsValue 10 s : Int), t) := by
  obtain ⟨hwhole, hrest⟩ := span_digits hs ht
  obtain ⟨c, cs, rfl⟩ := List.exists_cons_of_ne_nil hne
  obtain ⟨hspace, hminus, hplus, -⟩ := digitOrPoint (Or.inl (hs c List.mem_cons_self))
  unfold scanInteger
  rw [List.cons_append, List.dropWhile_cons_of_neg (by simp [hspace])]
  rw [List.cons_append] at hwhole hrest
  simp [hminus, hplus, hwhole, hrest]

/-- Behind a minus sign the number is negative. -/
theorem scanInteger_minus {s t : Str} (hs : ∀ c ∈ s, c.isDigit = true) (hne : s ≠ [])
    (ht : ∀ c ∈ t.head?, c.isDigit = false) :
    scanInteger ('-' :: (s ++ t)) = some (-(digitsValue 10 s : Int), t) := by
  obtain ⟨hwhole, hrest⟩ := span_digits hs ht
  unfold scanInteger
  rw [List.dropWhile_cons_of_neg (by decide)]
  show (if (s ++ t).takeWhile Char.isDigit = [] then none
    else some (-(digitsValue 10 ((s ++ t).takeWhile Char.isDigit) : Int),
      (s ++ t).dropWhile Char.isDigit)) = _
  rw [hwhole, hrest, if_neg hne]

/-- A printed number is read back. -/
theorem scanInteger_padInt {k : ℕ} {i : ℤ} {t : Str} (ht : ∀ c ∈ t.head?, c.isDigit = false) :
    scanInteger (padInt k i ++ t) = some (i, t) := by
  unfold padInt
  split
  · next hneg =>
    rw [List.cons_append, scanInteger_minus (fun c => isDigit_padLeft) (padLeft_natText_ne_nil _ _) ht,
      digitsValue_padLeft, Int.ofNat_natAbs_of_nonpos hneg.le, neg_neg]
  · next hpos =>
    rw [scanInteger_digits (fun c => isDigit_padLeft) (padLeft_natText_ne_nil _ _) ht,
      digitsValue_padLeft, Int.natAbs_of_nonneg (not_lt.mp hpos)]

theorem storedInt_eq_self {n : Int} (hlow : -(2 ^ 31) ≤ n) (hup : n < 2 ^ 31) : storedInt n = n := by
  unfold storedInt
  rw [min_eq_left (by omega), max_eq_right (by omega), toInt32_eq_self hlow hup]

/-- `%d` reads a printed number as an `int`. -/
theorem scanInt_padInt {k : ℕ} {i : ℤ} {t : Str} (ht : ∀ c ∈ t.head?, c.isDigit = false) :
    scanInt (padInt k i ++ t) = some (storedInt i, t) := by
  unfold scanInt
  rw [scanInteger_padInt ht]
  rfl

theorem scanInteger_natText (n : ℕ) : scanInteger (natText n) = some ((n : Int), []) := by
  have h := scanInteger_digits (t := []) (fun c hc => isDigit_natText hc) (natText_ne_nil n) nofun
  rwa [List.append_nil, digitsValue_natText] at h

end StarBase.Extract

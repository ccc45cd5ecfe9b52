import StarBase.Lib.Rounding
import StarBase.Text

/-!
# Reading numbers

`std::stod` and its users on byte strings, on x86-64 with the GNU libraries.  `scanDouble` reads the
exact value of a text; `stod` checks its range and rounds it to a double.

* `Dbl`, `Dbl.round` — a double by its exact value, and the double of a result;
* `inRange` — the values for which `strtod` reports no range error: overflow does, and underflow
  unless the value is exactly a subnormal double;
* `stod`, `toDouble`, `toIntRound` — the readers of the resolver.

The arithmetic is a parameter of the first two: `Dbl.round` is that of the machine, `Dbl.fin` is
exact.  The sign of a zero is lost.
-/

namespace StarBase.Extract

open Rounding

/-! ### Doubles -/

/-- A floating-point value with exact finite values. -/
inductive Dbl
  | fin (q : ℚ)
  | inf (neg : Bool)
  | nan
  deriving DecidableEq

namespace Dbl

def neg : Dbl → Dbl
  | .fin q => .fin (-q)
  | .inf b => .inf (!b)
  | .nan => .nan

/-- The double of a result: the nearest one, or an infinity from `2 ^ 1024` on. -/
def round (q : ℚ) : Dbl := if |binary64 q| < 2 ^ 1024 then .fin (binary64 q) else .inf (decide (q < 0))

/-- The sum, its exact value given to `arith`. -/
def add (arith : ℚ → Dbl) : Dbl → Dbl → Dbl
  | .fin a, .fin b => arith (a + b)
  | .inf s, .inf t => if s = t then .inf s else .nan
  | .inf s, .fin _ => .inf s
  | .fin _, .inf t => .inf t
  | _, _ => .nan

/-- The product with a number other than zero, or the quotient by its inverse. -/
def scale (arith : ℚ → Dbl) (k : ℚ) : Dbl → Dbl
  | .fin a => arith (a * k)
  | .inf s => .inf (xor s (decide (k < 0)))
  | .nan => .nan

end Dbl

/-! ### The scanner -/

def hexValue (c : Char) : Option ℕ :=
  if c.isDigit then some (c.toNat - '0'.toNat)
  else if 'a' ≤ c.toLower ∧ c.toLower ≤ 'f' then some (c.toLower.toNat - 'a'.toNat + 10)
  else none

def isHexDigit (c : Char) : Bool := (hexValue c).isSome

/-- The number a digit string denotes in a base. -/
def digitsValue (base : ℕ) (s : Str) : ℕ :=
  s.foldl (fun n c => n * base + (hexValue c).getD 0) 0

/-- An optional sign and digits; the rest is given back when there is no digit. -/
def scanExponent (marker : Char) (s : Str) : Int × Str :=
  match s with
  | c :: cs =>
    if c.toLower = marker then
      let signed := match cs with
        | '-' :: ds => (true, ds)
        | '+' :: ds => (false, ds)
        | ds => (false, ds)
      let digits := signed.2.takeWhile Char.isDigit
      if digits = [] then (0, s)
      else
        let n : Int := digitsValue 10 digits
        (if signed.1 then -n else n, signed.2.dropWhile Char.isDigit)
    else (0, s)
  | [] => (0, [])

/-- Digits with an optional point, scaled by an optional exponent of base `expBase`. -/
def scanDigits (base expBase : ℕ) (isDig : Char → Bool) (marker : Char) (s : Str) :
    Option (ℚ × Str) :=
  let whole := s.takeWhile isDig
  let afterWhole := s.dropWhile isDig
  let frac := match afterWhole with
    | '.' :: cs => cs.takeWhile isDig
    | _ => []
  if whole = [] ∧ frac = [] then none
  else
    let rest := match afterWhole with
      | '.' :: cs => cs.dropWhile isDig
      | cs => cs
    let e := scanExponent marker rest
    let mantissa : ℚ := (digitsValue base (whole ++ frac) : ℚ) / (base : ℚ) ^ frac.length
    some (mantissa * (expBase : ℚ) ^ e.1, e.2)

/-- The unsigned part of what `strtod` reads, with the rest of the string. -/
def scanUnsigned (s : Str) : Option (Dbl × Str) :=
  if "infinity".toList.isPrefixOf (lower s) then some (.inf false, s.drop 8)
  else if "inf".toList.isPrefixOf (lower s) then some (.inf false, s.drop 3)
  else if "nan".toList.isPrefixOf (lower s) then
    let tail := s.drop 3
    let inner := tail.tail.takeWhile fun c => c.isAlphanum || c = '_'
    if tail.head? = some '(' ∧ tail.tail[inner.length]? = some ')' then
      some (.nan, tail.drop (inner.length + 2))
    else some (.nan, tail)
  else
    let hex := if "0x".toList.isPrefixOf (lower s) then
        scanDigits 16 2 isHexDigit 'p' (s.drop 2)
      else none
    match hex with
    | some (q, rest) => some (.fin q, rest)
    | none => (scanDigits 10 10 Char.isDigit 'e' s).map fun qr => (.fin qr.1, qr.2)

/-- What `strtod` reads after leading blanks and a sign. -/
def scanDouble (s : Str) : Option (Dbl × Str) :=
  match s.dropWhile isSpaceChar with
  | '-' :: cs => (scanUnsigned cs).map fun dr => (dr.1.neg, dr.2)
  | '+' :: cs => scanUnsigned cs
  | cs => scanUnsigned cs

/-! ### `std::stod` -/

/-- Whether `strtod` reports no range error for a value.  What is below the normal doubles, rounded to
53 bits, has to be a multiple of the least double. -/
def inRange (q : ℚ) : Bool :=
  decide (|binary64 q| < 2 ^ 1024) &&
    (decide ((2 : ℚ) ^ (-1022 : Int) ≤ |roundDigits 2 53 q|) || (q / leastDouble).isInt)

/-- `std::stod` in an arithmetic, with the unread rest. -/
def stodIn (arith : ℚ → Dbl) (s : Str) : Except Thrown (Dbl × Str) :=
  match scanDouble s with
  | none => .error (.std "stod".toList)
  | some (.fin q, rest) =>
    if inRange q then .ok (arith q, rest) else .error (.std "stod".toList)
  | some (d, rest) => .ok (d, rest)

/-- `std::stod`. -/
def stod : Str → Except Thrown (Dbl × Str) := stodIn .round

/-- What is read in an arithmetic is written exactly, and read so in exact arithmetic. -/
theorem exists_scan_of_stodIn {arith : ℚ → Dbl} {s rest : Str} {d : Dbl}
    (h : stodIn arith s = .ok (d, rest)) :
    ∃ d', scanDouble s = some (d', rest) ∧ stodIn .fin s = .ok (d', rest) := by
  unfold stodIn at h ⊢
  cases hscan : scanDouble s with
  | none =>
    rw [hscan] at h
    cases h
  | some r =>
    obtain ⟨d', rest'⟩ := r
    rw [hscan] at h
    cases d' with
    | fin q =>
      dsimp only at h ⊢
      split at h
      · next hq =>
        cases h
        exact ⟨.fin q, rfl, if_pos hq⟩
      · cases h
    | inf b =>
      cases h
      exact ⟨.inf b, rfl, rfl⟩
    | nan =>
      cases h
      exact ⟨.nan, rfl, rfl⟩

/-- A digit or a point begins none of the words `strtod` knows, nor a sign or a blank. -/
theorem digitOrPoint {c : Char} (h : c.isDigit ∨ c = '.') :
    isSpaceChar c = false ∧ c ≠ '-' ∧ c ≠ '+' ∧ c.toLower ≠ 'i' ∧ c.toLower ≠ 'n' ∧
      c.toLower ≠ 'x' := by
  rcases h with h | rfl
  · rw [toLower_eq_self_of_isDigit h]
    have hne : ∀ d : Char, d.isDigit = false → c ≠ d := by
      rintro d hd rfl
      simp [h] at hd
    refine ⟨?_, hne _ rfl, hne _ rfl, hne _ rfl, hne _ rfl, hne _ rfl⟩
    simp only [isSpaceChar, hne ' ' rfl, hne '\t' rfl, hne '\n' rfl, hne '\x0b' rfl,
      hne '\x0c' rfl, hne '\r' rfl]
    rfl
  · decide

theorem isPrefixOf_lower_cons {w : Str} {a c : Char} {cs : Str} (h : c.toLower ≠ a) :
    (a :: w).isPrefixOf (lower (c :: cs)) = false := by
  show (a == c.toLower && _) = false
  rw [beq_eq_false_iff_ne.mpr h.symm, Bool.false_and]

/-- A text that begins no word and no hexadecimal number is a decimal number to `strtod`. -/
theorem scanUnsigned_plain {c : Char} {cs : Str} (hi : c.toLower ≠ 'i') (hn : c.toLower ≠ 'n')
    (hx : ∀ d ∈ cs.head?, d.toLower ≠ 'x') :
    scanUnsigned (c :: cs) =
      (scanDigits 10 10 Char.isDigit 'e' (c :: cs)).map fun qr => (.fin qr.1, qr.2) := by
  have hhex : "0x".toList.isPrefixOf (lower (c :: cs)) = false := by
    cases cs with
    | nil =>
      show ('0' == c.toLower && false) = false
      rw [Bool.and_false]
    | cons d ds =>
      show ('0' == c.toLower && ('x' == d.toLower && _)) = false
      rw [beq_eq_false_iff_ne.mpr (hx d rfl).symm, Bool.false_and, Bool.and_false]
  unfold scanUnsigned
  rw [if_neg (by rw [show "infinity".toList = 'i' :: "nfinity".toList from rfl,
      isPrefixOf_lower_cons hi]; decide),
    if_neg (by rw [show "inf".toList = 'i' :: "nf".toList from rfl,
      isPrefixOf_lower_cons hi]; decide),
    if_neg (by rw [show "nan".toList = 'n' :: "an".toList from rfl,
      isPrefixOf_lower_cons hn]; decide), hhex]
  rfl

/-- `strtod` reads a string of digits and points as a decimal number. -/
theorem scanDouble_of_digits {s : Str} (hs : ∀ c ∈ s, c.isDigit ∨ c = '.') :
    scanDouble s =
      (scanDigits 10 10 Char.isDigit 'e' s).map fun qr => (.fin qr.1, qr.2) := by
  cases s with
  | nil => rfl
  | cons c cs =>
    obtain ⟨hspace, hminus, hplus, hi, hn, -⟩ := digitOrPoint (hs c List.mem_cons_self)
    have hunsigned := scanUnsigned_plain hi hn fun d (hd : d ∈ cs.head?) =>
      (digitOrPoint (hs d (List.mem_cons_of_mem c (List.mem_of_mem_head? hd)))).2.2.2.2.2
    unfold scanDouble
    rw [List.dropWhile_cons_of_neg (by simp [hspace])]
    split
    · next he => exact absurd (List.cons.inj he).1 hminus
    · next he => exact absurd (List.cons.inj he).1 hplus
    · exact hunsigned

/-- `std::stod` on a string of digits and points. -/
theorem stodIn_of_digits (arith : ℚ → Dbl) {s : Str} (hs : ∀ c ∈ s, c.isDigit ∨ c = '.') :
    stodIn arith s = match scanDigits 10 10 Char.isDigit 'e' s with
      | none => .error (.std "stod".toList)
      | some (q, rest) => if inRange q then .ok (arith q, rest) else .error (.std "stod".toList) := by
  unfold stodIn
  rw [scanDouble_of_digits hs]
  cases scanDigits 10 10 Char.isDigit 'e' s with
  | none => rfl
  | some qr => rfl

/-- No number is read from a string that begins neither with a digit nor with a point and a
digit. -/
theorem scanDigits_eq_none_iff {base expBase : ℕ} {isDig : Char → Bool} {marker : Char} {s : Str} :
    scanDigits base expBase isDig marker s = none ↔
      s.takeWhile isDig = [] ∧ ∀ cs, s = '.' :: cs → cs.takeWhile isDig = [] := by
  unfold scanDigits
  dsimp only
  cases s with
  | nil => simp
  | cons c cs =>
    cases hc : isDig c with
    | true => simp [hc]
    | false =>
      by_cases hp : c = '.'
      · subst hp
        simp [hc]
      · simp [hc, hp]

/-! ### The users of `std::stod` -/

/-- A clean number; trailing characters other than blanks reject it. -/
def toDoubleIn (arith : ℚ → Dbl) (s : Str) : Option Dbl :=
  match stodIn arith s with
  | .ok (d, rest) => if rest.all isSpaceChar then some d else none
  | .error _ => none

/-- `to_double`. -/
def toDouble : Str → Option Dbl := toDoubleIn .round

/-- Which texts are numbers does not depend on the arithmetic. -/
theorem toDouble_isSome (arith : ℚ → Dbl) (s : Str) :
    (toDouble s).isSome = (toDoubleIn arith s).isSome := by
  unfold toDouble toDoubleIn stodIn
  cases scanDouble s with
  | none => rfl
  | some r =>
    obtain ⟨d, rest⟩ := r
    cases d with
    | fin q =>
      cases hq : inRange q with
      | true => cases hrest : rest.all isSpaceChar <;> simp [hq, hrest]
      | false => simp [hq]
    | inf b => rfl
    | nan => rfl

/-- Round half away from zero. -/
def roundHalfAway (q : ℚ) : Int := if q < 0 then -⌊-q + 1 / 2⌋ else ⌊q + 1 / 2⌋

theorem abs_roundHalfAway (q : ℚ) : |roundHalfAway q| = ⌊|q| + 1 / 2⌋ := by
  unfold roundHalfAway
  split
  · next h =>
    have hnn : 0 ≤ ⌊-q + 1 / 2⌋ := Int.floor_nonneg.mpr (by linarith)
    rw [abs_neg, abs_of_nonneg hnn, abs_of_neg h]
  · next h =>
    have hq : 0 ≤ q := not_lt.mp h
    have hnn : 0 ≤ ⌊q + 1 / 2⌋ := Int.floor_nonneg.mpr (by linarith)
    rw [abs_of_nonneg hnn, abs_of_nonneg hq]

/-- A rounded number is below an integer when the number is, by a half. -/
theorem abs_roundHalfAway_lt {q : ℚ} {n : Int} : |roundHalfAway q| < n ↔ |q| < n - 1 / 2 := by
  rw [abs_roundHalfAway, Int.floor_lt]
  constructor <;> intro h <;> linarith

/-- `std::lround`; what does not fit a `long` gives the least one. -/
def lround : Dbl → Int
  | .fin q =>
    let n := roundHalfAway q
    if -(2 ^ 63) ≤ n ∧ n < 2 ^ 63 then n else -(2 ^ 63)
  | _ => -(2 ^ 63)

/-- `static_cast<int>` of a `long`. -/
def toInt32 (n : Int) : Int := (n + 2 ^ 31) % 2 ^ 32 - 2 ^ 31

theorem toInt32_mem (n : Int) : -(2 ^ 31) ≤ toInt32 n ∧ toInt32 n < 2 ^ 31 := by
  unfold toInt32
  omega

/-- What fits an `int` is kept. -/
theorem toInt32_eq_self {n : Int} (hlow : -(2 ^ 31) ≤ n) (hup : n < 2 ^ 31) : toInt32 n = n := by
  unfold toInt32
  omega

def toIntRound (s : Str) : Option Int := (toDouble s).map fun d => toInt32 (lround d)

example : toIntRound "-2.5 ".toList = some (-3) := by decide +kernel

/-- The double next to the text rounds up. -/
example : toIntRound "127.49999999999999999999".toList = some 128 := by decide +kernel

/-- An exact subnormal double is no range error. -/
example : inRange (2 ^ (-1030 : Int)) = true ∧ inRange (2 ^ (-1030 : Int) / 3) = false := by decide +kernel

end StarBase.Extract

import Mathlib.Algebra.Group.Int.Defs
import Mathlib.Algebra.Group.Nat.Defs
import Mathlib.Data.List.TakeWhile
import Mathlib.Tactic.Common

/-!
# Byte strings, exceptions and JSON documents

The program's `std::string` is a sequence of bytes; here it is a list of characters, each standing
for one byte.  `Json` is the document type of the JSON library, with the accessors the routes use:

* `Json.contains`, `Json.at` — object lookup (`contains` is false on anything but an object);
* `Json.valueStr`, `Json.valueBool` — `value(key, default)`, which throws on a document that is
  not an object and on a member of another type;
* `Json.getStr`, `Json.getBool` — `get<T>()`, which throws on another type;
* `Json.longOfInt`, `Json.longOfFloat` — the conversions to `long long`, as on x86-64.

A floating-point document is finite: the parser rejects a number beyond the range of a double.
-/

namespace StarBase

/-- A byte string. -/
abbrev Str := List Char

/-! ### The C character classes and searches the source uses -/

/-- `isspace` in the C locale. -/
def isSpaceChar (c : Char) : Bool :=
  c = ' ' || c = '\t' || c = '\n' || c = '\x0b' || c = '\x0c' || c = '\r'

def lower (s : Str) : Str := s.map Char.toLower

def upper (s : Str) : Str := s.map Char.toUpper

/-- Strip the characters chosen by `p` from both ends. -/
def stripBoth (p : Char → Bool) (s : Str) : Str :=
  ((s.dropWhile p).reverse.dropWhile p).reverse

/-- Whether `sub` occurs in `s`. -/
def hasSubstring (sub : Str) : Str → Bool
  | [] => sub = []
  | c :: cs => sub.isPrefixOf (c :: cs) || hasSubstring sub cs

section Runs

variable {α : Type*} {p : α → Bool}

theorem takeWhile_append_stop {l r : List α} (hl : ∀ c ∈ l, p c = true)
    (hr : ∀ c ∈ r.head?, p c = false) : (l ++ r).takeWhile p = l := by
  rw [List.takeWhile_append_of_pos hl]
  cases r with
  | nil => simp
  | cons c r => simp [hr c rfl]

theorem dropWhile_append_stop {l r : List α} (hl : ∀ c ∈ l, p c = true)
    (hr : ∀ c ∈ r.head?, p c = false) : (l ++ r).dropWhile p = r := by
  rw [List.dropWhile_append_of_pos hl]
  cases r with
  | nil => rfl
  | cons c r => simp [hr c rfl]

/-- A list is a run, and what stands behind it. -/
theorem exists_run (p : α → Bool) (s : List α) : ∃ l r : List α, s = l ++ r ∧ (∀ c ∈ l, p c = true) ∧
    ∀ c ∈ r.head?, p c = false := by
  refine ⟨s.takeWhile p, s.dropWhile p, List.takeWhile_append_dropWhile.symm,
    fun c => List.mem_takeWhile_imp, fun c hc => ?_⟩
  have hfirst := List.head?_dropWhile_not p s
  rw [hc] at hfirst
  exact hfirst

end Runs

/-! ### Numbers as text -/

/-- The decimal text of a natural number. -/
def natText (n : ℕ) : Str := (toString n).toList

theorem natText_eq (n : ℕ) : natText n = Nat.toDigits 10 n := by
  unfold natText
  rw [Nat.toString_eq_ofList_toDigits, String.toList_ofList]

theorem isDigit_natText {n : ℕ} {c : Char} (h : c ∈ natText n) : c.isDigit = true := by
  rw [natText_eq] at h
  exact Nat.isDigit_of_mem_toDigits (by decide) (by decide) h

theorem natText_ne_nil (n : ℕ) : natText n ≠ [] := by
  rw [natText_eq]
  exact Nat.toDigits_ne_nil

theorem natText_inj {m n : ℕ} (h : natText m = natText n) : m = n := by
  rw [natText_eq, natText_eq] at h
  have hvalue := congrArg (fun s => Nat.ofDigitChars 10 s 0) h
  simpa only [Nat.ofDigitChars_toDigits (by decide : 1 < 10) (by decide : 10 ≤ 10)] using hvalue

/-! ### Letters -/

/-- Lowering a character leaves it alone or moves a capital letter by 32. -/
theorem toLower_cases (c : Char) :
    c.toLower = c ∨ (65 ≤ c.val ∧ c.val ≤ 90 ∧ c.toLower.val = c.val + 32) := by
  by_cases h : c.val ≥ 'A'.val ∧ c.val ≤ 'Z'.val
  · exact Or.inr ⟨h.1, h.2, congrArg Char.val (dif_pos h)⟩
  · exact Or.inl (dif_neg h)

theorem isDigit_toLower (c : Char) : c.toLower.isDigit = c.isDigit := by
  simp only [Char.isDigit]
  grind [toLower_cases, UInt32.toNat_add]

theorem toLower_eq_self_of_isDigit {c : Char} (h : c.isDigit) : c.toLower = c := by
  simp only [Char.isDigit] at h
  grind [toLower_cases]

theorem toLower_toLower (c : Char) : c.toLower.toLower = c.toLower := by
  grind [toLower_cases, UInt32.toNat_add]

theorem isSpaceChar_toLower (c : Char) : isSpaceChar c.toLower = isSpaceChar c := by
  simp only [isSpaceChar, Char.ext_iff]
  grind [toLower_cases, UInt32.toNat_add]

theorem lower_lower (s : Str) : lower (lower s) = lower s := by
  simp only [lower, List.map_map]
  exact List.map_congr_left fun c _ => toLower_toLower c

/-! ### Exceptions and JSON -/

/-- Exceptions a route's `try` block can end with: the JSON library's, and all others. -/
inductive Thrown
  | json (what : Str)
  | std (what : Str)
  deriving DecidableEq, Repr

/-- A JSON document; a floating-point number by its sign bit and its exact size. -/
inductive Json
  | null
  | bool (b : Bool)
  | int (i : Int)
  | float (neg : Bool) (num den : Nat)
  | str (s : Str)
  | arr (items : List Json)
  | obj (fields : List (Str × Json))

namespace Json

/-- The type name that the library puts in its messages. -/
def typeName : Json → Str
  | null => "null".toList
  | bool _ => "boolean".toList
  | int _ => "number".toList
  | float _ _ _ => "number".toList
  | str _ => "string".toList
  | arr _ => "array".toList
  | obj _ => "object".toList

/-- The member `key` of an object; nothing on any other document. -/
def at? : Json → Str → Option Json
  | obj fields, key => fields.lookup key
  | _, _ => none

def contains (j : Json) (key : Str) : Bool := (j.at? key).isSome

/-- The library's `type_error.302`. -/
def typeError (want : Str) (j : Json) : Thrown :=
  .json ("[json.exception.type_error.302] type must be ".toList ++ want ++ ", but is ".toList
    ++ j.typeName)

def getStr : Json → Except Thrown Str
  | str s => .ok s
  | j => .error (typeError "string".toList j)

def getBool : Json → Except Thrown Bool
  | bool b => .ok b
  | j => .error (typeError "boolean".toList j)

/-- `static_cast<long long>` of an integer, of which a `long long` keeps the low 64 bits. -/
def longOfInt (i : Int) : Int := i.bmod (2 ^ 64)

/-- `static_cast<long long>` of a floating-point number; what no `long long` holds gives the least
one. -/
def longOfFloat (neg : Bool) (num den : Nat) : Int :=
  let n : Int := if neg then -(num / den : Nat) else (num / den : Nat)
  if -(2 ^ 63) ≤ n ∧ n < 2 ^ 63 then n else -(2 ^ 63)

/-- `value(key, default)`, with `get` the conversion to the default's type. -/
def value {α : Type} (get : Json → Except Thrown α) (j : Json) (key : Str) (default : α) :
    Except Thrown α :=
  match j with
  | obj fields =>
    match fields.lookup key with
    | some v => get v
    | none => .ok default
  | _ => .error (.json ("[json.exception.type_error.306] cannot use value() with ".toList
      ++ j.typeName))

def valueStr : Json → Str → Str → Except Thrown Str := value getStr

def valueBool : Json → Str → Bool → Except Thrown Bool := value getBool

end Json

end StarBase

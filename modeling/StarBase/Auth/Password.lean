import Mathlib.Data.Vector.Basic
import Mathlib.Tactic.IntervalCases
import StarBase.Api.Sessions
import StarBase.Extract.Number

/-!
# Passwords

`hash_password` and `verify_password`. The salt and the hash are stored as hexadecimal texts; the key
derivation is a parameter.

* `toHex`, `fromHex` — the codec, with what `std::stoi` does on other texts;
* `Rendered` — the texts that spell a byte string, in either letter case;
* `verifyPassword_iff` — **PROVED**: the right password is accepted and no other;
* `verifyPassword_host` — **PROVED**: on the texts of the stored columns it answers as the routes of
  the sessions have it.
-/

namespace StarBase.Auth

open Extract Api

abbrev Bytes := List UInt8

/-! ### Hexadecimal -/

def kHex : Str := "0123456789abcdef".toList

def hexChar (n : UInt8) : Char := kHex.getD n.toNat '0'

def toHex : Bytes → Str
  | [] => []
  | b :: bs => hexChar (b >>> 4) :: hexChar (b &&& 0x0f) :: toHex bs

/-- Behind `0x`, if a digit follows. -/
def afterPrefix : Str → Str
  | '0' :: x :: d :: ds => if x.toLower = 'x' ∧ isHexDigit d = true then d :: ds else '0' :: x :: d :: ds
  | s => s

/-- What `strtol` reads in base 16 behind blanks and a sign. -/
def scanHex (s : Str) : Option ℕ :=
  let digits := (afterPrefix s).takeWhile isHexDigit
  if digits = [] then none else some (digitsValue 16 digits)

/-- `std::stoi(s, nullptr, 16)`, or one of its two exceptions. -/
def stoiHex (s : Str) : Option Int :=
  let signed : Option Int := match s.dropWhile isSpaceChar with
    | '-' :: cs => (scanHex cs).map fun n => -n
    | '+' :: cs => (scanHex cs).map fun n => n
    | cs => (scanHex cs).map fun n => n
  signed.filter fun n => -2 ^ 31 ≤ n ∧ n < 2 ^ 31

/-- The bytes of the pairs of characters; an exception leaves nothing. -/
def fromHexPairs : Str → Option Bytes
  | a :: b :: s => do
    let n ← stoiHex [a, b]
    let bs ← fromHexPairs s
    pure (UInt8.ofInt n :: bs)
  | _ => some []

def fromHex (s : Str) : Bytes := if s.length % 2 ≠ 0 then [] else (fromHexPairs s).getD []

/-- The texts that spell a byte string: two digits a byte, in either letter case. -/
inductive Rendered : Bytes → Str → Prop
  | nil : Rendered [] []
  | cons {high low : Char} {h l : ℕ} {bs : Bytes} {s : Str} (hhigh : hexValue high = some h)
      (hlow : hexValue low = some l) (rest : Rendered bs s) :
      Rendered (UInt8.ofNat (16 * h + l) :: bs) (high :: low :: s)

/-! ### The codec -/

theorem hexValue_lt {c : Char} {n : ℕ} (h : hexValue c = some n) : n < 16 := by
  unfold hexValue at h
  split at h
  · next hdigit =>
    cases h
    simp only [Char.isDigit, Bool.and_eq_true, decide_eq_true_eq] at hdigit
    have h9 : c.toNat ≤ 57 := hdigit.2
    have h0 : '0'.toNat = 48 := rfl
    omega
  · split at h
    · next hletter =>
      cases h
      have hf : c.toLower.toNat ≤ 102 := hletter.2
      have ha : 'a'.toNat = 97 := rfl
      omega
    · cases h

/-- A hexadecimal digit is no blank and no sign. -/
theorem hexValue_plain {c : Char} (h : (hexValue c).isSome = true) :
    isSpaceChar c = false ∧ c ≠ '-' ∧ c ≠ '+' := by
  have hne : ∀ d : Char, (hexValue d).isSome = false → c ≠ d := by
    rintro d hd rfl
    rw [h] at hd
    cases hd
  refine ⟨?_, hne '-' rfl, hne '+' rfl⟩
  simp only [isSpaceChar, hne ' ' rfl, hne '\t' rfl, hne '\n' rfl, hne '\x0b' rfl, hne '\x0c' rfl,
    hne '\r' rfl]
  rfl

/-- The digits are those of the two cases. -/
theorem mem_of_hexValue {c : Char} (h : (hexValue c).isSome = true) :
    c ∈ "0123456789abcdefABCDEF".toList := by
  have hrange : 48 ≤ c.toNat ∧ c.toNat ≤ 57 ∨ 97 ≤ c.toNat ∧ c.toNat ≤ 102 ∨
      65 ≤ c.toNat ∧ c.toNat ≤ 70 := by
    unfold hexValue at h
    split at h
    · next hdigit =>
      simp only [Char.isDigit, Bool.and_eq_true, decide_eq_true_eq] at hdigit
      exact .inl hdigit
    · split at h
      · next hletter =>
        have ha : 97 ≤ c.toLower.toNat := hletter.1
        have hf : c.toLower.toNat ≤ 102 := hletter.2
        rcases toLower_cases c with hsame | hcapital
        · rw [hsame] at ha hf
          exact .inr (.inl ⟨ha, hf⟩)
        · have h65 : 65 ≤ c.toNat := hcapital.1
          have h90 : c.toNat ≤ 90 := hcapital.2.1
          have hsum : c.toLower.toNat = (c.toNat + 32) % 2 ^ 32 := by
            rw [← Char.toNat_val, hcapital.2.2, UInt32.toNat_add]
            rfl
          exact .inr (.inr ⟨h65, by omega⟩)
      · cases h
  rw [← Char.ofNat_toNat c]
  rcases hrange with ⟨hlo, hhi⟩ | ⟨hlo, hhi⟩ | ⟨hlo, hhi⟩
  all_goals
    interval_cases c.toNat <;> decide

theorem hexValue_toUpper {c : Char} {n : ℕ} (h : hexValue c = some n) : hexValue c.toUpper = some n := by
  have hall : "0123456789abcdefABCDEF".toList.all (fun d => hexValue d.toUpper == hexValue d) = true := by
    rfl
  rw [beq_iff_eq.mp (List.all_eq_true.mp hall c (mem_of_hexValue (h ▸ rfl))), h]

theorem Rendered.upper {bs : Bytes} {s : Str} (h : Rendered bs s) : Rendered bs (upper s) := by
  induction h with
  | nil => exact .nil
  | cons hhigh hlow rest ih => exact .cons (hexValue_toUpper hhigh) (hexValue_toUpper hlow) ih

/-- Two characters are too few for a `0x` with a digit. -/
theorem scanHex_pair {a b : Char} {h l : ℕ} (ha : hexValue a = some h) (hb : hexValue b = some l) :
    scanHex [a, b] = some (16 * h + l) := by
  have hda : isHexDigit a = true := by
    unfold isHexDigit
    rw [ha]
    rfl
  have hdb : isHexDigit b = true := by
    unfold isHexDigit
    rw [hb]
    rfl
  have htake : [a, b].takeWhile isHexDigit = [a, b] := by
    rw [List.takeWhile_cons_of_pos hda, List.takeWhile_cons_of_pos hdb, List.takeWhile_nil]
  have hvalue : digitsValue 16 [a, b] = 16 * h + l := by
    show (0 * 16 + (hexValue a).getD 0) * 16 + (hexValue b).getD 0 = _
    rw [ha, hb]
    show (0 * 16 + h) * 16 + l = _
    omega
  have hbody : afterPrefix [a, b] = [a, b] := by
    unfold afterPrefix
    split
    · next heq => cases heq
    · rfl
  unfold scanHex
  rw [hbody, htake]
  dsimp only
  rw [if_neg (List.cons_ne_nil _ _), hvalue]

theorem stoiHex_pair {a b : Char} {h l : ℕ} (ha : hexValue a = some h) (hb : hexValue b = some l) :
    stoiHex [a, b] = some ((16 * h + l : ℕ) : Int) := by
  obtain ⟨hspace, hminus, hplus⟩ := hexValue_plain (c := a) (by rw [ha]; rfl)
  have hh := hexValue_lt ha
  have hl := hexValue_lt hb
  have hdrop : [a, b].dropWhile isSpaceChar = [a, b] :=
    List.dropWhile_cons_of_neg (by rw [hspace]; exact Bool.false_ne_true)
  unfold stoiHex
  rw [hdrop]
  split
  · next heq =>
    cases heq
    exact absurd rfl hminus
  · next heq =>
    cases heq
    exact absurd rfl hplus
  · rw [scanHex_pair ha hb]
    refine Option.filter_eq_some_iff.mpr ⟨rfl, decide_eq_true ⟨?_, ?_⟩⟩
    · omega
    · omega

theorem ofInt_natCast (n : ℕ) : UInt8.ofInt n = UInt8.ofNat n := by
  show UInt8.ofNat (((n : Int) % ((2 ^ 8 : ℕ) : Int)).toNat) = _
  rw [← Int.natCast_mod, Int.toNat_natCast]
  exact UInt8.ofNat_mod_size

theorem fromHexPairs_rendered {bs : Bytes} {s : Str} (h : Rendered bs s) :
    fromHexPairs s = some bs ∧ s.length = 2 * bs.length := by
  induction h with
  | nil => exact ⟨rfl, rfl⟩
  | cons hhigh hlow rest ih =>
    obtain ⟨hpairs, hlen⟩ := ih
    constructor
    · unfold fromHexPairs
      rw [stoiHex_pair hhigh hlow, hpairs, ← ofInt_natCast]
      rfl
    · rw [List.length_cons, List.length_cons, hlen, List.length_cons]
      omega

theorem fromHex_rendered {bs : Bytes} {s : Str} (h : Rendered bs s) : fromHex s = bs := by
  obtain ⟨hpairs, hlen⟩ := fromHexPairs_rendered h
  unfold fromHex
  rw [if_neg (by omega), hpairs]
  rfl

theorem hexValue_hexChar {n : UInt8} (h : n.toNat < 16) : hexValue (hexChar n) = some n.toNat := by
  have hall : ∀ k < 16, hexValue (kHex.getD k '0') = some k := by decide
  exact hall _ h

theorem rendered_toHex (bs : Bytes) : Rendered bs (toHex bs) := by
  induction bs with
  | nil => exact .nil
  | cons b bs ih =>
    have hhigh : (b >>> 4).toNat = b.toNat / 16 := by
      rw [UInt8.toNat_shiftRight, Nat.shiftRight_eq_div_pow]
      rfl
    have hlow : (b &&& 0x0f).toNat = b.toNat % 16 := by
      rw [UInt8.toNat_and]
      exact Nat.and_two_pow_sub_one_eq_mod b.toNat 4
    have hb := b.toNat_lt
    have hbyte : b = UInt8.ofNat (16 * (b >>> 4).toNat + (b &&& 0x0f).toNat) := by
      rw [hhigh, hlow, Nat.div_add_mod, UInt8.ofNat_toNat]
    have hcons := Rendered.cons (hexValue_hexChar (n := b >>> 4) (by omega))
      (hexValue_hexChar (n := b &&& 0x0f) (by omega)) ih
    rw [← hbyte] at hcons
    exact hcons

/-! ### Hashing and verifying -/

/-- `PBKDF2-HMAC-SHA256` of a password, a salt and a number of iterations, as many bytes as are asked
for; the library may fail. -/
abbrev Kdf := Str → Bytes → Int → (outlen : ℕ) → Option (List.Vector UInt8 outlen)

/-- The derivation, which throws where the library fails. -/
def pbkdf2 (kdf : Kdf) (password : Str) (salt : Bytes) (iters : Int) (outlen : ℕ) :
    Except Thrown Bytes :=
  match kdf password salt iters outlen with
  | some out => .ok out.toList
  | none => .error (.std "PBKDF2 derivation failed".toList)

def kIterations : Int := 120000

def kSaltLen : ℕ := 16

def kHashLen : ℕ := 32

structure HashedText where
  saltHex : Str
  hashHex : Str
  iterations : Int

/-- `salt` is what the random source gives, if it gives anything. -/
def hashPassword (kdf : Kdf) (salt : Option (List.Vector UInt8 kSaltLen)) (password : Str) :
    Except Thrown HashedText :=
  match salt with
  | none => .error (.std "RAND_bytes failed".toList)
  | some salt => do
    let hash ← pbkdf2 kdf password salt.toList kIterations kHashLen
    pure ⟨toHex salt.toList, toHex hash, kIterations⟩

/-- The bits in which two byte strings of one length differ, over all bytes. -/
def diffBits (actual expected : Bytes) : UInt8 :=
  (actual.zip expected).foldl (fun diff ae => diff ||| (ae.1 ^^^ ae.2)) 0

def verifyPassword (kdf : Kdf) (password saltHex hashHex : Str) (iterations : Int) :
    Except Thrown Bool :=
  if iterations < 1 then .ok false
  else
    let salt := fromHex saltHex
    let expected := fromHex hashHex
    if salt = [] ∨ expected = [] then .ok false
    else do
      let actual ← pbkdf2 kdf password salt iterations expected.length
      if actual.length ≠ expected.length then pure false
      else pure (diffBits actual expected == 0)

theorem foldl_diff_eq_zero_iff {as bs : Bytes} (hlen : as.length = bs.length) (diff : UInt8) :
    (as.zip bs).foldl (fun diff ae => diff ||| (ae.1 ^^^ ae.2)) diff = 0 ↔ diff = 0 ∧ as = bs := by
  induction as generalizing bs diff with
  | nil =>
    rw [List.length_nil] at hlen
    rw [List.eq_nil_of_length_eq_zero hlen.symm]
    exact (and_iff_left rfl).symm
  | cons a as ih =>
    cases bs with
    | nil => cases hlen
    | cons b bs =>
      rw [List.zip_cons_cons, List.foldl_cons, ih (Nat.succ.inj hlen), UInt8.or_eq_zero_iff,
        UInt8.xor_eq_zero_iff, List.cons.injEq, and_assoc]

/-- No byte differs exactly if no bit is left. -/
theorem diffBits_eq_zero_iff {actual expected : Bytes} (hlen : actual.length = expected.length) :
    diffBits actual expected = 0 ↔ actual = expected := by
  unfold diffBits
  rw [foldl_diff_eq_zero_iff hlen]
  exact and_iff_right rfl

theorem verifyPassword_rendered (kdf : Kdf) (password : Str) {salt hash : Bytes} {saltHex hashHex : Str}
    (hsalt : Rendered salt saltHex) (hhash : Rendered hash hashHex) (hs : salt ≠ []) (hh : hash ≠ [])
    {iterations : Int} (hi : 0 < iterations) :
    verifyPassword kdf password saltHex hashHex iterations = .ok true ↔
      (kdf password salt iterations hash.length).map List.Vector.toList = some hash := by
  unfold verifyPassword pbkdf2
  rw [if_neg (by omega), fromHex_rendered hsalt, fromHex_rendered hhash]
  dsimp only
  rw [if_neg (not_or.mpr ⟨hs, hh⟩)]
  cases kdf password salt iterations hash.length with
  | none => exact iff_of_false nofun nofun
  | some out =>
    show (if out.toList.length ≠ hash.length then (.ok false : Except Thrown Bool)
      else .ok (diffBits out.toList hash == 0)) = .ok true ↔ some out.toList = some hash
    have hlen : out.toList.length = hash.length := out.toList_length
    rw [if_neg (not_not.mpr hlen), Except.ok.injEq, beq_iff_eq, diffBits_eq_zero_iff hlen,
      Option.some.injEq]

/-- The routes' check, on the bytes of the columns, is this one on any texts of theirs. -/
theorem verifyPassword_host [Host] {kdf : Kdf}
    (hkdf : ∀ password salt (iters outlen : ℕ),
      (kdf password salt iters outlen).map List.Vector.toList =
        some (Host.pbkdf2 password salt iters outlen))
    (password : Str) (h : Hashed) {saltHex hashHex : Str} (hsalt : Rendered h.salt saltHex)
    (hhash : Rendered h.hash hashHex) :
    verifyPassword kdf password saltHex hashHex h.iterations = .ok (Api.verifyPassword password h) := by
  unfold verifyPassword Api.verifyPassword pbkdf2
  rw [fromHex_rendered hsalt, fromHex_rendered hhash]
  by_cases hi : h.iterations < 1
  · rw [if_pos (by omega), if_pos hi]
  · rw [if_neg (by omega), if_neg hi]
    dsimp only
    split
    · rfl
    · have hout := hkdf password h.salt h.iterations h.hash.length
      cases hk : kdf password h.salt h.iterations h.hash.length with
      | none =>
        rw [hk] at hout
        cases hout
      | some out =>
        rw [hk] at hout
        have hlen : out.toList.length = h.hash.length := out.toList_length
        show (if out.toList.length ≠ h.hash.length then (.ok false : Except Thrown Bool)
          else .ok (diffBits out.toList h.hash == 0)) = _
        rw [if_neg (not_not.mpr hlen), ← Option.some.inj hout]
        congr 1
        rw [Bool.eq_iff_iff, beq_iff_eq, diffBits_eq_zero_iff hlen, decide_eq_true_iff]

/-- **PROVED: the right password and no other.** For a salt and a hash of at least one byte, spelled
in either letter case, a password is accepted if and only if the derivation gives the hash; and what
`hash_password` stores accepts its password. -/
theorem verifyPassword_iff (kdf : Kdf) (password : Str) :
    (∀ (salt hash : Bytes) (saltHex hashHex : Str) (iterations : Int), Rendered salt saltHex →
      Rendered hash hashHex → salt ≠ [] → hash ≠ [] → 0 < iterations →
      (verifyPassword kdf password saltHex hashHex iterations = .ok true ↔
        (kdf password salt iterations hash.length).map List.Vector.toList = some hash)) ∧
    ∀ salt h, hashPassword kdf salt password = .ok h →
      verifyPassword kdf password h.saltHex h.hashHex h.iterations = .ok true := by
  refine ⟨fun salt hash saltHex hashHex iterations hsalt hhash hs hh hi =>
    verifyPassword_rendered kdf password hsalt hhash hs hh hi, fun salt h hhashed => ?_⟩
  cases salt with
  | none => cases hhashed
  | some salt =>
    unfold hashPassword pbkdf2 at hhashed
    dsimp only at hhashed
    cases hout : kdf password salt.toList kIterations kHashLen with
    | none =>
      rw [hout] at hhashed
      cases hhashed
    | some out =>
      rw [hout] at hhashed
      cases hhashed
      have hlen : out.toList.length = kHashLen := out.toList_length
      have hsalt : salt.toList ≠ [] := List.ne_nil_of_length_pos (by rw [salt.toList_length]; decide)
      have hhash : out.toList ≠ [] := List.ne_nil_of_length_pos (by rw [hlen]; decide)
      have hkdf : (kdf password salt.toList kIterations out.toList.length).map List.Vector.toList =
          some out.toList := by
        rw [hlen, hout]
        rfl
      have hpos : 0 < kIterations := by decide
      exact (verifyPassword_rendered kdf password (rendered_toHex _) (rendered_toHex _) hsalt hhash
        hpos).mpr hkdf

/-- The derivation at one password and one salt. -/
def sampleHash : List.Vector UInt8 kHashLen :=
  ⟨[0xaa, 0xaf, 0x6c, 0xdb, 0x66, 0x36, 0xed, 0xeb, 0xea, 0x1e, 0x72, 0x33, 0x0b, 0x6d, 0x60, 0xd1,
    0x22, 0x50, 0x7c, 0x71, 0x9d, 0x4d, 0x40, 0x03, 0xfc, 0x9e, 0xf3, 0xc2, 0xb9, 0x66, 0x4d, 0xea],
    rfl⟩

def sampleSalt : List.Vector UInt8 kSaltLen :=
  ⟨[0, 1, 2, 3, 4, 5, 6, 7, 8, 9, 10, 11, 12, 13, 14, 15], rfl⟩

def samplePassword : Str := "Correct-Horse-Battery-9".toList

def sampleKdf : Kdf := fun password salt iters outlen =>
  if password = samplePassword ∧ salt = sampleSalt.toList ∧ iters = kIterations then
    if h : outlen = kHashLen then some (h ▸ sampleHash) else none
  else none

/-- The stored pair in capital letters, and as it was stored. -/
theorem verifyPassword_sample :
    verifyPassword sampleKdf samplePassword (upper (toHex sampleSalt.toList))
      (upper (toHex sampleHash.toList)) 120000 = .ok true ∧
    verifyPassword sampleKdf samplePassword (toHex sampleSalt.toList) (toHex sampleHash.toList)
      120000 = .ok true :=
  ⟨((verifyPassword_iff sampleKdf samplePassword).1 _ _ _ _ 120000 (rendered_toHex _).upper
      (rendered_toHex _).upper (by decide) (by decide) (by decide)).mpr (by rfl),
    (verifyPassword_iff sampleKdf samplePassword).2 (some sampleSalt)
      ⟨toHex sampleSalt.toList, toHex sampleHash.toList, kIterations⟩ (by rfl)⟩

end StarBase.Auth

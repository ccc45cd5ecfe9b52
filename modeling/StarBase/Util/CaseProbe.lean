import Mathlib
import StarBase.Index.FrameStore
import StarBase.Names.Spelling

/-!
# Probing for letter case

`detect_case_sensitive` takes the first entry of a directory that has a letter, and asks whether its
name with the case of every letter inverted exists.

* `flipCase`, `detectCaseSensitive` — the probe;
* `Directory` — entries on a file system whose lookup is exact or folds case;
* `detectCaseSensitive_iff` — **PROVED**: the probe tells which it is, and no two paths of an exact file
  system become one, if and only if the inverted name is not another entry and the entry is no broken
  link.

Errors while the directory is read are left out.
-/

namespace StarBase.Util

open Names

/-! ### The probe -/

/-- `isupper` and `islower` in the C locale, with the letter in the other case. -/
def flipChar (c : Char) : Char :=
  if c.isUpper then c.toLower else if c.isLower then c.toUpper else c

def flipCase (name : Str) : Str := name.map flipChar

def hasAlpha (name : Str) : Bool := name.any fun c => c.isUpper || c.isLower

/-- The loop over the names of the entries, in the order they are listed; `exists?` follows links. -/
def probeEntries (exists? : Str → Bool) : List Str → Bool
  | [] => true
  | name :: names =>
    if hasAlpha name then !exists? (flipCase name) else probeEntries exists? names

/-- `listing` is none if the directory cannot be opened. -/
def detectCaseSensitive (exists? : Str → Bool) (listing : Option (List Str)) : Bool :=
  match listing with
  | none => true
  | some names => probeEntries exists? names

/-! ### Directories -/

inductive Lookup
  | exact
  | folding
  deriving DecidableEq

/-- What a file system compares of a name. -/
def Lookup.key : Lookup → Str → Str
  | .exact, name => name
  | .folding, name => lower name

/-- An entry; one that does not resolve is a link that leads nowhere. -/
structure Entry where
  name : Str
  resolves : Bool

/-- The entries in the order they are listed; no two have one name to the file system. -/
structure Directory where
  lookup : Lookup
  entries : List Entry
  nodup : (entries.map fun e => lookup.key e.name).Nodup

def Directory.find (d : Directory) (name : Str) : Option Entry :=
  d.entries.find? fun e => d.lookup.key e.name = d.lookup.key name

/-- `std::filesystem::exists`. -/
def Directory.exists? (d : Directory) (name : Str) : Bool :=
  (d.find name).any Entry.resolves

def Directory.listing (d : Directory) : List Str := d.entries.map Entry.name

def Directory.detect (d : Directory) : Bool := detectCaseSensitive d.exists? (some d.listing)

/-! ### Names in two cases -/

theorem toNat_flipChar (c : Char) : (flipChar c).toNat =
    if 65 ≤ c.toNat ∧ c.toNat ≤ 90 then c.toNat + 32
    else if 97 ≤ c.toNat ∧ c.toNat ≤ 122 then c.toNat - 32 else c.toNat := by
  have hupper : c.isUpper = true ↔ 65 ≤ c.toNat ∧ c.toNat ≤ 90 := by
    simp only [Char.isUpper, decide_eq_true_eq, ge_iff_le, UInt32.le_iff_toNat_le]
    rfl
  have hlower : c.isLower = true ↔ 97 ≤ c.toNat ∧ c.toNat ≤ 122 := by
    simp only [Char.isLower, Bool.and_eq_true, decide_eq_true_eq, ge_iff_le, UInt32.le_iff_toNat_le]
    rfl
  unfold flipChar
  by_cases hu : 65 ≤ c.toNat ∧ c.toNat ≤ 90
  · rw [if_pos (hupper.mpr hu), if_pos hu, toNat_toLower, if_pos hu]
  · rw [if_neg (fun h => hu (hupper.mp h)), if_neg hu]
    by_cases hl : 97 ≤ c.toNat ∧ c.toNat ≤ 122
    · rw [if_pos (hlower.mpr hl), if_pos hl, toNat_toUpper, if_pos hl]
    · rw [if_neg (fun h => hl (hlower.mp h)), if_neg hl]

theorem toLower_flipChar (c : Char) : (flipChar c).toLower = c.toLower := by
  refine Char.toNat_inj.mp ?_
  rw [toNat_toLower, toNat_toLower, toNat_flipChar]
  split_ifs <;> omega

/-- The inverted name is the same name to a file system that folds case. -/
theorem lower_flipCase (name : Str) : lower (flipCase name) = lower name := by
  unfold lower flipCase
  rw [List.map_map]
  exact List.map_congr_left fun c _ => toLower_flipChar c

/-! ### What the probe answers -/

/-- The first entry listed that has a letter. -/
def Directory.probed (d : Directory) : Option Entry := d.entries.find? fun e => hasAlpha e.name

theorem probeEntries_eq (exists? : Str → Bool) (es : List Entry) :
    probeEntries exists? (es.map Entry.name) =
      (es.find? fun e => hasAlpha e.name).elim true fun e => !exists? (flipCase e.name) := by
  induction es with
  | nil => rfl
  | cons e es ih =>
    rw [List.map_cons, List.find?_cons]
    unfold probeEntries
    cases hasAlpha e.name with
    | true => rfl
    | false => exact ih

theorem Directory.find_of_mem {d : Directory} {e : Entry} (he : e ∈ d.entries) {name : Str}
    (hname : d.lookup.key e.name = d.lookup.key name) : d.find name = some e := by
  cases hfind : d.find name with
  | none =>
    have hnone := List.find?_eq_none.mp hfind e he
    exact absurd (decide_eq_true hname) hnone
  | some e' =>
    have hkey : d.lookup.key e'.name = d.lookup.key name := by simpa using List.find?_some hfind
    have hmem := List.mem_of_find?_eq_some hfind
    exact congrArg some (List.inj_on_of_nodup_map d.nodup hmem he (hkey.trans hname.symm))

/-- The name of the probed entry, inverted, is not that of another entry that resolves, on a file
system with exact lookup; the entry itself resolves, on one that folds. -/
def Directory.Telling (d : Directory) : Prop :=
  ∀ e ∈ d.probed,
    match d.lookup with
    | .exact => ∀ other ∈ d.entries, other.name = flipCase e.name → other.resolves = false
    | .folding => e.resolves = true

theorem Directory.exists_iff (d : Directory) (name : Str) :
    d.exists? name = true ↔ ∃ e ∈ d.entries, d.lookup.key e.name = d.lookup.key name ∧ e.resolves = true := by
  constructor
  · intro h
    obtain ⟨e, hfind, hresolves⟩ := (Option.any_eq_true _ _).mp h
    have hkey : d.lookup.key e.name = d.lookup.key name := by simpa using List.find?_some hfind
    exact ⟨e, List.mem_of_find?_eq_some hfind, hkey, hresolves⟩
  · rintro ⟨e, he, hkey, hresolves⟩
    unfold Directory.exists?
    rw [d.find_of_mem he hkey]
    exact hresolves

theorem Directory.detect_eq {d : Directory} {e : Entry} (he : d.probed = some e) :
    d.detect = !d.exists? (flipCase e.name) := by
  show probeEntries d.exists? (d.entries.map Entry.name) = _
  rw [probeEntries_eq]
  unfold Directory.probed at he
  rw [he]
  rfl

/-- With exact lookup the answer is yes exactly if no other entry has the inverted name. -/
theorem Directory.detect_exact {d : Directory} (hexact : d.lookup = .exact) :
    d.detect = true ↔ d.Telling := by
  unfold Directory.Telling
  rw [hexact]
  cases hp : d.probed with
  | none =>
    refine iff_of_true ?_ nofun
    show probeEntries d.exists? (d.entries.map Entry.name) = true
    rw [probeEntries_eq]
    unfold Directory.probed at hp
    rw [hp]
    rfl
  | some e =>
    rw [Directory.detect_eq hp, Bool.not_eq_true', Bool.eq_false_iff, ne_eq, d.exists_iff, hexact]
    constructor
    · intro h e' he' other hother hname
      rw [← Option.some.inj he'] at hname
      exact Bool.eq_false_iff.mpr fun hresolves => h ⟨other, hother, hname, hresolves⟩
    · rintro h ⟨other, hother, hname, hresolves⟩
      exact Bool.eq_false_iff.mp (h e rfl other hother hname) hresolves

/-- Where case is folded the inverted name is that of the entry itself. -/
theorem Directory.detect_folding {d : Directory} (hfold : d.lookup = .folding) {e : Entry}
    (he : d.probed = some e) : d.detect = false ↔ d.Telling := by
  have hmem := List.mem_of_find?_eq_some he
  have hkey : d.lookup.key e.name = d.lookup.key (flipCase e.name) := by
    rw [hfold]
    exact (lower_flipCase e.name).symm
  have hexists : d.exists? (flipCase e.name) = e.resolves := by
    unfold Directory.exists?
    rw [d.find_of_mem hmem hkey]
    rfl
  unfold Directory.Telling
  rw [Directory.detect_eq he, hexists, hfold, he, Bool.not_eq_false']
  exact ⟨fun h e' he' => Option.some.inj he' ▸ h, fun h => h e rfl⟩

/-- **PROVED: the directory decides.** If an entry has a letter, the probe answers that lookup is exact
exactly when it is if and only if the directory is telling; and with exact lookup no two files have one
path under the hash if and only if it is, or no two differ only in case. -/
theorem detectCaseSensitive_iff (d : Directory) (hletter : ∃ e ∈ d.entries, hasAlpha e.name = true) :
    ((d.detect = true ↔ d.lookup = .exact) ↔ d.Telling) ∧
    (d.lookup = .exact → ∀ files : List Str,
      (∀ p ∈ files, ∀ q ∈ files, hashPath d.detect p = hashPath d.detect q → p = q) ↔
        d.Telling ∨ ∀ p ∈ files, ∀ q ∈ files, lower p = lower q → p = q) := by
  obtain ⟨e, he⟩ : ∃ e, d.probed = some e := by
    obtain ⟨e, hmem, halpha⟩ := hletter
    exact Option.isSome_iff_exists.mp (List.find?_isSome.mpr ⟨e, hmem, halpha⟩)
  constructor
  · cases hlookup : d.lookup with
    | exact =>
      rw [← Directory.detect_exact hlookup]
      exact ⟨fun h => h.mpr rfl, fun h => iff_of_true h rfl⟩
    | folding =>
      rw [← Directory.detect_folding hlookup he]
      constructor
      · intro h
        exact Bool.eq_false_iff.mpr fun ht => by cases h.mp ht
      · intro h
        refine iff_of_false (Bool.eq_false_iff.mp h) nofun
  · intro hexact files
    have hdetect := Directory.detect_exact hexact
    by_cases ht : d.Telling
    · rw [hdetect.mpr ht]
      exact iff_of_true (fun p _ q _ h => h) (.inl ht)
    · rw [Bool.eq_false_iff.mpr fun h => ht (hdetect.mp h), or_iff_right ht]
      rfl

/-- Two files whose names differ only in case. -/
def twoSpellings : Directory where
  lookup := .exact
  entries := [⟨"M31.fits".toList, true⟩, ⟨"m31.FITS".toList, true⟩]
  nodup := by decide

def oneSpelling : Directory where
  lookup := .exact
  entries := [⟨"2024".toList, true⟩, ⟨"M31.fits".toList, true⟩, ⟨"m31.fits".toList, true⟩]
  nodup := by decide

/-- The probed name inverted is `m31.FITS`, which is no entry. -/
theorem detectCaseSensitive_oneSpelling :
    (oneSpelling.detect = true ↔ oneSpelling.lookup = .exact) ∧
    hashPath oneSpelling.detect "M31.fits".toList ≠ hashPath oneSpelling.detect "m31.fits".toList := by
  have htelling : oneSpelling.Telling := (Directory.detect_exact rfl).mp (by decide)
  obtain ⟨hprobe, hpaths⟩ := detectCaseSensitive_iff oneSpelling
    ⟨⟨"M31.fits".toList, true⟩, by simp [oneSpelling], by decide⟩
  refine ⟨hprobe.mpr htelling, fun h => ?_⟩
  have hinj := (hpaths rfl ["M31.fits".toList, "m31.fits".toList]).mpr (.inl htelling)
  exact absurd (hinj _ (by simp) _ (by simp) h) (by decide)

theorem detectCaseSensitive_twoSpellings :
    ¬ ∀ d : Directory, (∃ e ∈ d.entries, hasAlpha e.name = true) →
      ((d.detect = true ↔ d.lookup = .exact) ∧
        (d.lookup = .exact → ∀ files : List Str, ∀ p ∈ files, ∀ q ∈ files,
          hashPath d.detect p = hashPath d.detect q → p = q)) := by
  intro h
  have htwo := (h twoSpellings ⟨⟨"M31.fits".toList, true⟩, by simp [twoSpellings], by decide⟩).1.mpr rfl
  exact absurd htwo (by decide)

end StarBase.Util

import Mathlib.Data.List.Basic
import StarBase.Names.Canon

/-!
# Spellings of a catalog name

A catalog name is an alias, separators and a number.  Case, separators and the blanks around the name
do not count, but the aliases are tried in order: `sh2199` is taken for a number of the alias `sh2`
before the alias `sh` is looked at.

* `IsNumber` — a catalog number, digits and at most one letter;
* `tidy_spelled` — what tidying leaves of a spelling;
* `Captured` — the one spelling that another alias takes;
* `canonicalize_spelled_iff` — **PROVED**: a spelling has the canonical form of its alias, one blank
  and the number, exactly if it is not captured.
-/

namespace StarBase.Names

-- Characters are a finite type: without this a bounded statement may be decided over all of them.
local instance (priority := 2000) decidableForallMem {α : Type} (l : List α) (p : α → Prop)
    [DecidablePred p] : Decidable (∀ x ∈ l, p x) :=
  List.decidableBAll p l

/-! ### Characters -/

def isSeparator (c : Char) : Bool := c = ' ' || c = '_' || c = '-'

theorem isSeparator_iff {c : Char} : isSeparator c = true ↔ c = ' ' ∨ c = '_' ∨ c = '-' := by
  simp [isSeparator, or_assoc]

theorem isDigit_not_separator {c : Char} (h : c.isDigit = true) : isSeparator c = false := by
  by_contra hs
  rcases isSeparator_iff.mp (by simpa using hs) with rfl | rfl | rfl <;> exact absurd h (by decide)

theorem isAlpha_eq (c : Char) : c.isAlpha = (decide (65 ≤ c.val ∧ c.val ≤ 90) ||
    (decide (97 ≤ c.val) && decide (c.val ≤ 122))) := rfl

theorem isDigit_not_alpha {c : Char} (h : c.isDigit = true) : c.isAlpha = false := by
  simp only [Char.isDigit, isAlpha_eq] at *
  grind

theorem isSeparator_not_alpha {c : Char} (h : isSeparator c = true) : c.isAlpha = false := by
  rcases isSeparator_iff.mp h with rfl | rfl | rfl <;> decide

theorem isSpaceChar_iff {c : Char} : isSpaceChar c = true ↔
    c = ' ' ∨ c = '\t' ∨ c = '\n' ∨ c = '\x0b' ∨ c = '\x0c' ∨ c = '\r' := by
  simp [isSpaceChar, or_assoc]

theorem isDigit_not_space {c : Char} (h : c.isDigit = true) : isSpaceChar c = false := by
  by_contra hs
  rcases isSpaceChar_iff.mp (by simpa using hs) with rfl | rfl | rfl | rfl | rfl | rfl <;>
    exact absurd h (by decide)

theorem isAlpha_not_space {c : Char} (h : c.isAlpha = true) : isSpaceChar c = false := by
  by_contra hs
  rcases isSpaceChar_iff.mp (by simpa using hs) with rfl | rfl | rfl | rfl | rfl | rfl <;>
    exact absurd h (by decide)

theorem isAlpha_not_digit {c : Char} (h : c.isAlpha = true) : c.isDigit = false := by
  by_contra hd
  rw [isDigit_not_alpha (by simpa using hd)] at h
  cases h

theorem isAlpha_toLower (c : Char) : c.toLower.isAlpha = c.isAlpha := by
  simp only [isAlpha_eq]
  grind [toLower_cases, UInt32.toNat_add]

theorem toNat_toUpper (c : Char) : c.toUpper.toNat =
    if 97 ≤ c.toNat ∧ c.toNat ≤ 122 then c.toNat - 32 else c.toNat := by
  by_cases h : 'a'.val ≤ c.val ∧ c.val ≤ 'z'.val
  · have hlow : 97 ≤ c.val.toNat := UInt32.le_iff_toNat_le.mp h.1
    have hhigh : c.val.toNat ≤ 122 := UInt32.le_iff_toNat_le.mp h.2
    rw [if_pos ⟨hlow, hhigh⟩]
    unfold Char.toUpper
    rw [dif_pos h]
    show (c.val + 4294967264).toNat = c.val.toNat - 32
    rw [UInt32.toNat_add]
    have : (4294967264 : UInt32).toNat = 4294967264 := by decide
    omega
  · have hn : ¬ (97 ≤ c.toNat ∧ c.toNat ≤ 122) := fun hn =>
      h ⟨UInt32.le_iff_toNat_le.mpr hn.1, UInt32.le_iff_toNat_le.mpr hn.2⟩
    rw [if_neg hn]
    exact congrArg Char.toNat (dif_neg h)

theorem toNat_toLower (c : Char) : c.toLower.toNat =
    if 65 ≤ c.toNat ∧ c.toNat ≤ 90 then c.toNat + 32 else c.toNat := by
  by_cases h : c.val ≥ 'A'.val ∧ c.val ≤ 'Z'.val
  · have hlow : 65 ≤ c.val.toNat := UInt32.le_iff_toNat_le.mp h.1
    have hhigh : c.val.toNat ≤ 90 := UInt32.le_iff_toNat_le.mp h.2
    rw [if_pos ⟨hlow, hhigh⟩]
    unfold Char.toLower
    rw [dif_pos h]
    show (c.val + 32).toNat = c.val.toNat + 32
    rw [UInt32.toNat_add]
    have : (32 : UInt32).toNat = 32 := by decide
    omega
  · have hn : ¬ (65 ≤ c.toNat ∧ c.toNat ≤ 90) := fun hn =>
      h ⟨UInt32.le_iff_toNat_le.mpr hn.1, UInt32.le_iff_toNat_le.mpr hn.2⟩
    rw [if_neg hn]
    exact congrArg Char.toNat (dif_neg h)

/-- Two spellings of a letter have one capital. -/
theorem toUpper_eq_of_toLower_eq {c d : Char} (h : c.toLower = d.toLower) :
    c.toUpper = d.toUpper := by
  have hc := toNat_toUpper c
  have hd := toNat_toUpper d
  have hl : c.toLower.toNat = d.toLower.toNat := by rw [h]
  rw [toNat_toLower, toNat_toLower] at hl
  refine Char.toNat_inj.mp ?_
  rw [hc, hd]
  split_ifs at hl ⊢ <;> omega

theorem isAlpha_iff {c : Char} : c.isAlpha = true ↔
    (65 ≤ c.toNat ∧ c.toNat ≤ 90) ∨ (97 ≤ c.toNat ∧ c.toNat ≤ 122) := by
  simp only [isAlpha_eq, Bool.or_eq_true, Bool.and_eq_true,
    decide_eq_true_eq, UInt32.le_iff_toNat_le]
  rfl

theorem isAlpha_toUpper (c : Char) (h : c.isAlpha = true) : c.toUpper.isAlpha = true := by
  rw [isAlpha_iff] at h ⊢
  rw [toNat_toUpper]
  split_ifs <;> omega

theorem toUpper_toUpper (c : Char) : c.toUpper.toUpper = c.toUpper := by
  refine Char.toNat_inj.mp ?_
  rw [toNat_toUpper, toNat_toUpper]
  split_ifs <;> omega

/-! ### Numbers -/

/-- A catalog number: digits, and at most one letter. -/
structure IsNumber (digits : Str) (letter : Option Char) : Prop where
  ne : digits ≠ []
  digits : ∀ c ∈ digits, c.isDigit = true
  letter : ∀ c ∈ letter, c.isAlpha = true

/-- The number as it is emitted. -/
def numberText (digits : Str) (letter : Option Char) : Str :=
  digits ++ (letter.map Char.toUpper).toList

theorem catalogNumber_eq {g digits : Str} {letter : Option Char} (hg : ∀ c ∈ g, isSeparator c = true)
    (hn : IsNumber digits letter) :
    catalogNumber (g ++ (digits ++ letter.toList)) = numberText digits letter := by
  obtain ⟨d, ds, hd⟩ := List.exists_cons_of_ne_nil hn.ne
  have hnum : (g ++ (digits ++ letter.toList)).dropWhile isSeparator = digits ++ letter.toList := by
    refine dropWhile_append_stop hg ?_
    intro c hc
    rw [hd] at hc
    cases hc
    exact isDigit_not_separator (hn.digits d (by rw [hd]; exact List.mem_cons_self))
  have hstop : ∀ c ∈ letter.toList.head?, c.isDigit = false := by
    intro c hc
    cases letter with
    | none => cases hc
    | some l =>
      cases hc
      exact isAlpha_not_digit (hn.letter c rfl)
  have htake : (digits ++ letter.toList).takeWhile Char.isDigit = digits :=
    takeWhile_append_stop hn.digits hstop
  have hdrop : (digits ++ letter.toList).dropWhile Char.isDigit = letter.toList :=
    dropWhile_append_stop hn.digits hstop
  unfold catalogNumber numberText
  rw [show (fun c => decide (c = ' ') || decide (c = '_') || decide (c = '-')) = isSeparator from rfl]
  dsimp only
  rw [hnum, htake, hdrop, if_neg hn.ne]
  cases letter with
  | none => rfl
  | some l => exact if_pos (hn.letter l rfl)

theorem numberText_ne_nil {digits : Str} {letter : Option Char} (hn : IsNumber digits letter) :
    numberText digits letter ≠ [] := by
  unfold numberText
  simp [hn.ne]

/-- The character the number begins with, after its separators, is no letter. -/
theorem head_not_alpha {g digits : Str} {letter : Option Char} (hg : ∀ c ∈ g, isSeparator c = true)
    (hn : IsNumber digits letter) :
    ((g ++ (digits ++ letter.toList)).head?.map Char.isAlpha).getD false = false := by
  cases g with
  | cons c g => exact isSeparator_not_alpha (hg c List.mem_cons_self)
  | nil =>
    obtain ⟨d, ds, hd⟩ := List.exists_cons_of_ne_nil hn.ne
    rw [hd]
    exact isDigit_not_alpha (hn.digits d (by rw [hd]; exact List.mem_cons_self))

/-! ### What tidying leaves -/

theorem tidyFrom_blanks {lead : Str} (h : ∀ c ∈ lead, isSpaceChar c = true) (s : Str) :
    tidyFrom false false (lead ++ s) = tidyFrom false false s := by
  induction lead with
  | nil => rfl
  | cons c lead ih =>
    show (if isSpaceChar c then _ else _) = _
    rw [if_pos (h c List.mem_cons_self)]
    exact ih fun d hd => h d (List.mem_cons_of_mem _ hd)

theorem tidyFrom_trailing {trail : Str} (h : ∀ c ∈ trail, isSpaceChar c = true) (sp : Bool) :
    tidyFrom true sp trail = [] := by
  induction trail generalizing sp with
  | nil => rfl
  | cons c trail ih =>
    show (if isSpaceChar c then _ else _) = _
    rw [if_pos (h c List.mem_cons_self)]
    exact ih (fun d hd => h d (List.mem_cons_of_mem _ hd)) true

theorem tidyFrom_word {m : Str} (h : ∀ c ∈ m, isSpaceChar c = false) (s : Str) :
    tidyFrom true false (m ++ s) = m ++ tidyFrom true false s := by
  induction m with
  | nil => rfl
  | cons c m ih =>
    have hc := h c List.mem_cons_self
    show (if isSpaceChar c then _ else if false = true then _ else _) = _
    rw [if_neg (by rw [hc]; decide), if_neg (by decide)]
    exact congrArg (c :: ·) (ih fun d hd => h d (List.mem_cons_of_mem _ hd))

theorem tidyFrom_first {c : Char} (hc : isSpaceChar c = false) (s : Str) :
    tidyFrom false false (c :: s) = c :: tidyFrom true false s := by
  show (if isSpaceChar c then _ else if false = true then _ else _) = _
  rw [if_neg (by rw [hc]; decide), if_neg (by decide)]

/-- A run of separators stays one: blanks that follow each other become one, and none is made of
nothing. -/
theorem tidyFrom_separators {g : Str} (hg : ∀ c ∈ g, isSeparator c = true) {d : Char}
    (hd : isSpaceChar d = false) (s : Str) (sp : Bool) :
    ∃ g', (∀ c ∈ g', isSeparator c = true) ∧ (g' = [] ↔ g = [] ∧ sp = false) ∧
      tidyFrom true sp (g ++ d :: s) = g' ++ d :: tidyFrom true false s := by
  induction g generalizing sp with
  | nil =>
    cases sp with
    | false =>
      refine ⟨[], nofun, by simp, ?_⟩
      show (if isSpaceChar d then _ else if false = true then _ else _) = _
      rw [if_neg (by rw [hd]; decide), if_neg (by decide)]
      rfl
    | true =>
      refine ⟨[' '], by simp [isSeparator], by simp, ?_⟩
      show (if isSpaceChar d then _ else if true = true then _ else _) = _
      rw [if_neg (by rw [hd]; decide), if_pos rfl]
      rfl
  | cons c g ih =>
    have hrest : ∀ c ∈ g, isSeparator c = true := fun e he => hg e (List.mem_cons_of_mem _ he)
    by_cases hc : isSpaceChar c = true
    · obtain ⟨g', hg', hnil, htidy⟩ := ih hrest true
      refine ⟨g', hg', by simp [hnil], ?_⟩
      show (if isSpaceChar c then _ else _) = _
      rw [if_pos hc]
      exact htidy
    · obtain ⟨g', hg', -, htidy⟩ := ih hrest false
      have hsep := hg c List.mem_cons_self
      cases sp with
      | false =>
        refine ⟨c :: g', by simpa [hsep] using hg', by simp, ?_⟩
        show (if isSpaceChar c then _ else if false = true then _ else _) = _
        rw [if_neg hc, if_neg (by decide)]
        exact congrArg (c :: ·) htidy
      | true =>
        have hblank : isSeparator ' ' = true := rfl
        refine ⟨' ' :: c :: g', by simpa [hsep, hblank] using hg', by simp, ?_⟩
        show (if isSpaceChar c then _ else if true = true then _ else _) = _
        rw [if_neg hc, if_pos rfl]
        exact congrArg (' ' :: c :: ·) htidy

/-- A spelling after tidying: the alias, separators, and the number. -/
theorem tidy_spelled {lead a g digits trail : Str} {letter : Option Char}
    (hlead : ∀ c ∈ lead, isSpaceChar c = true) (ha : a ≠ [])
    (hword : ∀ c ∈ a, isSpaceChar c = false) (hg : ∀ c ∈ g, isSeparator c = true)
    (hn : IsNumber digits letter) (htrail : ∀ c ∈ trail, isSpaceChar c = true) :
    ∃ g', (∀ c ∈ g', isSeparator c = true) ∧ (g' = [] ↔ g = []) ∧
      tidy (lead ++ (a ++ (g ++ (digits ++ letter.toList))) ++ trail) =
        a ++ (g' ++ (digits ++ letter.toList)) := by
  obtain ⟨x, xs, rfl⟩ := List.exists_cons_of_ne_nil ha
  obtain ⟨d, ds, rfl⟩ := List.exists_cons_of_ne_nil hn.ne
  have hd : isSpaceChar d = false := isDigit_not_space (hn.digits d List.mem_cons_self)
  have hxs : ∀ c ∈ xs, isSpaceChar c = false := fun c hc => hword c (List.mem_cons_of_mem _ hc)
  have hnum : ∀ c ∈ ds ++ letter.toList, isSpaceChar c = false := by
    intro c hc
    rcases List.mem_append.mp hc with hc | hc
    · exact isDigit_not_space (hn.digits c (List.mem_cons_of_mem _ hc))
    · exact isAlpha_not_space (hn.letter c (Option.mem_toList.mp hc))
  obtain ⟨g', hg', hnil, htidy⟩ :=
    tidyFrom_separators hg hd (ds ++ letter.toList ++ trail) false
  refine ⟨g', hg', by simpa using hnil, ?_⟩
  have hshape : lead ++ (x :: xs ++ (g ++ (d :: ds ++ letter.toList))) ++ trail =
      lead ++ (x :: (xs ++ (g ++ d :: (ds ++ letter.toList ++ trail)))) := by simp
  unfold tidy
  rw [hshape, tidyFrom_blanks hlead, tidyFrom_first (hword x List.mem_cons_self),
    tidyFrom_word hxs, htidy, tidyFrom_word hnum, tidyFrom_trailing htrail]
  simp

/-! ### The search for an alias -/

/-- The aliases in the order they are tried, each with its rule. -/
def spellings : List (Rule × Str) := rules.flatMap fun r => r.aliases.map fun name => (r, name)

theorem findSome?_flatMap_map {α β γ δ : Type} (l : List α) (f : α → List β) (h : α → β → γ)
    (g : γ → Option δ) : (l.flatMap fun a => (f a).map (h a)).findSome? g =
      l.findSome? fun a => (f a).findSome? fun b => g (h a b) := by
  induction l with
  | nil => rfl
  | cons a l ih =>
    rw [List.flatMap_cons, List.findSome?_append, ih, List.findSome?_map, List.findSome?_cons,
      show g ∘ h a = fun b => g (h a b) from rfl]
    cases (f a).findSome? fun b => g (h a b) with
    | none => rfl
    | some b => rfl

/-- The first alias that applies decides. -/
theorem canonicalize_search (raw : Str) : canonicalize raw =
    if isPlaceholder (lower (tidy raw)) then ⟨tidy raw, [], true, false⟩
    else (spellings.findSome? fun x => applyAlias (tidy raw) x.1 x.2).getD
      ⟨tidy raw, [], false, false⟩ := by
  unfold spellings
  rw [findSome?_flatMap_map]
  rfl

theorem mem_spellings {r : Rule} {name : Str} :
    (r, name) ∈ spellings ↔ r ∈ rules ∧ name ∈ r.aliases := by
  unfold spellings
  simp only [List.mem_flatMap, List.mem_map, Prod.mk.injEq]
  constructor
  · rintro ⟨q, hq, m, hm, rfl, rfl⟩
    exact ⟨hq, hm⟩
  · rintro ⟨hr, hn⟩
    exact ⟨r, hr, name, hn, rfl, rfl⟩

/-- Aliases are words in lower case. -/
theorem spellings_words : ∀ x ∈ spellings, x.2 ≠ [] ∧
    ∀ c ∈ x.2, isSpaceChar c = false ∧ isSeparator c = false := by decide

/-- The name of a number in its own catalog. -/
def fullForm (rule : Rule) (num : Str) : Str := rule.acronym ++ rule.sep :: num

/-- The Messier name of an NGC or IC number. -/
def collapsed (rule : Rule) (num : Str) : Option Str :=
  if rule.acronym = "NGC".toList ∨ rule.acronym = "IC".toList then altToM (fullForm rule num)
  else none

/-- The name a rule gives to a number. -/
def canonicalForm (rule : Rule) (num : Str) : Str := (collapsed rule num).getD (fullForm rule num)

/-- The catalog of that name. -/
def canonicalCatalog (rule : Rule) (num : Str) : Str :=
  if (collapsed rule num).isSome then "M".toList else rule.acronym

/-- What a rule makes of a number. -/
structure NamedBy (rule : Rule) (num : Str) (c : Canon) : Prop where
  canonical : c.canonical = canonicalForm rule num
  catalog : c.catalog = canonicalCatalog rule num
  placeholder : c.placeholder = false

/-- The last step of an alias that applies. -/
theorem namedBy_collapse (s : Str) (rule : Rule) (num : Str) :
    ∃ c, (match collapsed rule num with
      | some m => some (⟨m, "M".toList, false, decide (m ≠ s)⟩ : Canon)
      | none => some ⟨fullForm rule num, rule.acronym, false, decide (fullForm rule num ≠ s)⟩) =
        some c ∧ NamedBy rule num c := by
  cases hc : collapsed rule num with
  | none => exact ⟨_, rfl, by simp [canonicalForm, hc], by simp [canonicalCatalog, hc], rfl⟩
  | some m => exact ⟨_, rfl, by simp [canonicalForm, hc], by simp [canonicalCatalog, hc], rfl⟩

theorem applyAlias_self {rule : Rule} {name a rest : Str} (ha : lower a = name)
    (hhead : (rest.head?.map Char.isAlpha).getD false = false) (hnum : catalogNumber rest ≠ []) :
    ∃ c, applyAlias (a ++ rest) rule name = some c ∧ NamedBy rule (catalogNumber rest) c := by
  have hpre : name.isPrefixOf (lower (a ++ rest)) = true := by
    rw [List.isPrefixOf_iff_prefix, ← ha]
    unfold lower
    rw [List.map_append]
    exact List.prefix_append _ _
  have hlen : name.length = a.length := by
    rw [← ha]
    exact List.length_map _
  unfold applyAlias
  rw [hpre, hlen, List.drop_left' rfl]
  simp only [Bool.not_true, Bool.false_eq_true, if_false, hhead, hnum]
  exact namedBy_collapse (a ++ rest) rule (catalogNumber rest)

/-- An alias that a letter follows does not apply. -/
theorem applyAlias_of_alpha {s : Str} {rule : Rule} {name : Str}
    (h : ((s.drop name.length).head?.map Char.isAlpha).getD false = true) :
    applyAlias s rule name = none := by
  unfold applyAlias
  split
  · rfl
  · exact if_pos h

theorem applyAlias_of_not_prefix {s : Str} {rule : Rule} {name : Str}
    (h : ¬ name <+: lower s) : applyAlias s rule name = none := by
  unfold applyAlias
  have hfalse : name.isPrefixOf (lower s) = false := by
    by_contra hp
    exact h (List.isPrefixOf_iff_prefix.mp (by simpa using hp))
  rw [hfalse]
  rfl

/-- The alias `other` applies to no spelling of `name`: it is no beginning of one, or a letter
follows. -/
def harmless (other name : Str) : Bool :=
  if other.isPrefixOf name then ((name.drop other.length).head?.map Char.isAlpha).getD false
  else if name.isPrefixOf other then ((other.drop name.length).head?.map Char.isAlpha).getD false
  else true

theorem applyAlias_of_harmless {other name a rest : Str} {rule : Rule} (ha : lower a = name)
    (hhead : (rest.head?.map Char.isAlpha).getD false = false) (h : harmless other name = true) :
    applyAlias (a ++ rest) rule other = none := by
  have hlow : lower (a ++ rest) = name ++ lower rest := by
    rw [← ha]
    exact List.map_append
  unfold harmless at h
  split at h
  · next hp =>
    -- The letter of `name` that follows is one of the spelling.
    obtain ⟨t, rfl⟩ := List.isPrefixOf_iff_prefix.mp hp
    rw [List.drop_left'] at h
    · refine applyAlias_of_alpha ?_
      have hlen : (a.drop other.length).map Char.toLower = t := by
        rw [List.map_drop]
        show (lower a).drop other.length = t
        rw [ha]
        exact List.drop_left' rfl
      cases hd : a.drop other.length with
      | nil =>
        rw [hd] at hlen
        rw [← hlen] at h
        cases h
      | cons c cs =>
        have hle : other.length ≤ a.length := by
          by_contra hlt
          rw [List.drop_eq_nil_of_le (by omega)] at hd
          cases hd
        rw [List.drop_append_of_le_length hle, hd]
        rw [hd] at hlen
        rw [← hlen] at h
        exact (isAlpha_toLower c).symm.trans h
    · rfl
  · refine applyAlias_of_not_prefix ?_
    intro hpre
    rw [hlow] at hpre
    split at h
    · next hp =>
      obtain ⟨t, rfl⟩ := List.isPrefixOf_iff_prefix.mp hp
      rw [List.drop_left'] at h
      · rw [List.prefix_append_right_inj] at hpre
        cases t with
        | nil => cases h
        | cons x t =>
          cases rest with
          | nil => exact absurd hpre (by simp [lower])
          | cons c cs =>
            have hx : x = c.toLower := (List.cons_prefix_cons.mp hpre).1
            have halpha : c.isAlpha = true := by
              rw [← isAlpha_toLower, ← hx]
              exact h
            rw [show ((c :: cs).head?.map Char.isAlpha).getD false = c.isAlpha from rfl] at hhead
            rw [hhead] at halpha
            cases halpha
      · rfl
    · next hno hno' =>
      rcases List.prefix_or_prefix_of_prefix hpre (List.prefix_append name _) with hp | hp
      · exact hno (List.isPrefixOf_iff_prefix.mpr hp)
      · exact hno' (List.isPrefixOf_iff_prefix.mpr hp)

/-- Of two aliases the earlier one is harmless to the later, but for `sh2` before `sh`. -/
theorem spellings_harmless : spellings.Pairwise fun x y =>
    harmless x.2 y.2 = true ∨ (x.2 = "sh2".toList ∧ y.2 = "sh".toList) := by decide

/-! ### Spellings -/

theorem not_placeholder {s : Str} (h : ∃ c ∈ s, c.isDigit = true) :
    isPlaceholder (lower s) = false := by
  have hplain : ∀ p ∈ kPlaceholders, ∀ c ∈ p, c.isDigit = false := by decide
  obtain ⟨c, hc, hd⟩ := h
  by_contra hp
  have hmem : lower s ∈ kPlaceholders := by simpa [isPlaceholder] using hp
  have := hplain _ hmem c.toLower (List.mem_map_of_mem hc)
  rw [isDigit_toLower, hd] at this
  cases this

/-- The spelling that another alias takes: no separator, and a number of two digits or more that
begins with a 2, after `sh`. -/
def Captured (name g digits : Str) : Prop :=
  name = "sh".toList ∧ g = [] ∧ ∃ d ds, digits = '2' :: d :: ds

/-- The alias `sh2` leaves the other spellings of `sh` alone. -/
theorem applyAlias_sh2 {a g digits : Str} {letter : Option Char} {rule : Rule}
    (ha : lower a = "sh".toList) (hg : ∀ c ∈ g, isSeparator c = true) (hn : IsNumber digits letter)
    (hfree : ¬ Captured "sh".toList g digits) :
    applyAlias (a ++ (g ++ (digits ++ letter.toList))) rule "sh2".toList = none := by
  by_cases hp : "sh2".toList <+: lower (a ++ (g ++ (digits ++ letter.toList)))
  · have hlow : lower (a ++ (g ++ (digits ++ letter.toList))) =
        "sh".toList ++ lower (g ++ (digits ++ letter.toList)) := by
      rw [← ha]
      exact List.map_append
    rw [hlow] at hp
    have hhead : ['2'] <+: lower (g ++ (digits ++ letter.toList)) :=
      (List.prefix_append_right_inj "sh".toList).mp hp
    obtain ⟨d, ds, hd⟩ := List.exists_cons_of_ne_nil hn.ne
    have hdig := hn.digits d (by rw [hd]; exact List.mem_cons_self)
    cases g with
    | cons c g =>
      have hc : '2' = c.toLower := (List.cons_prefix_cons.mp hhead).1
      rcases isSeparator_iff.mp (hg c List.mem_cons_self) with rfl | rfl | rfl <;>
        exact absurd hc (by decide)
    | nil =>
      rw [hd] at hhead
      have h2 : '2' = d := by
        rw [← toLower_eq_self_of_isDigit hdig]
        exact (List.cons_prefix_cons.mp hhead).1
      subst h2
      cases ds with
      | cons e ds => exact absurd ⟨rfl, rfl, e, ds, hd⟩ hfree
      | nil =>
        have hlen : a.length = 2 := by
          rw [← List.length_map (f := Char.toLower)]
          exact congrArg List.length ha
        have hdrop : (a ++ ('2' :: letter.toList)).drop "sh2".toList.length = letter.toList := by
          show (a ++ ('2' :: letter.toList)).drop 3 = _
          rw [show 3 = a.length + 1 by omega, List.drop_append, List.drop_eq_nil_of_le (by omega),
            Nat.add_sub_cancel_left]
          rfl
        rw [hd]
        show applyAlias (a ++ ('2' :: letter.toList)) rule "sh2".toList = none
        cases letter with
        | some l =>
          refine applyAlias_of_alpha ?_
          rw [hdrop]
          exact hn.letter l rfl
        | none =>
          unfold applyAlias
          rw [hdrop]
          split <;> rfl
  · exact applyAlias_of_not_prefix hp

variable {rule : Rule} {name lead a g digits trail : Str} {letter : Option Char}

/-- A spelling that is not captured gets the form of its rule. -/
theorem canonicalize_of_not_captured (hrule : rule ∈ rules) (hname : name ∈ rule.aliases)
    (ha : lower a = name) (hlead : ∀ c ∈ lead, isSpaceChar c = true)
    (hg : ∀ c ∈ g, isSeparator c = true) (hn : IsNumber digits letter)
    (htrail : ∀ c ∈ trail, isSpaceChar c = true) (hfree : ¬ Captured name g digits) :
    NamedBy rule (numberText digits letter)
      (canonicalize (lead ++ (a ++ (g ++ (digits ++ letter.toList))) ++ trail)) := by
  have hx : (rule, name) ∈ spellings := mem_spellings.mpr ⟨hrule, hname⟩
  obtain ⟨hne, hchars⟩ := spellings_words _ hx
  have hword : ∀ c ∈ a, isSpaceChar c = false := by
    intro c hc
    rw [← isSpaceChar_toLower]
    refine (hchars c.toLower ?_).1
    show c.toLower ∈ name
    rw [← ha]
    exact List.mem_map_of_mem hc
  have hane : a ≠ [] := by
    rintro rfl
    exact hne ha.symm
  obtain ⟨g', hg', hnil, htidy⟩ := tidy_spelled hlead hane hword hg hn htrail
  have hfree' : ¬ Captured name g' digits := by
    unfold Captured at hfree ⊢
    rw [hnil]
    exact hfree
  have hhead := head_not_alpha hg' hn
  have hnum := catalogNumber_eq hg' hn
  obtain ⟨c, hself, hcanon⟩ : ∃ c, applyAlias (a ++ (g' ++ (digits ++ letter.toList))) rule name =
      some c ∧ NamedBy rule (catalogNumber (g' ++ (digits ++ letter.toList))) c :=
    applyAlias_self ha hhead (by rw [hnum]; exact numberText_ne_nil hn)
  obtain ⟨before, after, hsplit⟩ := List.append_of_mem hx
  have hnone : ∀ y ∈ before, applyAlias (a ++ (g' ++ (digits ++ letter.toList))) y.1 y.2 = none := by
    intro y hy
    have hpair := spellings_harmless
    rw [hsplit, List.pairwise_append] at hpair
    rcases hpair.2.2 y hy _ List.mem_cons_self with hh | ⟨h2, hsh⟩
    · exact applyAlias_of_harmless ha hhead hh
    · rw [h2]
      have hsh' : name = "sh".toList := hsh
      rw [hsh'] at ha hfree'
      exact applyAlias_sh2 ha hg' hn hfree'
  have hplace : isPlaceholder (lower (a ++ (g' ++ (digits ++ letter.toList)))) = false := by
    obtain ⟨d, ds, hd⟩ := List.exists_cons_of_ne_nil hn.ne
    refine not_placeholder ⟨d, ?_, hn.digits d (by rw [hd]; exact List.mem_cons_self)⟩
    simp [hd]
  rw [canonicalize_search, htidy, hplace, hsplit, List.findSome?_append,
    List.findSome?_eq_none_iff.mpr hnone, List.findSome?_cons]
  dsimp only
  rw [hself, ← hnum]
  exact hcanon

theorem lower_alias (hrule : rule ∈ rules) (hname : name ∈ rule.aliases) : lower name = name := by
  have hall : ∀ x ∈ spellings, lower x.2 = x.2 := by decide
  exact hall (rule, name) (mem_spellings.mpr ⟨hrule, hname⟩)

/-- The rule of `sh` is also that of `sh2`. -/
theorem rule_of_sh (hrule : rule ∈ rules) (hname : "sh".toList ∈ rule.aliases) :
    "sh2".toList ∈ rule.aliases ∧ ∀ num, canonicalForm rule num = "Sh2-".toList ++ num := by
  have hall : ∀ x ∈ spellings, x.2 = "sh".toList →
      "sh2".toList ∈ x.1.aliases ∧ x.1.acronym = "Sh2".toList ∧ x.1.sep = '-' := by decide
  obtain ⟨hmem, hacronym, hsep⟩ := hall _ (mem_spellings.mpr ⟨hrule, hname⟩) rfl
  refine ⟨hmem, fun num => ?_⟩
  unfold canonicalForm collapsed fullForm
  rw [hacronym, hsep]
  rfl

theorem IsNumber.respelled {letter' : Option Char} (hn : IsNumber digits letter)
    (h : letter.map Char.toLower = letter'.map Char.toLower) :
    IsNumber digits letter' ∧ numberText digits letter' = numberText digits letter := by
  cases letter with
  | none =>
    cases letter' with
    | none => exact ⟨hn, rfl⟩
    | some l => cases h
  | some l =>
    cases letter' with
    | none => cases h
    | some l' =>
      have hl : l.toLower = l'.toLower := Option.some.inj h
      refine ⟨⟨hn.ne, hn.digits, ?_⟩, ?_⟩
      · rintro c hc
        cases hc
        rw [← isAlpha_toLower, ← hl, isAlpha_toLower]
        exact hn.letter l rfl
      · show digits ++ [l'.toUpper] = digits ++ [l.toUpper]
        rw [toUpper_eq_of_toLower_eq hl]

/-- **Spacing and case do not count, but for one spelling.**  An alias in any case, any separators, a
number with its letter in any case and any blanks around them have the canonical form of the alias,
one blank and the number, exactly if the spelling is not captured. -/
theorem canonicalize_spelled_iff {letter' : Option Char} (hrule : rule ∈ rules)
    (hname : name ∈ rule.aliases) (hn : IsNumber digits letter)
    (hletter : letter.map Char.toLower = letter'.map Char.toLower) (ha : lower a = name)
    (hlead : ∀ c ∈ lead, isSpaceChar c = true) (hg : ∀ c ∈ g, isSeparator c = true)
    (htrail : ∀ c ∈ trail, isSpaceChar c = true) :
    (canonicalize (lead ++ (a ++ (g ++ (digits ++ letter'.toList))) ++ trail)).canonical =
        (canonicalize (name ++ ' ' :: (digits ++ letter.toList))).canonical ↔
      ¬ Captured name g digits := by
  obtain ⟨hn', htext⟩ := hn.respelled hletter
  have hplain : (canonicalize (name ++ ' ' :: (digits ++ letter.toList))).canonical =
      canonicalForm rule (numberText digits letter) := by
    have hnil : ∀ c ∈ ([] : Str), isSpaceChar c = true := nofun
    have h := canonicalize_of_not_captured (g := [' ']) hrule hname (lower_alias hrule hname) hnil
      (by simp [isSeparator]) hn hnil fun hc => by cases hc.2.1
    rw [List.append_nil] at h
    exact h.canonical
  rw [hplain]
  by_cases hcap : Captured name g digits
  · refine iff_of_false ?_ (not_not.mpr hcap)
    obtain ⟨rfl, rfl, d, ds, rfl⟩ := hcap
    obtain ⟨hsh2, hform⟩ := rule_of_sh hrule hname
    have htaken : IsNumber (d :: ds) letter' :=
      ⟨by simp, fun c hc => hn.digits c (List.mem_cons_of_mem _ hc), hn'.letter⟩
    -- The first digit goes with the alias.
    have hshape : lead ++ (a ++ ([] ++ ('2' :: d :: ds ++ letter'.toList))) ++ trail =
        lead ++ (a ++ ['2'] ++ ([] ++ (d :: ds ++ letter'.toList))) ++ trail := by simp
    have hlow : lower (a ++ ['2']) = "sh2".toList := by
      show (a ++ ['2']).map Char.toLower = _
      rw [List.map_append, show a.map Char.toLower = "sh".toList from ha]
      rfl
    have htaken' := canonicalize_of_not_captured (g := []) hrule hsh2 hlow hlead nofun htaken htrail
      fun hc => absurd hc.1 (by decide)
    rw [hshape, htaken'.canonical, hform, hform]
    intro heq
    have hlen := congrArg List.length heq
    unfold numberText at hlen htext
    rw [← htext] at hlen
    simp at hlen
  · rw [(canonicalize_of_not_captured hrule hname ha hlead hg hn' htrail hcap).canonical, htext]
    exact iff_of_true rfl hcap

/-- `  Sh_ 2199 ` is `Sh2-2199`. -/
theorem canonicalize_spelled_sh :
    (canonicalize ("  ".toList ++ ("Sh".toList ++ ("_ ".toList ++ ("2199".toList ++ [])))
        ++ " ".toList)).canonical = (canonicalize ("sh".toList ++ ' ' :: ("2199".toList ++ []))).canonical := by
  have hrule : ∃ r ∈ rules, "sh".toList ∈ r.aliases := by decide
  obtain ⟨r, hr, hname⟩ := hrule
  have hn : IsNumber "2199".toList none := ⟨by decide, by decide, by simp⟩
  have hletter : (none : Option Char).map Char.toLower = (none : Option Char).map Char.toLower := rfl
  exact (canonicalize_spelled_iff hr hname hn hletter (by decide) (by decide) (by decide)
    (by decide)).mpr fun h => by cases h.2.1

/-- `sh2199` is not. -/
theorem sh2199_captured : "sh".toList ∈ (rules.flatMap Rule.aliases) ∧
    (canonicalize "sh2199".toList).canonical ≠ (canonicalize "sh 2199".toList).canonical := by
  decide

end StarBase.Names

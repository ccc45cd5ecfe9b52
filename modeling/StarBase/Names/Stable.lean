import Mathlib.Data.List.Nodup
import Mathlib.Data.List.TakeWhile
import StarBase.Names.Spelling

/-!
# Canonical names are stable

What canonicalization makes of a name is fed back to it by a search and by the next resolution of the
same frame.

* `tidy_tidy` — tidying twice is tidying once;
* `canonicalize_cases` — a name is tidied only, or named by a rule;
* `canonical_stable_designations_closed` — **PROVED**: a canonical name is its own canonical name, a
  placeholder stays one, and every designation of a name has the designations of the name.
-/

namespace StarBase.Names

/-! ### Tidying -/

theorem tidyFrom_tidyFrom (sp : Bool) (s : Str) :
    tidyFrom true false (tidyFrom true sp s) = tidyFrom true sp s := by
  induction s generalizing sp with
  | nil => rfl
  | cons c s ih =>
    by_cases hc : isSpaceChar c = true
    · have hskip : tidyFrom true sp (c :: s) = tidyFrom true true s := if_pos hc
      rw [hskip]
      exact ih true
    · have hplain : ∀ t, tidyFrom true false (c :: t) = c :: tidyFrom true false t := by
        intro t
        show (if isSpaceChar c then _ else if false = true then _ else _) = _
        rw [if_neg hc, if_neg (by decide)]
      have hblank : ∀ t, tidyFrom true true (c :: t) = ' ' :: c :: tidyFrom true false t := by
        intro t
        show (if isSpaceChar c then _ else if true = true then _ else _) = _
        rw [if_neg hc, if_pos rfl]
      cases sp with
      | false => rw [hplain, hplain, ih false]
      | true =>
        have hfirst : ∀ t, tidyFrom true false (' ' :: t) = tidyFrom true true t := fun _ => rfl
        rw [hblank, hfirst, hblank, ih false]

theorem tidy_tidy (s : Str) : tidy (tidy s) = tidy s := by
  unfold tidy
  induction s with
  | nil => rfl
  | cons c s ih =>
    by_cases hc : isSpaceChar c = true
    · have hskip : tidyFrom false false (c :: s) = tidyFrom false false s := if_pos hc
      rw [hskip]
      exact ih
    · have hc' : isSpaceChar c = false := by simpa using hc
      rw [tidyFrom_first hc', tidyFrom_first hc', tidyFrom_tidyFrom]

theorem canonicalize_tidy (s : Str) : canonicalize (tidy s) = canonicalize s := by
  unfold canonicalize
  rw [tidy_tidy]

/-! ### Names a rule gives -/

theorem catalogNumber_cases {rest : Str} (h : catalogNumber rest ≠ []) :
    ∃ digits letter, IsNumber digits letter ∧ catalogNumber rest = numberText digits letter := by
  obtain ⟨num, hnum⟩ : ∃ num, num = rest.dropWhile fun c => c = ' ' || c = '_' || c = '-' := ⟨_, rfl⟩
  have hdigits : ∀ c ∈ num.takeWhile Char.isDigit, c.isDigit = true :=
    fun c hc => List.mem_takeWhile_imp hc
  have hsplit := List.takeWhile_append_dropWhile (p := Char.isDigit) (l := num)
  unfold catalogNumber at h ⊢
  rw [← hnum] at h ⊢
  dsimp only at h ⊢
  by_cases hd : num.takeWhile Char.isDigit = []
  · rw [if_pos hd] at h
    exact absurd rfl h
  · rw [if_neg hd] at h ⊢
    cases hrest : num.dropWhile Char.isDigit with
    | nil =>
      rw [hrest, List.append_nil] at hsplit
      exact ⟨_, none, ⟨hd, hdigits, nofun⟩, by rw [hsplit]; exact (List.append_nil _).symm⟩
    | cons c cs =>
      rw [hrest] at h
      cases cs with
      | cons d ds => exact absurd rfl h
      | nil =>
        by_cases hc : c.isAlpha = true
        · exact ⟨_, some c, ⟨hd, hdigits, by simpa using hc⟩, if_pos hc⟩
        · exact absurd (if_neg hc) h

/-- An alias that applies names by its rule. -/
theorem applyAlias_some {s : Str} {rule : Rule} {name : Str} {c : Canon}
    (h : applyAlias s rule name = some c) :
    ∃ digits letter, IsNumber digits letter ∧ NamedBy rule (numberText digits letter) c := by
  unfold applyAlias at h
  by_cases hpre : (!name.isPrefixOf (lower s)) = true
  · rw [if_pos hpre] at h
    cases h
  · rw [if_neg hpre] at h
    dsimp only at h
    by_cases halpha : ((s.drop name.length).head?.map Char.isAlpha).getD false = true
    · rw [if_pos halpha] at h
      cases h
    · rw [if_neg halpha] at h
      by_cases hnum : catalogNumber (s.drop name.length) = []
      · rw [if_pos hnum] at h
        cases h
      · rw [if_neg hnum] at h
        obtain ⟨digits, letter, hn, htext⟩ := catalogNumber_cases hnum
        obtain ⟨c', hc', hnamed⟩ := namedBy_collapse s rule (catalogNumber (s.drop name.length))
        have hsame : c' = c := Option.some.inj (hc'.symm.trans h)
        rw [hsame, htext] at hnamed
        exact ⟨digits, letter, hn, hnamed⟩

/-- A name is tidied only, or named by a rule. -/
theorem canonicalize_cases (s : Str) :
    ((canonicalize s).canonical = tidy s ∧ (canonicalize s).catalog = []) ∨
      ∃ rule ∈ rules, ∃ digits letter, IsNumber digits letter ∧
        NamedBy rule (numberText digits letter) (canonicalize s) := by
  rw [canonicalize_search]
  by_cases hp : isPlaceholder (lower (tidy s)) = true
  · rw [if_pos hp]
    exact Or.inl ⟨rfl, rfl⟩
  · rw [if_neg hp]
    cases hc : spellings.findSome? fun x => applyAlias (tidy s) x.1 x.2 with
    | none => exact Or.inl ⟨rfl, rfl⟩
    | some c =>
      obtain ⟨x, hx, hxc⟩ := List.exists_of_findSome?_eq_some hc
      exact Or.inr ⟨x.1, (mem_spellings.mp hx).1, applyAlias_some hxc⟩

/-! ### The name of a number, named again -/

/-- The alias a rule's own acronym spells; the Caldwell acronym `C` is no alias. -/
theorem rules_acronym : ∀ r ∈ rules, isSeparator r.sep = true ∧
    (lower r.acronym ∈ r.aliases ∨ (r.acronym = "C".toList ∧ r.sep = ' ')) := by decide

/-- The number a rule emits is a number. -/
theorem IsNumber.emitted {digits : Str} {letter : Option Char} (h : IsNumber digits letter) :
    IsNumber digits (letter.map Char.toUpper) ∧
      numberText digits (letter.map Char.toUpper) = numberText digits letter := by
  cases letter with
  | none => exact ⟨h, rfl⟩
  | some l =>
    refine ⟨⟨h.ne, h.digits, ?_⟩, ?_⟩
    · rintro c hc
      cases hc
      exact isAlpha_toUpper l (h.letter l rfl)
    · show digits ++ [l.toUpper.toUpper] = digits ++ [l.toUpper]
      rw [toUpper_toUpper]

theorem namedBy_fullForm {rule : Rule} (hrule : rule ∈ rules) (hmem : lower rule.acronym ∈ rule.aliases)
    {digits : Str} {letter : Option Char} (hn : IsNumber digits letter) :
    NamedBy rule (numberText digits letter)
      (canonicalize (fullForm rule (numberText digits letter))) := by
  obtain ⟨hn', htext⟩ := hn.emitted
  have hsep := (rules_acronym rule hrule).1
  have hfree : ¬ Captured (lower rule.acronym) [rule.sep] digits := fun h => by cases h.2.1
  have hnil : ∀ c ∈ ([] : Str), isSpaceChar c = true := nofun
  have h := canonicalize_of_not_captured (g := [rule.sep]) hrule hmem rfl hnil (by simpa using hsep)
    hn' hnil hfree
  rw [htext, List.append_nil] at h
  exact h

/-- No alias applies to a Caldwell name. -/
theorem canonicalize_caldwell {digits : Str} {letter : Option Char} (hn : IsNumber digits letter) :
    canonicalize ("C ".toList ++ numberText digits letter) =
      ⟨"C ".toList ++ numberText digits letter, [], false, false⟩ := by
  obtain ⟨d, ds, hd⟩ := List.exists_cons_of_ne_nil hn.ne
  have hdig := hn.digits d (by rw [hd]; exact List.mem_cons_self)
  have htidy : tidy ("C ".toList ++ numberText digits letter) =
      "C ".toList ++ numberText digits letter := by
    have hword : ∀ c ∈ ds ++ (letter.map Char.toUpper).toList, isSpaceChar c = false := by
      intro c hc
      rcases List.mem_append.mp hc with hc | hc
      · exact isDigit_not_space (hn.digits c (by rw [hd]; exact List.mem_cons_of_mem _ hc))
      · obtain ⟨l, hl, rfl⟩ := Option.map_eq_some_iff.mp (Option.mem_toList.mp hc)
        exact isAlpha_not_space (isAlpha_toUpper l (hn.letter l hl))
    have hblank : tidyFrom true true (d :: (ds ++ (letter.map Char.toUpper).toList)) =
        ' ' :: d :: tidyFrom true false (ds ++ (letter.map Char.toUpper).toList) := by
      show (if isSpaceChar d then _ else if true = true then _ else _) = _
      rw [if_neg (by rw [isDigit_not_space hdig]; decide), if_pos rfl]
    have hrest := tidyFrom_word hword []
    rw [List.append_nil] at hrest
    unfold numberText
    rw [hd]
    show 'C' :: tidyFrom true true (d :: (ds ++ (letter.map Char.toUpper).toList)) = _
    rw [hblank, hrest]
    exact congrArg ('C' :: ' ' :: d :: ·) (List.append_nil _)
  have hplace : isPlaceholder (lower ("C ".toList ++ numberText digits letter)) = false :=
    not_placeholder ⟨d, by simp [numberText, hd], hdig⟩
  have hnone : ∀ x ∈ spellings, applyAlias ("C ".toList ++ numberText digits letter) x.1 x.2 = none := by
    intro x hx
    refine applyAlias_of_not_prefix ?_
    intro hpre
    obtain ⟨hne, hchars⟩ := spellings_words x hx
    have hno : ∀ x ∈ spellings, x.2 ≠ "c".toList := by decide
    cases hname : x.2 with
    | nil => exact hne hname
    | cons c cs =>
      rw [hname] at hpre
      obtain ⟨hc, hcs⟩ := List.cons_prefix_cons.mp hpre
      cases cs with
      | nil => exact hno x hx (by rw [hname, hc]; rfl)
      | cons e es =>
        have he : e = ' ' := (List.cons_prefix_cons.mp hcs).1
        have hsep := (hchars e (by rw [hname]; simp)).2
        rw [he] at hsep
        cases hsep
  rw [canonicalize_search, htidy, hplace, List.findSome?_eq_none_iff.mpr hnone]
  rfl

/-! ### Messier names and their equivalents -/

theorem find_of_key {α β : Type} [DecidableEq β] {l : List α} {f : α → β} (hf : (l.map f).Nodup) {e : α}
    (he : e ∈ l) : (l.find? fun x => f x = f e) = some e := by
  cases h : l.find? fun x => f x = f e with
  | none =>
    have hno := List.find?_eq_none.mp h e he
    simp at hno
  | some x =>
    have hkey : f x = f e := by simpa using List.find?_some h
    rw [List.inj_on_of_nodup_map hf (List.mem_of_find?_eq_some h) he hkey]

theorem otherNames_nodup : (messierXref.map otherName).Nodup := by
  have hkeys : (messierXref.map Prod.snd).Nodup := by decide
  have hname : Function.Injective fun k : Bool × ℕ =>
      (if k.1 then "NGC ".toList else "IC ".toList) ++ natText k.2 := by
    rintro ⟨a, m⟩ ⟨b, n⟩ h
    cases a <;> cases b
    · exact congrArg (Prod.mk false) (natText_inj (List.append_cancel_left h))
    · cases h
    · cases h
    · exact congrArg (Prod.mk true) (natText_inj (List.append_cancel_left h))
  have h := List.Nodup.map hname hkeys
  rwa [List.map_map] at h

/-- An equivalent is found by its name. -/
theorem altToM_otherName {e : ℕ × Bool × ℕ} (he : e ∈ messierXref) :
    altToM (otherName e) = some (messierName e) := by
  unfold altToM
  rw [find_of_key otherNames_nodup he]
  rfl

theorem isNumber_natText (n : ℕ) : IsNumber (natText n) none :=
  ⟨natText_ne_nil n, fun _ => isDigit_natText, nofun⟩

theorem numberText_natText (n : ℕ) : numberText (natText n) none = natText n := List.append_nil _

/-- The catalog of a name in the cross-reference. -/
theorem exists_rule {acronym : Str} (h : acronym ∈ ["M".toList, "NGC".toList, "IC".toList]) :
    ∃ r ∈ rules, r.acronym = acronym ∧ r.sep = ' ' ∧ lower r.acronym ∈ r.aliases := by
  simp only [List.mem_cons, List.not_mem_nil, or_false] at h
  rcases h with rfl | rfl | rfl
  · exact ⟨⟨"M".toList, ' ', ["messier".toList, "m".toList]⟩, by simp [rules], rfl, rfl, by decide⟩
  · exact ⟨⟨"NGC".toList, ' ', ["ngc".toList]⟩, by simp [rules], rfl, rfl, by decide⟩
  · exact ⟨⟨"IC".toList, ' ', ["ic".toList]⟩, by simp [rules], rfl, rfl, by decide⟩

/-- What a number is named in one of the catalogs of the cross-reference. -/
theorem canonicalize_number {acronym : Str} (h : acronym ∈ ["M".toList, "NGC".toList, "IC".toList])
    (n : ℕ) : ∃ r, r.acronym = acronym ∧ fullForm r (natText n) = acronym ++ ' ' :: natText n ∧
      NamedBy r (natText n) (canonicalize (acronym ++ ' ' :: natText n)) := by
  obtain ⟨r, hr, rfl, hsep, hmem⟩ := exists_rule h
  have hfull : fullForm r (natText n) = r.acronym ++ ' ' :: natText n := by
    unfold fullForm
    rw [hsep]
  have hnamed := namedBy_fullForm hr hmem (isNumber_natText n)
  rw [numberText_natText, hfull] at hnamed
  exact ⟨r, rfl, hfull, hnamed⟩

/-- A Messier name is its own canonical name. -/
theorem canonicalize_messierName (e : ℕ × Bool × ℕ) :
    (canonicalize (messierName e)).canonical = messierName e ∧
      (canonicalize (messierName e)).catalog = "M".toList ∧
      (canonicalize (messierName e)).placeholder = false := by
  obtain ⟨r, hr, hfull, hnamed⟩ := canonicalize_number (show "M".toList ∈ _ by decide) e.1
  have hcol : collapsed r (natText e.1) = none := by
    unfold collapsed
    rw [hr]
    rfl
  refine ⟨hnamed.canonical.trans ?_, hnamed.catalog.trans ?_, hnamed.placeholder⟩
  · unfold canonicalForm
    rw [hcol]
    exact hfull
  · unfold canonicalCatalog
    rw [hcol]
    exact hr

/-- Its equivalent is canonicalized to it. -/
theorem canonicalize_otherName {e : ℕ × Bool × ℕ} (he : e ∈ messierXref) :
    (canonicalize (otherName e)).canonical = messierName e ∧
      (canonicalize (otherName e)).catalog = "M".toList := by
  obtain ⟨acronym, hacronym, hname⟩ : ∃ acronym ∈ ["NGC".toList, "IC".toList],
      otherName e = acronym ++ ' ' :: natText e.2.2 := by
    unfold otherName
    cases e.2.1 with
    | true => exact ⟨"NGC".toList, by decide, rfl⟩
    | false => exact ⟨"IC".toList, by decide, rfl⟩
  obtain ⟨r, hr, hfull, hnamed⟩ := canonicalize_number (List.mem_cons_of_mem _ hacronym) e.2.2
  rw [← hname] at hfull hnamed
  have hcol : collapsed r (natText e.2.2) = some (messierName e) := by
    unfold collapsed
    rw [if_pos (by simpa [hr] using hacronym), hfull]
    exact altToM_otherName he
  refine ⟨hnamed.canonical.trans ?_, hnamed.catalog.trans ?_⟩
  · unfold canonicalForm
    rw [hcol]
    rfl
  · unfold canonicalCatalog
    rw [hcol]
    rfl

/-! ### The laws -/

theorem mem_altToM {full m : Str} (h : altToM full = some m) :
    ∃ e ∈ messierXref, otherName e = full ∧ messierName e = m := by
  obtain ⟨e, he, hm⟩ := Option.map_eq_some_iff.mp h
  exact ⟨e, List.mem_of_find?_eq_some he, by simpa using List.find?_some he, hm⟩

theorem mem_mToAlt {m alt : Str} (h : mToAlt m = some alt) :
    ∃ e ∈ messierXref, messierName e = m ∧ otherName e = alt := by
  obtain ⟨e, he, halt⟩ := Option.map_eq_some_iff.mp h
  exact ⟨e, List.mem_of_find?_eq_some he, by simpa using List.find?_some he, halt⟩

/-- The canonical name of `c` canonicalizes to what `c` is. -/
structure StableAs (c d : Canon) : Prop where
  canonical : d.canonical = c.canonical
  placeholder : d.placeholder = c.placeholder
  messier : d.catalog = "M".toList ↔ c.catalog = "M".toList

theorem rules_caldwell : ∀ r ∈ rules, r.acronym = "C".toList → r.acronym ≠ "M".toList ∧
    ∀ num, collapsed r num = none ∧ fullForm r num = "C ".toList ++ num := by
  intro r hr hc
  have hsep : r.sep = ' ' := by
    have hall : ∀ r ∈ rules, r.acronym = "C".toList → r.sep = ' ' := by decide
    exact hall r hr hc
  refine ⟨by rw [hc]; decide, fun num => ⟨?_, ?_⟩⟩
  · unfold collapsed
    rw [hc]
    rfl
  · unfold fullForm
    rw [hc, hsep]
    rfl

theorem stable_of_namedBy {rule : Rule} (hrule : rule ∈ rules) {digits : Str} {letter : Option Char}
    (hn : IsNumber digits letter) {c : Canon} (hc : NamedBy rule (numberText digits letter) c) :
    StableAs c (canonicalize c.canonical) := by
  rw [hc.canonical]
  unfold canonicalForm
  cases hcol : collapsed rule (numberText digits letter) with
  | some m =>
    -- An NGC or IC number with a Messier name.
    have hm : altToM (fullForm rule (numberText digits letter)) = some m := by
      unfold collapsed at hcol
      split at hcol
      · exact hcol
      · cases hcol
    obtain ⟨e, he, -, rfl⟩ := mem_altToM hm
    obtain ⟨hcanon, hcat, hplace⟩ := canonicalize_messierName e
    refine ⟨?_, ?_, ?_⟩
    · rw [hc.canonical]
      unfold canonicalForm
      rw [hcol]
      exact hcanon
    · rw [hc.placeholder]
      exact hplace
    · rw [hc.catalog]
      unfold canonicalCatalog
      rw [hcol]
      exact iff_of_true hcat rfl
  | none =>
    have hfull : c.canonical = fullForm rule (numberText digits letter) := by
      rw [hc.canonical]
      unfold canonicalForm
      rw [hcol]
      rfl
    have hcat : c.catalog = rule.acronym := by
      rw [hc.catalog]
      unfold canonicalCatalog
      rw [hcol]
      rfl
    rcases (rules_acronym rule hrule).2 with hmem | ⟨hC, -⟩
    · have hagain := namedBy_fullForm hrule hmem hn
      refine ⟨?_, ?_, ?_⟩
      · rw [hc.canonical]
        exact hagain.canonical
      · rw [hc.placeholder]
        exact hagain.placeholder
      · rw [hc.catalog]
        exact Iff.of_eq (congrArg (· = "M".toList) hagain.catalog)
    · obtain ⟨hne, hforms⟩ := rules_caldwell rule hrule hC
      have hform : fullForm rule (numberText digits letter) = "C ".toList ++ numberText digits letter :=
        (hforms _).2
      show StableAs c (canonicalize (fullForm rule (numberText digits letter)))
      rw [hform, canonicalize_caldwell hn]
      refine ⟨?_, hc.placeholder.symm, iff_of_false nofun ?_⟩
      · rw [hfull, hform]
      · rw [hcat]
        exact hne

theorem stable (s : Str) : StableAs (canonicalize s) (canonicalize (canonicalize s).canonical) := by
  rcases canonicalize_cases s with ⟨htidy, -⟩ | ⟨rule, hrule, digits, letter, hn, hnamed⟩
  · rw [htidy, canonicalize_tidy]
    exact ⟨rfl, rfl, Iff.rfl⟩
  · exact stable_of_namedBy hrule hn hnamed

theorem designations_of_stable {s d : Str} (h : StableAs (canonicalize s) (canonicalize d)) :
    designations d = designations s := by
  unfold designations
  dsimp only
  rw [h.canonical]
  by_cases hm : (canonicalize s).catalog = "M".toList
  · rw [if_pos hm, if_pos (h.messier.mpr hm)]
  · rw [if_neg hm, if_neg fun hd => hm (h.messier.mp hd)]

/-- **Canonical names are stable, and designations form classes.** -/
theorem canonical_stable_designations_closed (s : Str) :
    (canonicalize (canonicalize s).canonical).canonical = (canonicalize s).canonical ∧
      (canonicalize (canonicalize s).canonical).placeholder = (canonicalize s).placeholder ∧
      ∀ d ∈ designations s, ∀ x, x ∈ designations d ↔ x ∈ designations s := by
  refine ⟨(stable s).canonical, (stable s).placeholder, ?_⟩
  intro d hd x
  suffices h : designations d = designations s by rw [h]
  unfold designations at hd
  dsimp only at hd
  by_cases hm : (canonicalize s).catalog = "M".toList
  · rw [if_pos hm] at hd
    rcases List.mem_cons.mp hd with rfl | hd
    · exact designations_of_stable (stable s)
    · -- The NGC or IC name of a Messier object.
      obtain ⟨e, he, hname, rfl⟩ := mem_mToAlt (Option.mem_toList.mp hd)
      obtain ⟨hcanon, hcat⟩ := canonicalize_otherName he
      unfold designations
      dsimp only
      rw [if_pos hcat, if_pos hm, hcanon, hname]
  · rw [if_neg hm] at hd
    rw [List.mem_singleton.mp hd]
    exact designations_of_stable (stable s)

end StarBase.Names

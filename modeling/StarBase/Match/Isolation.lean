import StarBase.Lib.Batch
import StarBase.Match.Ranking

/-!
# Rules that do not read

A rule's document is a text.  One that does not parse costs the rule a warning; of one that parses,
the loop over its fields takes for granted that it is an object and that each spec has the type it
expects.

* `wellFormed` — an object whose known fields have readable specs;
* `Isolated` — every other rule is answered with the warning, and the rest as if it were not there;
* `isolated_iff` — **PROVED**: malformed rules are isolated exactly if each of them fails to parse.
-/

namespace StarBase.Match

open Relational Extract Api Batch

section Isolation

variable [Host] {instant : Str → Option Micros} {db : EquipDb} {L : LightKey}
  {rule : CalibrationRule} {rules : List CalibrationRule}

omit [Host] in
/-- The fields of an object are read exactly if every known one has a readable spec. -/
theorem ruleSpecs_ok_iff {fields : List (Str × Json)} :
    (∃ specs, ruleSpecs (.obj fields) = .ok specs) ↔
      ∀ m ∈ fields, m.1 ∈ matchFields → ∃ s, parseSpec m.2 = .ok s := by
  show (∃ specs, ((fields.filter fun m => matchFields.contains m.1).mapM fun m =>
    (parseSpec m.2).map fun s => (m.1, s)) = .ok specs) ↔ _
  rw [exists_mapM_ok]
  constructor
  · intro h m hm hk
    obtain ⟨r, hr⟩ := h m (List.mem_filter.mpr ⟨hm, List.contains_iff_mem.mpr hk⟩)
    cases hs : parseSpec m.2 with
    | ok s => exact ⟨s, rfl⟩
    | error e =>
      rw [hs] at hr
      cases hr
  · intro h m hm
    rw [List.mem_filter] at hm
    obtain ⟨s, hs⟩ := h m hm.1 (List.contains_iff_mem.mp hm.2)
    exact ⟨(m.1, s), by rw [hs]; rfl⟩

/-- A rule's document is an object, and its known fields have readable specs. -/
def wellFormed (rule : CalibrationRule) : Bool :=
  match rule.matchJson with
  | .ok (.obj fields) => fields.all fun m => !matchFields.contains m.1 || (parseSpec m.2).isOk
  | _ => false

/-- The answer to a rule that does not read. -/
def warningResult (rule : CalibrationRule) : MatchResult :=
  ⟨rule.targetType, rule.name, [], "rule has invalid match_json".toList⟩

/-- The match does not throw, has one result for each rule, in order, the warning for a malformed one,
and for the others those it has without the malformed ones. -/
def Isolated (instant : Str → Option Micros) (db : EquipDb) (L : LightKey)
    (rules : List CalibrationRule) : Prop :=
  ∃ rs, matchCalibration instant db rules L = .ok rs ∧ rs.length = rules.length ∧
    (∀ x ∈ rules.zip rs, wellFormed x.1 = false → x.2 = warningResult x.1) ∧
    matchCalibration instant db (rules.filter wellFormed) L =
      .ok (((rules.zip rs).filter fun x => wellFormed x.1).map Prod.snd)

theorem matchRule_of_error {e : Str} (h : rule.matchJson = .error e) :
    matchRule instant db L rule = .ok (warningResult rule) := by
  unfold matchRule
  rw [h]
  rfl

omit [Host] in
theorem wellFormed_iff : wellFormed rule = true ↔
    ∃ fields specs, rule.matchJson = .ok (.obj fields) ∧ ruleSpecs (.obj fields) = .ok specs := by
  have hok : ∀ {v : Json}, (parseSpec v).isOk = true ↔ ∃ s, parseSpec v = .ok s := by
    intro v
    cases parseSpec v with
    | ok s => exact iff_of_true rfl ⟨s, rfl⟩
    | error e => exact iff_of_false nofun nofun
  unfold wellFormed
  cases rule.matchJson with
  | error e => exact iff_of_false nofun nofun
  | ok j =>
    cases j with
    | obj fields =>
      have hspecs : (∃ specs, ruleSpecs (.obj fields) = .ok specs) ↔ _ := ruleSpecs_ok_iff
      constructor
      · intro h
        obtain ⟨specs, hs⟩ := hspecs.mpr fun m hm hk => by
          have := List.all_eq_true.mp h m hm
          simpa [hk, hok] using this
        exact ⟨fields, specs, rfl, hs⟩
      · rintro ⟨fields', specs, hf, hs⟩
        cases hf
        refine List.all_eq_true.mpr fun m hm => ?_
        have := hspecs.mp ⟨specs, hs⟩ m hm
        by_cases hk : m.1 ∈ matchFields
        · simp [hok.mpr (this hk)]
        · simp [hk]
    | _ => exact iff_of_false nofun nofun

theorem matchRule_of_wellFormed (h : wellFormed rule = true) :
    ∃ r, matchRule instant db L rule = .ok r := by
  obtain ⟨fields, specs, hj, hs⟩ := wellFormed_iff.mp h
  unfold matchRule
  rw [hj]
  dsimp only
  split
  · exact ⟨_, rfl⟩
  · rw [hs]
    exact ⟨_, rfl⟩

omit [Host] in
/-- The other warnings begin with other words. -/
theorem countWarning_ne (rule : CalibrationRule) (n : ℕ) :
    countWarning rule n ≠ "rule has invalid match_json".toList := by
  intro h
  have hhead : (countWarning rule n).head? = some 'r' := congrArg List.head? h
  unfold countWarning at hhead
  split at hhead
  · cases hhead
  · split at hhead
    · split at hhead
      · cases hhead
      · cases hhead
    · cases hhead

/-- A document that parses is never answered with that warning. -/
theorem matchRule_ne_warning {j : Json} (h : rule.matchJson = .ok j) :
    matchRule instant db L rule ≠ .ok (warningResult rule) := by
  unfold matchRule
  rw [h]
  dsimp only
  split
  · intro he
    have hname := congrArg MatchResult.ruleName (Except.ok.inj he)
    exact absurd (List.append_right_eq_self.mp hname) (by decide)
  · cases ruleSpecs j with
    | error e => exact nofun
    | ok specs =>
      intro he
      exact countWarning_ne _ _ (congrArg MatchResult.warning (Except.ok.inj he))

/-- **Malformed rules, exactly.**  They are isolated, whatever the light and the tables, exactly if
every rule whose document parses is well formed. -/
theorem isolated_iff : Isolated instant db L rules ↔
    ∀ rule ∈ rules, wellFormed rule = true ∨ ∃ e, rule.matchJson = .error e := by
  constructor
  · rintro ⟨rs, hrun, -, hwarn, -⟩ rule hrule
    cases hj : rule.matchJson with
    | error e => exact Or.inr ⟨e, rfl⟩
    | ok j =>
      cases hw : wellFormed rule with
      | true => exact Or.inl rfl
      | false =>
        obtain ⟨r, hmem, hr⟩ := mem_zip_of_mapM hrun hrule
        have hwr : r = warningResult rule := hwarn _ hmem hw
        rw [hwr] at hr
        exact absurd hr (matchRule_ne_warning hj)
  · intro h
    have hall : ∀ rule ∈ rules, ∃ r, matchRule instant db L rule = .ok r := by
      intro rule hrule
      rcases h rule hrule with hw | ⟨e, he⟩
      · exact matchRule_of_wellFormed hw
      · exact ⟨_, matchRule_of_error he⟩
    obtain ⟨rs, hrs⟩ := exists_mapM_ok.mpr hall
    have hforall := mapM_eq_ok.mp hrs
    refine ⟨rs, hrs, hforall.length_eq.symm, ?_, mapM_filter hrs _⟩
    rintro ⟨rule, r⟩ hx hw
    have hrun : matchRule instant db L rule = .ok r := List.forall₂_zip hforall hx
    rcases h rule (List.of_mem_zip hx).1 with hw' | ⟨e, he⟩
    · rw [hw'] at hw
      cases hw
    · rw [matchRule_of_error he] at hrun
      exact (Except.ok.inj hrun).symm

end Isolation

/-! ### A text that is no JSON, and a number for a document -/

section Values

attribute [local instance] plainHost

/-- A rule whose text does not parse. -/
def brokenRule : CalibrationRule := ⟨"b".toList, .bias, .error "parse error".toList, none, none⟩

/-- A rule whose document is the number 5. -/
def numberRule : CalibrationRule := ⟨"n".toList, .bias, .ok (.int 5), none, none⟩

/-- A text that is no JSON costs its own rule a warning. -/
theorem isolated_broken :
    Isolated twoInstants (darkDb none none) datedLight [plainRule .dark, brokenRule] := by
  refine isolated_iff.mpr fun rule hrule => ?_
  rw [List.mem_cons, List.mem_singleton] at hrule
  rcases hrule with rfl | rfl
  · exact Or.inl rfl
  · exact Or.inr ⟨_, rfl⟩

/-- A number for a document takes the match away from every rule. -/
theorem number_document_throws :
    (matchCalibration twoInstants (darkDb none none) [plainRule .dark, numberRule]
      datedLight).isOk = false ∧
    ¬ Isolated twoInstants (darkDb none none) datedLight [plainRule .dark, numberRule] := by
  have hthrow : (matchCalibration twoInstants (darkDb none none) [plainRule .dark, numberRule]
      datedLight).isOk = false := rfl
  refine ⟨hthrow, ?_⟩
  rintro ⟨rs, hrs, -⟩
  rw [hrs] at hthrow
  cases hthrow

end Values

end StarBase.Match

import StarBase.Extract.Digits
import StarBase.Fits.XisfScan
import StarBase.Lib.Separated
import StarBase.Lib.Shell

/-!
# The WBPP command line

A staged job tree and a preprocessing profile become an invocation of WBPP: the tokens of its `-r`
specification, a shell command and a launcher.

* `render` — the plan;
* `ReadAsMeant` — WBPP finds the tokens, their names and their values;
* `render_readAsMeant_iff` — **PROVED**: the inputs for which no warning means that.

What WBPP makes of a value that it has read is not modelled.
-/

namespace StarBase.Pix

open Fits (intText)

/-! ### Rendering -/

structure WbppProfile where
  pixinsightSh : Str := "/opt/PixInsight/bin/PixInsight.sh".toList
  wbppScript : Str := "/opt/PixInsight/src/scripts/BatchPreprocessing/WBPP.js".toList
  outputDir : Str := []
  keywords : Str := "FILTER prepost".toList
  groupingEnabled : Bool := true
  fitsConvention : Int := 1
  extraParams : List Str := []

structure WbppPlan where
  stagingRoot : Str
  outputDir : Str
  mode : Str
  dirs : List Str
  params : List Str
  command : Str
  launcher : Str
  warnings : List Str

/-- Each quote closes the quotes, stands behind a backslash, and opens them again. -/
def shSquote (s : Str) : Str :=
  (s.foldl (fun out c => if c = '\'' then out ++ "'\\''".toList else out ++ [c]) ['\'']) ++ ['\'']

def hasDelimiter (s : Str) : Bool := s.contains ',' || s.contains '='

def modeOf (loadOnly : Bool) : Str := if loadOnly then "loadOnly".toList else "automation".toList

def typeDir (jobRoot t : Str) : Str := jobRoot ++ '/' :: t

def boolText (b : Bool) : Str := if b then "true".toList else "false".toList

/-- The tokens of `-r`, in the order in which WBPP reads them. -/
def paramsOf (jobRoot : Str) (imageTypes : List Str) (profile : WbppProfile) (loadOnly : Bool) :
    List Str :=
  profile.wbppScript :: "automationMode=true".toList ::
    (imageTypes.map (fun t => "dir=".toList ++ typeDir jobRoot t) ++
    ((if profile.outputDir = [] then [] else ["outputDirectory=".toList ++ profile.outputDir]) ++
    (("groupingKeywordsEnabled=".toList ++ boolText profile.groupingEnabled) ::
    ((if profile.groupingEnabled = true ∧ profile.keywords ≠ [] then
      ["keywords=".toList ++ profile.keywords] else []) ++
    (("fitsCoordinateConvention=".toList ++ intText profile.fitsConvention) ::
    (profile.extraParams.filter (· ≠ []) ++ if loadOnly then ["loadOnly".toList] else []))))))

def stagingWarning : Str := "staging path contains ',' or '=' which WBPP cannot parse: ".toList

def outputWarning : Str := "output directory contains ',' or '=' which WBPP cannot parse: ".toList

def warningsOf (jobRoot : Str) (imageTypes : List Str) (profile : WbppProfile) : List Str :=
  ((imageTypes.map (typeDir jobRoot)).filter hasDelimiter).map (stagingWarning ++ ·) ++
    ((if hasDelimiter profile.outputDir then [outputWarning ++ profile.outputDir] else []) ++
    (if imageTypes = [] then ["no image-type subdirectories: nothing to hand off".toList] else []))

/-- The tokens joined by commas. -/
def rspec (params : List Str) : Str := [','].intercalate params

def commandOf (pixinsightSh spec : Str) (loadOnly : Bool) : Str :=
  pixinsightSh ++ (" -n --automation-mode ".toList ++ ("-r=".toList ++ (shSquote spec ++
    if loadOnly then [] else " --force-exit".toList)))

def launcherOf (mode outputDir : Str) (nDirs : ℕ) (command : Str) : Str :=
  "#!/usr/bin/env bash\n".toList ++
  ("# Generated by StarBase - PixInsight WBPP handoff (".toList ++ (mode ++ (" mode).\n".toList ++
  ("# Run this from your desktop session; starbased has no display of its own.\n".toList ++
  ("set -euo pipefail\n\n".toList ++
  ((if outputDir = [] then [] else "mkdir -p ".toList ++ (shSquote outputDir ++ "\n\n".toList)) ++
  ("echo 'Handing ".toList ++ (natText nDirs ++ (" staged frame set(s) to WBPP (".toList ++ (mode ++
  (")...'\n".toList ++ ("exec ".toList ++ (command ++ ['\n'])))))))))))))

def render (jobRoot : Str) (imageTypes : List Str) (profile : WbppProfile) (loadOnly : Bool) :
    WbppPlan :=
  let params := paramsOf jobRoot imageTypes profile loadOnly
  let dirs := imageTypes.map (typeDir jobRoot)
  let command := commandOf profile.pixinsightSh (rspec params) loadOnly
  { stagingRoot := jobRoot
    outputDir := profile.outputDir
    mode := modeOf loadOnly
    dirs := dirs
    params := params
    command := command
    launcher := launcherOf (modeOf loadOnly) profile.outputDir dirs.length command
    warnings := warningsOf jobRoot imageTypes profile }

/-! ### What WBPP reads -/

/-- The name in front of the first `=`, and the value behind it if there is one. -/
def splitParam (p : Str) : Str × Option Str :=
  (p.takeWhile (· ≠ '='), if '=' ∈ p then some (p.dropWhile (· ≠ '=')).tail else none)

/-- The names and values that the profile means; an extra parameter is a name and a value as it is
written. -/
def meantParams (jobRoot : Str) (imageTypes : List Str) (profile : WbppProfile) (loadOnly : Bool) :
    List (Str × Option Str) :=
  ("automationMode".toList, some "true".toList) ::
    (imageTypes.map (fun t => ("dir".toList, some (typeDir jobRoot t))) ++
    ((if profile.outputDir = [] then [] else [("outputDirectory".toList, some profile.outputDir)]) ++
    (("groupingKeywordsEnabled".toList, some (boolText profile.groupingEnabled)) ::
    ((if profile.groupingEnabled = true ∧ profile.keywords ≠ [] then
      [("keywords".toList, some profile.keywords)] else []) ++
    (("fitsCoordinateConvention".toList, some (intText profile.fitsConvention)) ::
    ((profile.extraParams.filter (· ≠ [])).map splitParam ++
      if loadOnly then [("loadOnly".toList, none)] else []))))))

/-- Split at its commas the specification gives the tokens, and each of them behind the script the
name and the value meant, with no further `=` in the value. -/
structure ReadAsMeant (params : List Str) (meant : List (Str × Option Str)) : Prop where
  tokens : (rspec params).splitOn ',' = params
  names : params.tail.map splitParam = meant
  values : ∀ x ∈ meant, ∀ v ∈ x.2, '=' ∉ v

/-- A warning is about a comma or an equals sign. -/
def AboutDelimiters (w : Str) : Prop := stagingWarning <+: w ∨ outputWarning <+: w

/-- What `render` does not check: the script has no comma, the keywords neither a comma nor an equals
sign, an extra parameter no comma and one equals sign at most. -/
structure Spliceable (profile : WbppProfile) : Prop where
  script : ',' ∉ profile.wbppScript
  keywords : profile.groupingEnabled = true → ',' ∉ profile.keywords ∧ '=' ∉ profile.keywords
  extraParams : ∀ p ∈ profile.extraParams, ',' ∉ p ∧ p.count '=' ≤ 1

theorem hasDelimiter_eq_false {s : Str} : hasDelimiter s = false ↔ ',' ∉ s ∧ '=' ∉ s := by
  unfold hasDelimiter
  rw [Bool.or_eq_false_iff]
  simp

/-- A name without `=`, and a value behind it. -/
theorem splitParam_name {n v : Str} (hn : '=' ∉ n) : splitParam (n ++ '=' :: v) = (n, some v) := by
  have hname : ∀ c ∈ n, decide (c ≠ '=') = true := by
    intro c hc
    refine decide_eq_true ?_
    rintro rfl
    exact hn hc
  have hstop : ∀ c ∈ ('=' :: v).head?, decide (c ≠ '=') = false := by
    rintro c ⟨⟩
    rfl
  unfold splitParam
  rw [takeWhile_append_stop hname hstop, dropWhile_append_stop hname hstop,
    if_pos (List.mem_append_right n List.mem_cons_self)]
  rfl

theorem splitParam_token {n m : Str} (h : m = n ++ ['=']) (hn : '=' ∉ n) (v : Str) :
    splitParam (m ++ v) = (n, some v) := by
  rw [h, List.append_assoc]
  exact splitParam_name hn

theorem splitParam_none {n : Str} (hn : '=' ∉ n) : splitParam n = (n, none) := by
  unfold splitParam
  rw [if_neg hn, List.takeWhile_eq_self_iff.mpr]
  intro c hc
  refine decide_eq_true ?_
  rintro rfl
  exact hn hc

/-- The value of a token has no further `=` exactly when the token has one at most. -/
theorem splitParam_value_iff (p : Str) : (∀ v ∈ (splitParam p).2, '=' ∉ v) ↔ p.count '=' ≤ 1 := by
  by_cases h : '=' ∈ p
  · obtain ⟨n, v, rfl, hn⟩ := List.eq_append_cons_of_mem h
    rw [splitParam_name hn, List.count_append, List.count_cons_self, List.count_eq_zero.mpr hn]
    constructor
    · intro hv
      rw [List.count_eq_zero.mpr (hv v rfl)]
    · rintro hv w ⟨⟩
      refine List.count_eq_zero.mp ?_
      omega
  · rw [splitParam_none h, List.count_eq_zero.mpr h]
    exact iff_of_true nofun (Nat.zero_le 1)

/-! ### When nothing is warned of -/

theorem intText_plain {n : Int} {c : Char} (h : c ∈ intText n) : c.isDigit = true ∨ c = '-' := by
  cases n with
  | ofNat m => exact Or.inl (isDigit_natText h)
  | negSucc m =>
    have htext : intText (Int.negSucc m) = '-' :: natText (m + 1) := by
      unfold intText
      show ("-" ++ toString (m + 1)).toList = _
      rw [String.toList_append]
      rfl
    rw [htext] at h
    rcases List.mem_cons.mp h with rfl | h
    · exact Or.inr rfl
    · exact Or.inl (isDigit_natText h)

theorem not_mem_intText {n : Int} {c : Char} (hd : c.isDigit = false) (hc : c ≠ '-') : c ∉ intText n := by
  intro h
  rcases intText_plain h with h | h
  · rw [hd] at h
    cases h
  · exact hc h

theorem forall_mem_then {α : Type} {c : Prop} [Decidable c] {l : List α} {p : α → Prop} :
    (∀ x ∈ if c then l else [], p x) ↔ (c → ∀ x ∈ l, p x) := by
  split
  · next h => exact ⟨fun hl _ => hl, fun hl => hl h⟩
  · next h => exact iff_of_true (List.forall_mem_nil _) fun hc => absurd hc h

theorem forall_mem_else {α : Type} {c : Prop} [Decidable c] {l : List α} {p : α → Prop} :
    (∀ x ∈ if c then [] else l, p x) ↔ (¬c → ∀ x ∈ l, p x) := by
  split
  · next h => exact iff_of_true (List.forall_mem_nil _) fun hc => absurd h hc
  · next h => exact ⟨fun hl _ => hl, fun hl => hl h⟩

section Read

variable {jobRoot : Str} {imageTypes : List Str} {profile : WbppProfile} {loadOnly : Bool}

/-- The tokens behind the script have the names and values meant. -/
theorem map_splitParam : (paramsOf jobRoot imageTypes profile loadOnly).tail.map splitParam =
    meantParams jobRoot imageTypes profile loadOnly := by
  have hmode : splitParam "automationMode=true".toList = ("automationMode".toList, some "true".toList) := by
    decide
  have hdir : (splitParam ∘ fun t => "dir=".toList ++ typeDir jobRoot t) =
      fun t => ("dir".toList, some (typeDir jobRoot t)) :=
    funext fun t => splitParam_token (by decide) (by decide) _
  have hout : splitParam ("outputDirectory=".toList ++ profile.outputDir) =
      ("outputDirectory".toList, some profile.outputDir) :=
    splitParam_token (by decide) (by decide) _
  have hgrouping : splitParam ("groupingKeywordsEnabled=".toList ++ boolText profile.groupingEnabled) =
      ("groupingKeywordsEnabled".toList, some (boolText profile.groupingEnabled)) :=
    splitParam_token (by decide) (by decide) _
  have hkeywords : splitParam ("keywords=".toList ++ profile.keywords) =
      ("keywords".toList, some profile.keywords) :=
    splitParam_token (by decide) (by decide) _
  have hfits : splitParam ("fitsCoordinateConvention=".toList ++ intText profile.fitsConvention) =
      ("fitsCoordinateConvention".toList, some (intText profile.fitsConvention)) :=
    splitParam_token (by decide) (by decide) _
  have hload : splitParam "loadOnly".toList = ("loadOnly".toList, none) :=
    splitParam_none (by decide)
  unfold paramsOf meantParams
  simp only [List.tail_cons, List.map_cons, List.map_append, List.map_map, apply_ite (List.map splitParam),
    List.map_nil, hmode, hdir, hout, hgrouping, hkeywords, hfits, hload]

/-- The fixed parts of the tokens. -/
def fixedTexts : List String :=
  ["automationMode=true", "dir=", "outputDirectory=", "groupingKeywordsEnabled=", "true", "false",
    "keywords=", "fitsCoordinateConvention=", "loadOnly"]

theorem tokens_iff : (rspec (paramsOf jobRoot imageTypes profile loadOnly)).splitOn ',' =
    paramsOf jobRoot imageTypes profile loadOnly ↔
      Separated.Free ',' (paramsOf jobRoot imageTypes profile loadOnly) :=
  Separated.splitOn_intercalate_iff (List.cons_ne_nil _ _)

/-- A character that no fixed part of a token holds is in the tokens as it is in the fields. -/
theorem free_params_iff {d : Char} (hfixed : ∀ n ∈ fixedTexts, d ∉ n.toList) (hdigit : d.isDigit = false)
    (hminus : d ≠ '-') : Separated.Free d (paramsOf jobRoot imageTypes profile loadOnly) ↔
    d ∉ profile.wbppScript ∧ (∀ t ∈ imageTypes, d ∉ typeDir jobRoot t) ∧ d ∉ profile.outputDir ∧
      (profile.groupingEnabled = true → d ∉ profile.keywords) ∧ ∀ p ∈ profile.extraParams, d ∉ p := by
  have hfits : d ∉ intText profile.fitsConvention := not_mem_intText hdigit hminus
  have hgrouping : d ∉ boolText profile.groupingEnabled := by
    cases profile.groupingEnabled
    · exact hfixed "false" (by decide)
    · exact hfixed "true" (by decide)
  have happend : ∀ n ∈ fixedTexts, ∀ v : Str, (d ∉ n.toList ++ v ↔ d ∉ v) := by
    intro n hn v
    rw [List.mem_append, not_or]
    exact and_iff_right (hfixed n hn)
  unfold Separated.Free paramsOf
  simp only [List.forall_mem_cons, List.forall_mem_append, List.forall_mem_map, forall_mem_then,
    forall_mem_else, List.mem_filter, decide_eq_true_eq]
  constructor
  · rintro ⟨hscript, -, hdirs, hout, -, hkeywords, -, hextra, -⟩
    refine ⟨hscript, fun t ht => (happend _ (by decide) _).mp (hdirs t ht), ?_, fun hg => ?_,
      fun p hp => ?_⟩
    · by_cases hnil : profile.outputDir = []
      · rw [hnil]
        exact List.not_mem_nil
      · exact (happend _ (by decide) _).mp (hout hnil).1
    · by_cases hnil : profile.keywords = []
      · rw [hnil]
        exact List.not_mem_nil
      · exact (happend _ (by decide) _).mp (hkeywords ⟨hg, hnil⟩).1
    · by_cases hnil : p = []
      · rw [hnil]
        exact List.not_mem_nil
      · exact hextra p ⟨hp, hnil⟩
  · rintro ⟨hscript, hdirs, hout, hkeywords, hextra⟩
    exact ⟨hscript, hfixed "automationMode=true" (by decide),
      fun t ht => (happend _ (by decide) _).mpr (hdirs t ht),
      fun _ => ⟨(happend _ (by decide) _).mpr hout, List.forall_mem_nil _⟩,
      (happend _ (by decide) _).mpr hgrouping,
      fun h => ⟨(happend _ (by decide) _).mpr (hkeywords h.1), List.forall_mem_nil _⟩,
      (happend _ (by decide) _).mpr hfits, fun p hp => hextra p hp.1,
      fun _ => ⟨hfixed "loadOnly" (by decide), List.forall_mem_nil _⟩⟩

/-- The values without a further `=`. -/
theorem values_iff : (∀ x ∈ meantParams jobRoot imageTypes profile loadOnly, ∀ v ∈ x.2, '=' ∉ v) ↔
    (∀ t ∈ imageTypes, '=' ∉ typeDir jobRoot t) ∧ '=' ∉ profile.outputDir ∧
      (profile.groupingEnabled = true → '=' ∉ profile.keywords) ∧
      ∀ p ∈ profile.extraParams, p.count '=' ≤ 1 := by
  have hfits : '=' ∉ intText profile.fitsConvention := not_mem_intText rfl (by decide)
  have hgrouping : '=' ∉ boolText profile.groupingEnabled := by
    cases profile.groupingEnabled <;> decide
  have htrue : '=' ∉ "true".toList := by decide
  have hsome : ∀ v : Str, (∀ w ∈ some v, '=' ∉ w) ↔ '=' ∉ v :=
    fun v => ⟨fun h => h v rfl, by rintro h w ⟨⟩; exact h⟩
  unfold meantParams
  simp only [List.forall_mem_cons, List.forall_mem_append, List.forall_mem_map, forall_mem_then,
    forall_mem_else, List.mem_filter, decide_eq_true_eq, hsome, splitParam_value_iff]
  constructor
  · rintro ⟨-, hdirs, hout, -, hkeywords, -, hextra, -⟩
    refine ⟨hdirs, ?_, fun hg => ?_, fun p hp => ?_⟩
    · by_cases hnil : profile.outputDir = []
      · rw [hnil]
        exact List.not_mem_nil
      · exact (hout hnil).1
    · by_cases hnil : profile.keywords = []
      · rw [hnil]
        exact List.not_mem_nil
      · exact (hkeywords ⟨hg, hnil⟩).1
    · by_cases hnil : p = []
      · rw [hnil]
        exact Nat.zero_le 1
      · exact hextra p ⟨hp, hnil⟩
  · rintro ⟨hdirs, hout, hkeywords, hextra⟩
    exact ⟨htrue, hdirs, fun _ => ⟨hout, List.forall_mem_nil _⟩, hgrouping,
      fun h => ⟨hkeywords h.1, List.forall_mem_nil _⟩, hfits, fun p hp => hextra p hp.1,
      fun _ => ⟨nofun, List.forall_mem_nil _⟩⟩

/-- What nothing is warned of. -/
theorem not_warned_iff : (∀ w ∈ (render jobRoot imageTypes profile loadOnly).warnings, ¬AboutDelimiters w) ↔
    (∀ t ∈ imageTypes, hasDelimiter (typeDir jobRoot t) = false) ∧ hasDelimiter profile.outputDir = false := by
  have hnone : ¬AboutDelimiters "no image-type subdirectories: nothing to hand off".toList := by
    unfold AboutDelimiters
    decide
  show (∀ w ∈ warningsOf jobRoot imageTypes profile, ¬AboutDelimiters w) ↔ _
  unfold warningsOf
  simp only [List.forall_mem_append, List.forall_mem_map, forall_mem_then]
  constructor
  · rintro ⟨hdirs, hout, -⟩
    refine ⟨fun t ht => Bool.eq_false_iff.mpr fun h => ?_, Bool.eq_false_iff.mpr fun h => ?_⟩
    · exact hdirs _ (List.mem_filter.mpr ⟨List.mem_map_of_mem ht, h⟩) (Or.inl (List.prefix_append _ _))
    · exact hout h _ List.mem_cons_self (Or.inr (List.prefix_append _ _))
  · rintro ⟨hdirs, hout⟩
    refine ⟨?_, fun h => ?_, fun _ => List.forall_mem_singleton.mpr hnone⟩
    · intro d hd
      obtain ⟨hmem, h⟩ := List.mem_filter.mp hd
      obtain ⟨t, ht, rfl⟩ := List.mem_map.mp hmem
      rw [hdirs t ht] at h
      cases h
    · rw [hout] at h
      cases h

end Read

/-- **Without a warning WBPP reads what was meant, or not.** -/
theorem render_readAsMeant_iff (jobRoot : Str) (imageTypes : List Str) (profile : WbppProfile)
    (loadOnly : Bool) :
    ((∀ w ∈ (render jobRoot imageTypes profile loadOnly).warnings, ¬AboutDelimiters w) →
      ReadAsMeant (render jobRoot imageTypes profile loadOnly).params
        (meantParams jobRoot imageTypes profile loadOnly)) ↔
      (∃ t ∈ imageTypes, hasDelimiter (typeDir jobRoot t) = true) ∨
        hasDelimiter profile.outputDir = true ∨ Spliceable profile := by
  have hread : ReadAsMeant (render jobRoot imageTypes profile loadOnly).params
      (meantParams jobRoot imageTypes profile loadOnly) ↔
      Separated.Free ',' (paramsOf jobRoot imageTypes profile loadOnly) ∧
        ∀ x ∈ meantParams jobRoot imageTypes profile loadOnly, ∀ v ∈ x.2, '=' ∉ v := by
    exact ⟨fun h => ⟨tokens_iff.mp h.tokens, h.values⟩,
      fun h => ⟨tokens_iff.mpr h.1, map_splitParam, h.2⟩⟩
  rw [hread, not_warned_iff, free_params_iff (by decide) rfl (by decide), values_iff]
  constructor
  · intro h
    by_cases hdirs : ∃ t ∈ imageTypes, hasDelimiter (typeDir jobRoot t) = true
    · exact Or.inl hdirs
    by_cases hout : hasDelimiter profile.outputDir = true
    · exact Or.inr (Or.inl hout)
    push Not at hdirs
    obtain ⟨⟨hscript, -, -, hcomma, hextra⟩, -, -, hequals, hcount⟩ :=
      h ⟨fun t ht => Bool.eq_false_iff.mpr (hdirs t ht), Bool.eq_false_iff.mpr hout⟩
    exact Or.inr (Or.inr ⟨hscript, fun hg => ⟨hcomma hg, hequals hg⟩,
      fun p hp => ⟨hextra p hp, hcount p hp⟩⟩)
  · rintro h ⟨hdirs, hout⟩
    have hclean : ∀ t ∈ imageTypes, ',' ∉ typeDir jobRoot t ∧ '=' ∉ typeDir jobRoot t :=
      fun t ht => hasDelimiter_eq_false.mp (hdirs t ht)
    obtain ⟨hcomma, hequals⟩ := hasDelimiter_eq_false.mp hout
    rcases h with ⟨t, ht, h⟩ | h | h
    · rw [hdirs t ht] at h
      cases h
    · rw [hout] at h
      cases h
    · exact ⟨⟨h.script, fun t ht => (hclean t ht).1, hcomma, fun hg => (h.keywords hg).1,
        fun p hp => (h.extraParams p hp).1⟩, fun t ht => (hclean t ht).2, hequals,
        fun hg => (h.keywords hg).2, fun p hp => (h.extraParams p hp).2⟩

def commaKeywords : WbppProfile := { keywords := "FILTER prepost,GAIN pre".toList }

/-- Keywords with a comma become two tokens. -/
theorem keywords_cut : ¬((∀ w ∈ (render "/jobs/1".toList ["light".toList] commaKeywords false).warnings,
      ¬AboutDelimiters w) →
    ReadAsMeant (render "/jobs/1".toList ["light".toList] commaKeywords false).params
      (meantParams "/jobs/1".toList ["light".toList] commaKeywords false)) := by
  intro h
  have hread := h (not_warned_iff.mpr ⟨List.forall_mem_singleton.mpr (by decide), by decide⟩)
  have hfree := tokens_iff.mp hread.tokens
  exact ((free_params_iff (by decide) rfl (by decide)).mp hfree).2.2.2.1 rfl (by decide)

end StarBase.Pix

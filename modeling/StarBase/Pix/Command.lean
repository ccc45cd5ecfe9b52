import StarBase.Lib.CommandLine
import StarBase.Pix.Wbpp

/-!
# The WBPP command in a shell

* `NoInjection` — the command and the launcher are read as the argument vectors meant;
* `Harmless` — what the fields have to be for that;
* `noInjection_iff` — **PROVED**: the two are the same.

The reader has the words of the shell language only: a program with an operator or an expansion has no
reading.
-/

namespace StarBase.Pix

open Shell (Line PlainWord CommandWord parse)

theorem shSquote_eq (s : Str) : shSquote s = Shell.quote s := by
  have hfold : ∀ out : Str, s.foldl (fun out c => if c = '\'' then out ++ "'\\''".toList else out ++ [c]) out =
      out ++ Shell.quoteBody s := by
    induction s with
    | nil => exact fun out => (List.append_nil out).symm
    | cons c cs ih =>
      intro out
      rw [List.foldl_cons, ih, Shell.quoteBody_cons, ← List.append_assoc]
      by_cases hc : c = '\''
      · subst hc
        rfl
      · rw [if_neg hc, Shell.quoteBody_of_ne hc]
  unfold shSquote
  rw [hfold]
  rfl

/-- The argument vector that hands the specification to PixInsight. -/
def argv (pixinsightSh spec : Str) (loadOnly : Bool) : List Str :=
  [pixinsightSh, "-n".toList, "--automation-mode".toList, "-r=".toList ++ spec] ++
    if loadOnly then [] else ["--force-exit".toList]

def echoText (mode : Str) (nDirs : ℕ) : Str :=
  "Handing ".toList ++ (natText nDirs ++ (" staged frame set(s) to WBPP (".toList ++ (mode ++
    ")...".toList)))

/-- The commands of the launcher. -/
def launcherCommands (plan : WbppPlan) (args : List Str) : List (List Str) :=
  ["set".toList, "-euo".toList, "pipefail".toList] ::
    ((if plan.outputDir = [] then [] else [["mkdir".toList, "-p".toList, plan.outputDir]]) ++
      [["echo".toList, echoText plan.mode plan.dirs.length], "exec".toList :: args])

/-- The command is one argument vector, and the launcher prepares and runs it. -/
structure NoInjection (plan : WbppPlan) (args : List Str) : Prop where
  command : parse plan.command = some [args]
  launcher : parse plan.launcher = some (launcherCommands plan args)

/-- The fields that reach the specification. -/
def suppliedTexts (jobRoot : Str) (imageTypes : List Str) (profile : WbppProfile) : List Str :=
  profile.wbppScript :: profile.outputDir ::
    (imageTypes.map (typeDir jobRoot) ++
      ((if profile.groupingEnabled = true then [profile.keywords] else []) ++ profile.extraParams))

/-- The path of PixInsight is a word of the shell that names a command, and no field has a null. -/
structure Harmless (jobRoot : Str) (imageTypes : List Str) (profile : WbppProfile) : Prop where
  pixinsightSh : CommandWord profile.pixinsightSh
  null : ∀ v ∈ suppliedTexts jobRoot imageTypes profile, Char.ofNat 0 ∉ v

/-! ### The command -/

def backArgs (loadOnly : Bool) : List Str := if loadOnly then [] else ["--force-exit".toList]

theorem backArgs_plain (loadOnly : Bool) : ∀ f ∈ backArgs loadOnly, PlainWord f := by
  cases loadOnly <;> decide

/-- What stands behind the name of the command. -/
def commandLine (spec : Str) (loadOnly : Bool) : Line where
  front := ["-n".toList, "--automation-mode".toList]
  key := "-r=".toList
  value := spec
  back := backArgs loadOnly
  front_plain := by decide
  key_plain := Or.inr (by decide)
  back_plain := backArgs_plain loadOnly

theorem commandOf_eq (pixinsightSh spec : Str) (loadOnly : Bool) :
    commandOf pixinsightSh spec loadOnly = pixinsightSh ++ (commandLine spec loadOnly).text := by
  have hfront : " -n --automation-mode ".toList = Shell.spaced ["-n".toList, "--automation-mode".toList] ++ [' '] :=
    rfl
  have hback : (if loadOnly then [] else " --force-exit".toList) = Shell.spaced (backArgs loadOnly) := by
    cases loadOnly <;> rfl
  unfold commandOf Line.text commandLine
  rw [hfront, hback, shSquote_eq]
  simp only [List.append_assoc, List.cons_append, List.nil_append]

theorem argv_eq (pixinsightSh spec : Str) (loadOnly : Bool) :
    argv pixinsightSh spec loadOnly = pixinsightSh :: (commandLine spec loadOnly).args := rfl

theorem parse_commandOf_iff (pixinsightSh spec : Str) (loadOnly : Bool) :
    parse (commandOf pixinsightSh spec loadOnly) = some [argv pixinsightSh spec loadOnly] ↔
      CommandWord pixinsightSh ∧ Char.ofNat 0 ∉ spec := by
  rw [commandOf_eq, argv_eq]
  exact Shell.parse_line_iff _ _

/-! ### The launcher -/

/-- A command on a line of its own. -/
def lineText (name : Str) (l : Line) : Str := name ++ (l.text ++ ['\n'])

theorem run_lineText {name : Str} (hname : PlainWord name) {l : Line} (hv : Char.ofNat 0 ∉ l.value)
    (cs : List (List Shell.Word)) : Shell.run (.between cs) (lineText name l) =
      some (.between (cs ++ [Shell.plainWord name :: l.words])) := by
  obtain ⟨t, hrun, hmode, hcur, hcommands, hall⟩ := l.run_command hv hname cs
  unfold lineText
  rw [← List.append_assoc, Shell.run_append_of_eq hrun]
  show (Shell.step t '\n').bind (fun t => Shell.run t []) = _
  rw [Shell.step_line hmode hcur, hcommands, hall]
  rfl

def mkdirLine (outputDir : Str) : Line where
  front := ["-p".toList]
  key := []
  value := outputDir
  back := []
  front_plain := List.forall_mem_singleton.mpr (by decide)
  key_plain := Or.inl rfl
  back_plain := List.forall_mem_nil _

def echoLine (text : Str) : Line where
  front := []
  key := []
  value := text
  back := []
  front_plain := List.forall_mem_nil _
  key_plain := Or.inl rfl
  back_plain := List.forall_mem_nil _

def execLine {pixinsightSh : Str} (h : PlainWord pixinsightSh) (spec : Str) (loadOnly : Bool) : Line where
  front := [pixinsightSh, "-n".toList, "--automation-mode".toList]
  key := "-r=".toList
  value := spec
  back := backArgs loadOnly
  front_plain := List.forall_mem_cons.mpr ⟨h, (commandLine spec loadOnly).front_plain⟩
  key_plain := (commandLine spec loadOnly).key_plain
  back_plain := backArgs_plain loadOnly

/-- The comments, and the options of the shell. -/
def headerText (mode : Str) : Str :=
  "#!/usr/bin/env bash\n".toList ++
  ("# Generated by StarBase - PixInsight WBPP handoff (".toList ++ (mode ++ (" mode).\n".toList ++
  ("# Run this from your desktop session; starbased has no display of its own.\n".toList ++
  "set -euo pipefail\n\n".toList))))

def setWords : List Shell.Word :=
  [Shell.plainWord "set".toList, Shell.plainWord "-euo".toList, Shell.plainWord "pipefail".toList]

theorem run_headerText (loadOnly : Bool) :
    Shell.run .start (headerText (modeOf loadOnly)) = some (.between [setWords]) := by
  cases loadOnly <;> decide +kernel

theorem run_blank_line (cs : List (List Shell.Word)) :
    Shell.run (.between cs) ['\n'] = some (.between cs) := by
  show some (Shell.Lexer.between (cs ++ [])) = _
  rw [List.append_nil]

theorem echoText_plain (loadOnly : Bool) (n : ℕ) :
    '\'' ∉ echoText (modeOf loadOnly) n ∧ Char.ofNat 0 ∉ echoText (modeOf loadOnly) n := by
  have hdigits : ∀ d : Char, d.isDigit = false → d ∉ natText n := by
    intro d hd hmem
    rw [isDigit_natText hmem] at hd
    cases hd
  unfold echoText
  simp only [List.mem_append, not_or]
  cases loadOnly
  · exact ⟨⟨by decide, hdigits _ rfl, by decide, by decide, by decide⟩,
      by decide, hdigits _ rfl, by decide, by decide, by decide⟩
  · exact ⟨⟨by decide, hdigits _ rfl, by decide, by decide, by decide⟩,
      by decide, hdigits _ rfl, by decide, by decide, by decide⟩

/-- The line that makes the output directory, if one is named. -/
def mkdirText (outputDir : Str) : Str :=
  if outputDir = [] then [] else lineText "mkdir".toList (mkdirLine outputDir) ++ ['\n']

def mkdirWords (outputDir : Str) : List (List Shell.Word) :=
  if outputDir = [] then [] else [Shell.plainWord "mkdir".toList :: (mkdirLine outputDir).words]

theorem run_mkdirText {outputDir : Str} (h : Char.ofNat 0 ∉ outputDir) (cs : List (List Shell.Word)) :
    Shell.run (.between cs) (mkdirText outputDir) = some (.between (cs ++ mkdirWords outputDir)) := by
  unfold mkdirText mkdirWords
  split
  · rw [List.append_nil]
    rfl
  · rw [Shell.run_append_of_eq (run_lineText (by decide) (l := mkdirLine outputDir) h cs),
      run_blank_line]

theorem mkdirText_eq (outputDir : Str) :
    (if outputDir = [] then [] else "mkdir -p ".toList ++ (shSquote outputDir ++ "\n\n".toList)) =
      mkdirText outputDir := by
  have hfront : "mkdir -p ".toList = "mkdir".toList ++ (Shell.spaced ["-p".toList] ++ [' ']) := by decide
  have hback : "\n\n".toList = ['\n'] ++ ['\n'] := by decide
  unfold mkdirText lineText mkdirLine Line.text
  rw [hfront, hback, shSquote_eq]
  simp only [List.append_assoc, List.cons_append, List.nil_append, Shell.spaced, List.flatMap_nil]

theorem echoText_eq (loadOnly : Bool) (n : ℕ) :
    "echo 'Handing ".toList ++ (natText n ++ (" staged frame set(s) to WBPP (".toList ++
      (modeOf loadOnly ++ ")...'\n".toList))) =
      lineText "echo".toList (echoLine (echoText (modeOf loadOnly) n)) := by
  have hfront : "echo 'Handing ".toList = "echo".toList ++ ([' ', '\''] ++ "Handing ".toList) := by decide
  have hback : ")...'\n".toList = ")...".toList ++ ['\'', '\n'] := by decide
  unfold lineText echoLine Line.text Shell.quote
  rw [Shell.quoteBody_self (echoText_plain loadOnly n).1, hfront, hback]
  unfold echoText
  simp only [List.append_assoc, List.cons_append, List.nil_append, Shell.spaced, List.flatMap_nil]

theorem execText_eq {pixinsightSh : Str} (h : PlainWord pixinsightSh) (spec : Str) (loadOnly : Bool) :
    "exec ".toList ++ (commandOf pixinsightSh spec loadOnly ++ ['\n']) =
      lineText "exec".toList (execLine h spec loadOnly) := by
  have hfront : "exec ".toList = "exec".toList ++ [' '] := by decide
  have htext : (execLine h spec loadOnly).text = ' ' :: (pixinsightSh ++ (commandLine spec loadOnly).text) := by
    unfold Line.text execLine commandLine
    dsimp only
    rw [Shell.spaced_cons]
    simp only [List.append_assoc, List.cons_append]
  unfold lineText
  rw [hfront, htext, commandOf_eq]
  simp only [List.append_assoc, List.cons_append, List.nil_append]

/-- The launcher, line by line. -/
theorem launcherOf_eq {pixinsightSh : Str} (h : PlainWord pixinsightSh) (spec outputDir : Str)
    (loadOnly : Bool) (n : ℕ) :
    launcherOf (modeOf loadOnly) outputDir n (commandOf pixinsightSh spec loadOnly) =
      headerText (modeOf loadOnly) ++ (mkdirText outputDir ++
        (lineText "echo".toList (echoLine (echoText (modeOf loadOnly) n)) ++
          lineText "exec".toList (execLine h spec loadOnly))) := by
  rw [← mkdirText_eq, ← echoText_eq, ← execText_eq]
  unfold launcherOf headerText
  simp only [List.append_assoc]

/-- The words of the launcher. -/
def launcherWords {pixinsightSh : Str} (h : PlainWord pixinsightSh) (spec outputDir : Str)
    (loadOnly : Bool) (n : ℕ) : List (List Shell.Word) :=
  [setWords] ++ mkdirWords outputDir ++
    [Shell.plainWord "echo".toList :: (echoLine (echoText (modeOf loadOnly) n)).words] ++
    [Shell.plainWord "exec".toList :: (execLine h spec loadOnly).words]

theorem run_launcherOf {pixinsightSh : Str} (h : PlainWord pixinsightSh) {spec outputDir : Str}
    (hspec : Char.ofNat 0 ∉ spec) (hout : Char.ofNat 0 ∉ outputDir) (loadOnly : Bool) (n : ℕ) :
    Shell.run .start (launcherOf (modeOf loadOnly) outputDir n (commandOf pixinsightSh spec loadOnly)) =
      some (.between (launcherWords h spec outputDir loadOnly n)) := by
  rw [launcherOf_eq h, Shell.run_append_of_eq (run_headerText loadOnly),
    Shell.run_append_of_eq (run_mkdirText hout _),
    Shell.run_append_of_eq (run_lineText (by decide)
      (l := echoLine (echoText (modeOf loadOnly) n)) (echoText_plain loadOnly n).2 _),
    run_lineText (by decide) (l := execLine h spec loadOnly) hspec]
  rfl

theorem parse_launcherOf {pixinsightSh : Str} (h : PlainWord pixinsightSh) {spec outputDir : Str}
    (hspec : Char.ofNat 0 ∉ spec) (hout : Char.ofNat 0 ∉ outputDir) (loadOnly : Bool) (n : ℕ) :
    parse (launcherOf (modeOf loadOnly) outputDir n (commandOf pixinsightSh spec loadOnly)) =
      some (["set".toList, "-euo".toList, "pipefail".toList] ::
        ((if outputDir = [] then [] else [["mkdir".toList, "-p".toList, outputDir]]) ++
          [["echo".toList, echoText (modeOf loadOnly) n],
            "exec".toList :: argv pixinsightSh spec loadOnly])) := by
  have hfinish : Shell.finish (.between (launcherWords h spec outputDir loadOnly n)) =
      some (launcherWords h spec outputDir loadOnly n) := by
    show some (launcherWords h spec outputDir loadOnly n ++ []) = _
    rw [List.append_nil]
  have hcommands : (launcherWords h spec outputDir loadOnly n).all Shell.isCommand = true := by
    have hname : ∀ (w : Shell.Word) (ws : List Shell.Word), Shell.isCommand (w :: ws) = Shell.isCommand [w] :=
      fun _ _ => rfl
    unfold launcherWords mkdirWords setWords
    by_cases hnil : outputDir = []
    · rw [if_pos hnil]
      simp only [List.all_append, List.all_cons, List.all_nil, hname]
      decide
    · rw [if_neg hnil]
      simp only [List.all_append, List.all_cons, List.all_nil, hname]
      decide
  have htext : ∀ (name : Str) (l : Line), (Shell.plainWord name :: l.words).map Shell.Word.text =
      name :: l.args := by
    intro name l
    rw [List.map_cons, Shell.text_plainWord, l.text_words]
  have hset : setWords.map Shell.Word.text = ["set".toList, "-euo".toList, "pipefail".toList] := by
    decide
  have hmkdir : (mkdirWords outputDir).map (List.map Shell.Word.text) =
      if outputDir = [] then [] else [["mkdir".toList, "-p".toList, outputDir]] := by
    unfold mkdirWords
    split
    · rfl
    · rw [List.map_singleton, htext]
      rfl
  unfold parse
  rw [run_launcherOf h hspec hout, Option.bind_some, hfinish, Option.bind_some, if_pos hcommands]
  unfold launcherWords
  rw [List.map_append, List.map_append, List.map_append, List.map_singleton, List.map_singleton,
    List.map_singleton, hset, htext, htext, hmkdir]
  simp only [List.append_assoc, List.cons_append, List.nil_append]
  rfl

/-! ### The fields -/

/-- A null in a token is one in a field. -/
theorem null_iff {jobRoot : Str} {imageTypes : List Str} {profile : WbppProfile} (loadOnly : Bool) :
    Char.ofNat 0 ∉ rspec (paramsOf jobRoot imageTypes profile loadOnly) ∧
        Char.ofNat 0 ∉ profile.outputDir ↔
      ∀ v ∈ suppliedTexts jobRoot imageTypes profile, Char.ofNat 0 ∉ v := by
  unfold rspec
  rw [Separated.not_mem_intercalate_iff (by decide),
    free_params_iff (by decide) rfl (by decide)]
  unfold suppliedTexts
  simp only [List.forall_mem_cons, List.forall_mem_append, List.forall_mem_map, forall_mem_then]
  constructor
  · rintro ⟨⟨hscript, hdirs, -, hkeywords, hextra⟩, hout⟩
    exact ⟨hscript, hout, hdirs, fun hg => ⟨hkeywords hg, List.forall_mem_nil _⟩, hextra⟩
  · rintro ⟨hscript, hout, hdirs, hkeywords, hextra⟩
    exact ⟨⟨hscript, hdirs, hout, fun hg => (hkeywords hg).1, hextra⟩, hout⟩

/-- **The WBPP command carries no injection exactly when its fields are harmless.** -/
theorem noInjection_iff (jobRoot : Str) (imageTypes : List Str) (profile : WbppProfile)
    (loadOnly : Bool) :
    NoInjection (render jobRoot imageTypes profile loadOnly)
        (argv profile.pixinsightSh (rspec (render jobRoot imageTypes profile loadOnly).params) loadOnly) ↔
      Harmless jobRoot imageTypes profile := by
  constructor
  · intro h
    obtain ⟨hword, hspec⟩ := (parse_commandOf_iff _ _ _).mp h.command
    refine ⟨hword, (null_iff loadOnly).mp ⟨hspec, ?_⟩⟩
    exact ((free_params_iff (by decide) rfl (by decide)).mp
      ((Separated.not_mem_intercalate_iff (by decide)).mp hspec)).2.2.1
  · intro h
    obtain ⟨hspec, hout⟩ := (null_iff loadOnly).mpr h.null
    exact ⟨(parse_commandOf_iff _ _ _).mpr ⟨h.pixinsightSh, hspec⟩,
      parse_launcherOf h.pixinsightSh.plain hspec hout loadOnly _⟩

def chainedProfile : WbppProfile := { pixinsightSh := "true;rm -rf ~;".toList }

/-- The path of PixInsight runs as commands. -/
theorem pixinsightSh_injects :
    ¬NoInjection (render "/jobs/1".toList ["light".toList] chainedProfile false)
      (argv chainedProfile.pixinsightSh
        (rspec (render "/jobs/1".toList ["light".toList] chainedProfile false).params) false) := by
  intro h
  exact absurd ((parse_commandOf_iff _ _ _).mp h.command).1.plain (by decide)

end StarBase.Pix

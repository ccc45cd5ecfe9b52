import Mathlib.Data.List.Flatten
import Mathlib.Tactic.Linarith
import StarBase.Lib.Shell

/-!
# Command lines with one quoted argument

A name is written in front of arguments of which one ends between quotes.  The line is read as these
words exactly when the name is that of a command as it is written: quotes, comments and blanks in the
name are never made up for by what follows.

* `content`, `size` — the characters that a run has kept;
* `plain_of_tight` — **PROVED**: a run from plain text that keeps every character has read a word;
* `run_shifted` — **PROVED**: where a quoted text is read from outside its quotes;
* `parse_line_iff` — **PROVED**: the lines that are read as they were meant.
-/

namespace Shell

/-! ### What a run keeps -/

/-- The characters of all words. -/
def Lexer.content (s : Lexer) : List Char := (s.commands.flatten ++ s.all).flatMap Word.text

theorem content_setMode (s : Lexer) (m : Mode) : (s.setMode m).content = s.content := rfl

theorem content_append (s : Lexer) (w : Word) : (s.append w).content = s.content ++ w.text := by
  unfold Lexer.content Lexer.all Lexer.append
  cases s.cur with
  | none => simp [Word.text]
  | some v => simp [Word.text]

theorem content_endWord (s : Lexer) : s.endWord.content = s.content := by
  unfold Lexer.content Lexer.all Lexer.endWord
  simp

theorem content_endCommand (s : Lexer) : s.endCommand.content = s.content := by
  unfold Lexer.content Lexer.all Lexer.endCommand
  by_cases h : s.words ++ s.cur.toList = []
  · simp [h]
  · simp [h]

@[simp] theorem mode_endWord (s : Lexer) : s.endWord.mode = s.mode := rfl
@[simp] theorem mode_endCommand (s : Lexer) : s.endCommand.mode = s.mode := rfl

/-- What a character does, in each mode. -/
inductive Stepped (s : Lexer) (c : Char) : Lexer → Prop
  | blank (hs : s.mode = .plain) (hc : isBlank c = true) : Stepped s c s.endWord
  | line (hs : s.mode = .plain) (hc : c = '\n') : Stepped s c s.endCommand
  | openSingle (hs : s.mode = .plain) (hc : c = '\'') : Stepped s c ((s.append []).setMode .single)
  | openDouble (hs : s.mode = .plain) (hc : c = '"') : Stepped s c ((s.append []).setMode .double)
  | backslash (hs : s.mode = .plain) (hc : c = '\\') : Stepped s c (s.setMode .escape)
  | hash (hs : s.mode = .plain) (hc : c = '#') : Stepped s c (s.setMode .comment)
  | plain (hs : s.mode = .plain) (hc : isPlainChar c = true) (hcur : s.cur = none → c ≠ '#' ∧ c ≠ '~') :
      Stepped s c (s.append [(c, false)])
  | joined (hs : s.mode = .escape) (hc : c = '\n') : Stepped s c (s.setMode .plain)
  | escaped (hs : s.mode = .escape) : Stepped s c ((s.append [(c, true)]).setMode .plain)
  | closeSingle (hs : s.mode = .single) (hc : c = '\'') : Stepped s c (s.setMode .plain)
  | inSingle (hs : s.mode = .single) (hc : c ≠ '\'') : Stepped s c (s.append [(c, true)])
  | closeDouble (hs : s.mode = .double) (hc : c = '"') : Stepped s c (s.setMode .plain)
  | backslashDouble (hs : s.mode = .double) : Stepped s c (s.setMode .doubleEscape)
  | inDouble (hs : s.mode = .double) : Stepped s c (s.append [(c, true)])
  | joinedDouble (hs : s.mode = .doubleEscape) : Stepped s c (s.setMode .double)
  | escapedDouble (hs : s.mode = .doubleEscape) :
      Stepped s c ((s.append [(c, true)]).setMode .double)
  | keptBackslash (hs : s.mode = .doubleEscape) :
      Stepped s c ((s.append [('\\', true), (c, true)]).setMode .double)
  | closeComment (hs : s.mode = .comment) : Stepped s c (s.endCommand.setMode .plain)
  | inComment (hs : s.mode = .comment) : Stepped s c s

theorem step_cases {s t : Lexer} {c : Char} (h : step s c = some t) : c ≠ Char.ofNat 0 ∧ Stepped s c t := by
  unfold step at h
  obtain ⟨hnull, h⟩ := Option.ite_none_left_eq_some.mp h
  refine ⟨hnull, ?_⟩
  cases hs : s.mode with
  | plain =>
    rw [hs] at h
    dsimp only at h
    unfold stepPlain at h
    split at h
    · next hc =>
      cases h
      exact .blank hs hc
    next hblank =>
    split at h
    · next hc =>
      cases h
      exact .line hs hc
    next hline =>
    split at h
    · next hc =>
      cases h
      rw [s.openWord_eq]
      exact .openSingle hs hc
    next hsingle =>
    split at h
    · next hc =>
      cases h
      rw [s.openWord_eq]
      exact .openDouble hs hc
    next hdouble =>
    split at h
    · next hc =>
      cases h
      exact .backslash hs hc
    next hback =>
    split at h
    · next hc =>
      cases h
      exact .hash hs hc.2
    next hhash =>
    obtain ⟨hspecial, h⟩ := Option.ite_none_left_eq_some.mp h
    cases h
    push Not at hspecial hhash
    refine .plain hs ?_ fun hcur => ⟨hhash hcur, hspecial.2 hcur⟩
    unfold isPlainChar
    rw [Bool.eq_false_iff.mpr hblank, decide_eq_true ⟨hline, hsingle, hdouble, hback, hspecial.1, hnull⟩]
    rfl
  | escape =>
    rw [hs] at h
    dsimp only at h
    split at h
    · next hc =>
      cases h
      exact .joined hs hc
    · cases h
      exact .escaped hs
  | single =>
    rw [hs] at h
    dsimp only at h
    split at h
    · next hc =>
      cases h
      exact .closeSingle hs hc
    · next hc =>
      cases h
      exact .inSingle hs hc
  | double =>
    rw [hs] at h
    dsimp only at h
    split at h
    · next hc =>
      cases h
      exact .closeDouble hs hc
    split at h
    · cases h
      exact .backslashDouble hs
    obtain ⟨-, h⟩ := Option.ite_none_left_eq_some.mp h
    cases h
    exact .inDouble hs
  | doubleEscape =>
    rw [hs] at h
    dsimp only at h
    split at h
    · cases h
      exact .joinedDouble hs
    split at h
    · cases h
      exact .escapedDouble hs
    · cases h
      rw [s.emit_eq, Lexer.emit_eq, s.append_append]
      exact .keptBackslash hs
  | comment =>
    rw [hs] at h
    dsimp only at h
    split at h
    · cases h
      exact .closeComment hs
    · cases h
      exact .inComment hs

/-- A character other than the backslash is kept once, or lost. -/
theorem count_step {s t : Lexer} {c d : Char} (hd : d ≠ '\\') (h : step s c = some t) :
    t.content.count d ≤ s.content.count d + [c].count d := by
  have hback : List.count d [('\\' : Char)] = 0 := List.count_eq_zero.mpr (by simpa using hd)
  cases (step_cases h).2 <;>
    simp only [content_endWord, content_endCommand, content_setMode, content_append, Word.text,
      List.map_cons, List.map_nil, List.append_nil, List.count_append, List.count_cons] at hback ⊢ <;>
    omega

theorem count_run {d : Char} (hd : d ≠ '\\') {a : List Char} {s t : Lexer} (h : run s a = some t) :
    t.content.count d ≤ s.content.count d + a.count d := by
  induction a generalizing s with
  | nil =>
    cases h
    exact Nat.le_add_right _ _
  | cons c cs ih =>
    obtain ⟨u, hstep, hrun⟩ := Option.bind_eq_some_iff.mp h
    have hfirst := count_step hd hstep
    have hrest := ih hrun
    rw [← List.singleton_append, List.count_append]
    omega

/-- The characters kept, and the backslash that waits for the next one between double quotes. -/
def Lexer.size (s : Lexer) : ℕ := s.content.length + if s.mode = .doubleEscape then 1 else 0

theorem size_step {s t : Lexer} {c : Char} (h : step s c = some t) : t.size ≤ s.size + 1 := by
  unfold Lexer.size
  cases (step_cases h).2 with
  | _ hs =>
    simp [hs, content_endWord, content_endCommand, content_setMode, content_append, Word.text] <;> omega

theorem run_null {a : List Char} {s t : Lexer} (h : run s a = some t) : Char.ofNat 0 ∉ a := by
  induction a generalizing s with
  | nil => exact List.not_mem_nil
  | cons c cs ih =>
    obtain ⟨u, hstep, hrun⟩ := Option.bind_eq_some_iff.mp h
    exact List.not_mem_cons_of_ne_of_not_mem (step_cases hstep).1.symm (ih hrun)

theorem size_run {a : List Char} {s t : Lexer} (h : run s a = some t) : t.size ≤ s.size + a.length := by
  induction a generalizing s with
  | nil =>
    cases h
    exact Nat.le_add_right _ _
  | cons c cs ih =>
    obtain ⟨u, hstep, hrun⟩ := Option.bind_eq_some_iff.mp h
    have hfirst := size_step hstep
    have hrest := ih hrun
    rw [List.length_cons]
    omega

/-- A step out of plain text that keeps its character. -/
theorem plain_of_size {s t : Lexer} {c : Char} (hs : s.mode = .plain) (h : step s c = some t)
    (hsize : s.size + 1 ≤ t.size) : isPlainChar c = true ∧ (s.cur = none → c ≠ '#' ∧ c ≠ '~') ∧
      t = s.append [(c, false)] := by
  unfold Lexer.size at hsize
  cases (step_cases h).2 with
  | plain _ hc hcur => exact ⟨hc, hcur, rfl⟩
  | _ hs' =>
    simp [hs, content_endWord, content_endCommand, content_setMode, content_append, Word.text] at hs' hsize

/-- **A run from plain text that keeps every character has read a word.** -/
theorem plain_of_tight {a : List Char} {s t : Lexer} (hs : s.mode = .plain) (h : run s a = some t)
    (hsize : s.size + a.length ≤ t.size) :
    t.mode = .plain ∧ (∀ c ∈ a, isPlainChar c = true) ∧ (s.cur = none → ∀ c ∈ a.head?, c ≠ '#' ∧ c ≠ '~') := by
  induction a generalizing s with
  | nil =>
    cases h
    exact ⟨hs, List.forall_mem_nil _, fun _ => nofun⟩
  | cons c cs ih =>
    obtain ⟨u, hstep, hrun⟩ := Option.bind_eq_some_iff.mp h
    have hfirst := size_step hstep
    have hrest := size_run hrun
    rw [List.length_cons] at hsize
    obtain ⟨hc, hcur, rfl⟩ := plain_of_size hs hstep (by omega)
    obtain ⟨hmode, hcs, -⟩ := ih (s := s.append _) hs hrun (by omega)
    refine ⟨hmode, List.forall_mem_cons.mpr ⟨hc, hcs⟩, fun hn d hd => ?_⟩
    cases hd
    exact hcur hn

/-! ### Quotes, escapes and comments -/

/-- Outside double quotes and comments. -/
def Calm (s : Lexer) : Prop := s.mode = .plain ∨ s.mode = .escape ∨ s.mode = .single

/-- No double quote and no hash sign is lost. -/
def Keeps (s t : Lexer) (a : List Char) : Prop :=
  ∀ c : Char, c = '"' ∨ c = '#' → s.content.count c + a.count c ≤ t.content.count c

theorem Keeps.split {s t u : Lexer} {a b : List Char} (h : Keeps s t (a ++ b)) (ha : run s a = some u)
    (hb : run u b = some t) : Keeps s u a ∧ Keeps u t b := by
  have hne : ∀ c : Char, c = '"' ∨ c = '#' → c ≠ '\\' := by
    rintro c (rfl | rfl) <;> decide
  refine ⟨fun c hc => ?_, fun c hc => ?_⟩
  all_goals
    have hboth := h c hc
    have hfirst := count_run (hne c hc) ha
    have hrest := count_run (hne c hc) hb
    rw [List.count_append] at hboth
    omega

theorem calm_step {s t : Lexer} {c : Char} (hs : Calm s) (h : step s c = some t) (hkeeps : Keeps s t [c]) :
    Calm t := by
  unfold Calm at hs ⊢
  cases (step_cases h).2 with
  | openDouble _ hc =>
    have hlost := hkeeps c (Or.inl hc)
    rw [content_setMode, content_append] at hlost
    simp [Word.text] at hlost
  | hash _ hc =>
    have hlost := hkeeps c (Or.inr hc)
    rw [content_setMode] at hlost
    simp at hlost
  | _ hs' => simp [hs'] at hs ⊢

theorem calm_run {a : List Char} {s t : Lexer} (hs : Calm s) (h : run s a = some t) (hkeeps : Keeps s t a) :
    Calm t := by
  induction a generalizing s with
  | nil =>
    cases h
    exact hs
  | cons c cs ih =>
    obtain ⟨u, hstep, hrun⟩ := Option.bind_eq_some_iff.mp h
    have hstep' : run s [c] = some u := by
      show (step s c).bind _ = _
      rw [hstep]
      rfl
    obtain ⟨hfirst, hrest⟩ := Keeps.split (a := [c]) hkeeps hstep' hrun
    exact ih (calm_step hs hstep hfirst) hrun hrest

/-! ### A quoted text read from outside its quotes -/

theorem step_of_calm_plain {s t : Lexer} {c : Char} (hs : s.mode = .plain) (hq : c ≠ '\'')
    (h : step s c = some t) (ht : Calm t) : t.mode = .plain ∨ (t.mode = .escape ∧ c = '\\') := by
  unfold Calm at ht
  cases (step_cases h).2 with
  | backslash _ hc => exact Or.inr ⟨rfl, hc⟩
  | openSingle _ hc => exact absurd hc hq
  | _ hs' => simp [hs] at ht hs' ⊢

/-- Where reading the body of a quoted text from outside leads: it never comes to an end outside, or
the word ends with what the text does not. -/
inductive Shifted (v : List Char) (t : Lexer) : Prop
  | plain (hmode : t.mode = .plain)
  | escape (hmode : t.mode = .escape) (a : List Char) (hv : v = a ++ ['\\'])
  | single (hmode : t.mode = .single) (a b x y : List Char) (hv : v = a ++ '\'' :: b)
      (hword : (t.cur.getD []).text = x ++ y ++ b)
      (hy : y = ['\\'] ∨ (y = ['\'', '\''] ∧ ∃ a', a = a' ++ ['\\']))

theorem run_single_step {s t : Lexer} {c : Char} (h : run s [c] = some t) : step s c = some t := by
  obtain ⟨u, hu, he⟩ := Option.bind_eq_some_iff.mp h
  cases he
  exact hu

/-- A quote of the body, read in plain text. -/
theorem run_quote_plain {s : Lexer} (hs : s.mode = .plain) :
    run s ['\'', '\\', '\'', '\''] = some ((s.append [('\\', true)]).setMode .single) := by
  show (step s '\'').bind (fun t => (step t '\\').bind fun t => (step t '\'').bind fun t =>
    (step t '\'').bind fun t => some t) = _
  rw [step_open hs, Option.bind_some, step_single rfl (by decide) (by decide), Option.bind_some,
    step_close rfl, Option.bind_some, step_open rfl, Option.bind_some]
  simp only [Lexer.append_setMode, Lexer.setMode_setMode, Lexer.append_append, List.append_nil,
    List.nil_append]

/-- A quote of the body, read behind a backslash. -/
theorem run_quote_escape {s : Lexer} (hs : s.mode = .escape) :
    run s ['\'', '\\', '\'', '\''] =
      some ((s.append [('\'', true), ('\'', true)]).setMode .single) := by
  show (step s '\'').bind (fun t => (step t '\\').bind fun t => (step t '\'').bind fun t =>
    (step t '\'').bind fun t => some t) = _
  rw [step_escape hs (by decide) (by decide), Option.bind_some, step_backslash rfl, Option.bind_some,
    step_escape rfl (by decide) (by decide), Option.bind_some, step_open rfl, Option.bind_some]
  simp only [Lexer.append_setMode, Lexer.setMode_setMode, Lexer.append_append, List.append_nil]
  rfl

theorem shifted_step {v : List Char} {c : Char} {s t : Lexer} (h : Shifted v s)
    (hrun : run s (quoteBody [c]) = some t) (ht : Calm t) : Shifted (v ++ [c]) t := by
  by_cases hq : c = '\''
  · subst hq
    rw [quoteBody_quote] at hrun
    cases h with
    | plain hmode =>
      rw [run_quote_plain hmode] at hrun
      cases hrun
      refine .single rfl v [] (s.cur.getD []).text ['\\'] rfl ?_ (Or.inl rfl)
      simp [Word.text]
    | escape hmode a hv =>
      rw [run_quote_escape hmode] at hrun
      cases hrun
      refine .single rfl v [] (s.cur.getD []).text ['\'', '\''] rfl ?_ (Or.inr ⟨rfl, a, hv⟩)
      simp [Word.text]
    | single hmode a b x y hv hword hy =>
      rw [← quoteBody_quote, run_quoteBody_char hmode (by decide)] at hrun
      cases hrun
      refine .single hmode a (b ++ ['\'']) x y (by rw [hv]; simp) ?_ hy
      simp only [Lexer.cur_append, Option.getD_some, Word.text_append, hword]
      simp [Word.text]
  · cases h with
    | plain hmode =>
      rw [quoteBody_of_ne hq] at hrun
      rcases step_of_calm_plain hmode hq (run_single_step hrun) ht with h | ⟨h, rfl⟩
      · exact .plain h
      · exact .escape h v rfl
    | escape hmode a hv =>
      rw [quoteBody_of_ne hq] at hrun
      refine .plain ?_
      cases (step_cases (run_single_step hrun)).2 with
      | joined _ _ => rfl
      | escaped _ => rfl
      | _ hs => simp [hmode] at hs
    | single hmode a b x y hv hword hy =>
      have hnull : c ≠ Char.ofNat 0 := by
        rw [quoteBody_of_ne hq] at hrun
        exact (step_cases (run_single_step hrun)).1
      rw [run_quoteBody_char hmode hnull] at hrun
      cases hrun
      refine .single hmode a (b ++ [c]) x y (by rw [hv]; simp) ?_ hy
      simp only [Lexer.cur_append, Option.getD_some, Word.text_append, hword]
      simp [Word.text]

/-- **A quoted text, read from outside its quotes.** -/
theorem run_shifted {v : List Char} {s t : Lexer} (hs : s.mode = .plain)
    (hrun : run s (quoteBody v) = some t) (hkeeps : Keeps s t (quoteBody v)) : Shifted v t := by
  induction v using List.reverseRecOn generalizing t with
  | nil =>
    cases hrun
    exact .plain hs
  | append_singleton v c ih =>
    rw [quoteBody_append] at hrun hkeeps
    rw [run_append] at hrun
    obtain ⟨u, hfirst, hlast⟩ := Option.bind_eq_some_iff.mp hrun
    obtain ⟨hkeeps₁, hkeeps₂⟩ := hkeeps.split hfirst hlast
    have hu : Calm u := calm_run (Or.inl hs) hfirst hkeeps₁
    exact shifted_step (ih hfirst hkeeps₁) hlast (calm_run hu hlast hkeeps₂)

/-! ### A line and its words -/

/-- What is lost of a line are blanks, single quotes and backslashes. -/
theorem count_quoteBody {d : Char} (hq : d ≠ '\'') (hb : d ≠ '\\') (v : List Char) :
    (quoteBody v).count d = v.count d := by
  induction v with
  | nil => rfl
  | cons c cs ih =>
    have hcons : List.count d ([c] ++ cs) = List.count d [c] + List.count d cs := List.count_append
    show _ = List.count d ([c] ++ cs)
    rw [quoteBody_cons, List.count_append, ih, hcons]
    by_cases hc : c = '\''
    · subst hc
      have hzero : ∀ x ∈ [('\'' : Char), '\\'], (x == d) = false := by
        intro x hx
        simp only [List.mem_cons, List.not_mem_nil, or_false] at hx
        rcases hx with rfl | rfl
        · exact beq_eq_false_iff_ne.mpr hq.symm
        · exact beq_eq_false_iff_ne.mpr hb.symm
      simp [quoteBody_quote, List.count_cons, hzero]
    · rw [quoteBody_of_ne hc]

theorem count_spaced {d : Char} (hs : d ≠ ' ') (ws : List (List Char)) :
    (spaced ws).count d = ws.flatten.count d := by
  induction ws with
  | nil => rfl
  | cons w ws ih =>
    rw [spaced_cons, List.count_cons_of_ne hs.symm, List.count_append, ih, List.flatten_cons,
      List.count_append]

theorem Line.count_text (l : Line) {d : Char} (hs : d ≠ ' ') (hq : d ≠ '\'') (hb : d ≠ '\\') :
    l.text.count d = l.args.flatten.count d := by
  have hquote : (quote l.value).count d = l.value.count d := by
    unfold quote
    rw [List.count_cons_of_ne hq.symm, List.count_append, count_quoteBody hq hb,
      List.count_singleton, beq_eq_false_iff_ne.mpr hq.symm]
    rfl
  unfold Line.text Line.args
  rw [List.count_append, List.count_append, List.count_cons_of_ne hs.symm, List.count_append,
    count_spaced hs, count_spaced hs, hquote, List.flatten_append, List.flatten_cons, List.count_append,
    List.count_append, List.count_append]

/-- What the words of a finished program hold. -/
theorem content_finish {s : Lexer} {cs : List (List Word)} (h : finish s = some cs) :
    s.content = (cs.map (List.map Word.text)).flatten.flatten := by
  unfold finish at h
  obtain ⟨-, h⟩ := Option.ite_none_right_eq_some.mp h
  cases h
  rw [← content_endCommand]
  have hall : s.endCommand.all = [] := rfl
  unfold Lexer.content
  rw [hall, List.append_nil, List.flatMap_def, List.map_flatten]

/-- The arguments up to where the first of them begins. -/
def Line.tail (l : Line) : List Char := l.text.tail

theorem Line.text_eq (l : Line) : l.text = ' ' :: l.tail := by
  unfold Line.tail Line.text
  cases l.front <;> rfl

/-- Where a word is begun, the first argument is joined to it. -/
theorem Line.run_tail (l : Line) (hv : Char.ofNat 0 ∉ l.value) {s : Lexer} (hs : s.mode = .plain) :
    ∃ t w ws, run s l.tail = some t ∧ t.mode = .plain ∧ t.cur ≠ none ∧ t.commands = s.commands ∧
      l.words = w :: ws ∧ t.all = s.words ++ (s.cur.getD [] ++ w) :: ws := by
  obtain ⟨front, key, value, back, hfront, hkey, hback⟩ := l
  cases front with
  | nil =>
    obtain ⟨t, hrun, ht⟩ := run_spaced hback (s := s.append (plainWord key ++ quotedWord value)) hs
    refine ⟨t, plainWord key ++ quotedWord value, back.map plainWord, ?_, ht.mode,
      ht.cur (Option.some_ne_none _), ht.commands, rfl, ?_⟩
    · show run s ((key ++ quote value) ++ spaced back) = _
      rw [run_append_of_eq (run_quoted hkey hv hs), hrun]
    · rw [ht.all]
      show (s.words ++ [s.cur.getD [] ++ _]) ++ _ = _
      rw [List.append_assoc]
      rfl
  | cons f fs =>
    obtain ⟨t, hrun, ht, hcur⟩ := Line.run_text
      ⟨fs, key, value, back, fun g hg => hfront g (List.mem_cons_of_mem f hg), hkey, hback⟩ hv
      (s := s.append (plainWord f)) hs
    refine ⟨t, plainWord f, _, ?_, ht.mode, hcur, ht.commands, rfl, ?_⟩
    · show run s (f ++ spaced fs ++ (' ' :: (key ++ quote value) ++ spaced back)) = _
      rw [List.append_assoc, run_append_of_eq (run_word (hfront f List.mem_cons_self) hs)]
      exact hrun
    · rw [ht.all]
      show (s.words ++ [s.cur.getD [] ++ _]) ++ _ = _
      rw [List.append_assoc]
      rfl

/-- Between quotes a text without quotes is read to its end. -/
theorem run_single {v : List Char} (hq : '\'' ∉ v) (hv : Char.ofNat 0 ∉ v) {s : Lexer}
    (hs : s.mode = .single) : ∃ t, run s v = some t ∧ t.mode = .single := by
  induction v generalizing s with
  | nil => exact ⟨s, rfl, hs⟩
  | cons c cs ih =>
    obtain ⟨hc, hcs⟩ := List.ne_and_not_mem_of_not_mem_cons hq
    obtain ⟨hn, hns⟩ := List.ne_and_not_mem_of_not_mem_cons hv
    obtain ⟨t, hrun, ht⟩ := ih hcs hns (s := s.append [(c, true)]) hs
    refine ⟨t, ?_, ht⟩
    show (step s c).bind _ = _
    rw [step_single hs hn.symm hc.symm]
    exact hrun

theorem PlainWord.not_quote {v : List Char} (h : PlainWord v) : '\'' ∉ v := by
  intro hmem
  exact absurd (h.isPlain _ hmem) (by decide)

theorem PlainWord.not_null {v : List Char} (h : PlainWord v) : Char.ofNat 0 ∉ v := by
  intro hmem
  exact absurd (h.isPlain _ hmem) (by decide)

theorem not_mem_spaced {d : Char} (hd : d ≠ ' ') {ws : List (List Char)} (h : ∀ w ∈ ws, d ∉ w) :
    d ∉ spaced ws := by
  induction ws with
  | nil => exact List.not_mem_nil
  | cons w ws ih =>
    rw [spaced_cons]
    refine List.not_mem_cons_of_ne_of_not_mem hd fun hmem => ?_
    rcases List.mem_append.mp hmem with hmem | hmem
    · exact h w List.mem_cons_self hmem
    · exact ih (fun x hx => h x (List.mem_cons_of_mem w hx)) hmem

/-- A word that is joined to what stands before is not what was meant. -/
theorem eq_nil_of_joined {xs ys : List (List Char)} {a b c : List Char}
    (h : xs ++ (a ++ b) :: ys = c :: b :: ys) : a = [] := by
  have hlen := congrArg List.length h
  simp only [List.length_append, List.length_cons] at hlen
  obtain ⟨x, rfl⟩ := List.length_eq_one_iff.mp (show xs.length = 1 by omega)
  have hsecond := (List.cons.inj (List.cons.inj h).2).1
  exact List.append_left_eq_self.mp hsecond

theorem Line.not_null (l : Line) (h : Char.ofNat 0 ∉ l.text) : Char.ofNat 0 ∉ l.value := by
  intro hmem
  refine h (List.count_pos_iff.mp ?_)
  rw [l.count_text (by decide) (by decide) (by decide), List.count_pos_iff]
  refine List.mem_flatten.mpr ⟨l.key ++ l.value, ?_, List.mem_append_right _ hmem⟩
  exact List.mem_append_right _ List.mem_cons_self

/-- The one command of a finished program. -/
theorem finish_single {s : Lexer} {ws : List Word} (hmode : s.mode = .plain) (hcur : s.cur ≠ none)
    (h : finish s = some [ws]) : s.commands = [] ∧ ws = s.all := by
  rw [finish_plain hmode hcur, Option.some.injEq, List.append_eq_singleton_iff] at h
  rcases h with ⟨hnil, hall⟩ | ⟨-, habs⟩
  · exact ⟨hnil, (List.cons.inj hall).1.symm⟩
  · cases habs

section Necessary

variable {l : Line} {p : List Char} {s t : Lexer} {ws : List Word}

/-- The name was read as a word, and the words are those meant. -/
theorem commandWord_of_plain (hrun : run .start p = some s) (hs : s.mode = .plain)
    (hline : run s l.text = some t) (hfinish : finish t = some [ws]) (hcommand : isCommand ws = true)
    (hwords : ws.map Word.text = p :: l.args) : CommandWord p := by
  obtain ⟨u, hrun', hafter, hcur⟩ := l.run_text (l.not_null (run_null hline)) hs
  obtain rfl := Option.some.inj (hline.symm.trans hrun')
  obtain ⟨hnil, rfl⟩ := finish_single hafter.mode hcur hfinish
  rw [hafter.all, List.map_append, l.text_words, ← List.singleton_append] at hwords
  have hall : s.all.map Word.text = [p] := List.append_cancel_right hwords
  have hcontent : s.content = p := by
    unfold Lexer.content
    rw [← hafter.commands, hnil, List.flatten_nil, List.nil_append, List.flatMap_def, hall]
    exact List.append_nil p
  have hsize : Lexer.start.size + p.length ≤ s.size := by
    have hstart : Lexer.start.size = 0 := rfl
    rw [hstart, Nat.zero_add]
    unfold Lexer.size
    rw [hcontent]
    exact Nat.le_add_right _ _
  obtain ⟨-, hplain, hhead⟩ := plain_of_tight rfl hrun hsize
  have hne : p ≠ [] := by
    rintro rfl
    cases hrun
    cases hall
  have hword : PlainWord p := ⟨hne, hplain, hhead rfl⟩
  refine ⟨hword, ?_⟩
  rw [run_word hword (s := .start) rfl] at hrun
  cases hrun
  rw [hafter.all] at hcommand
  exact hcommand

/-- A backslash at the end of the name takes in the blank. -/
theorem not_escape (hs : s.mode = .escape) (hline : run s l.text = some t) (hfinish : finish t = some [ws])
    (hwords : ws.map Word.text = p :: l.args) : False := by
  have hv := l.not_null (run_null hline)
  rw [l.text_eq] at hline
  obtain ⟨u, hstep, hrest⟩ := Option.bind_eq_some_iff.mp hline
  rw [step_escape hs (by decide) (by decide)] at hstep
  cases hstep
  obtain ⟨u, w, vs, hrun, hmode, hcur, -, hl, hall⟩ :=
    l.run_tail hv (s := (s.append [(' ', true)]).setMode .plain) rfl
  obtain rfl := Option.some.inj (hrest.symm.trans hrun)
  obtain ⟨-, rfl⟩ := finish_single hmode hcur hfinish
  rw [hall, ← l.text_words, hl, List.map_append, List.map_cons, List.map_cons, Word.text_append] at hwords
  have hnil := eq_nil_of_joined hwords
  simp [Word.text] at hnil

/-- What the argument behind the quotes is. -/
theorem text_of_cur {w : Word} (hs : s.mode = .plain) (hcur : s.cur = some w)
    (hline : run s (spaced l.back) = some t) (hfinish : finish t = some [ws])
    (hwords : ws.map Word.text = p :: l.args) : w.text = l.key ++ l.value := by
  obtain ⟨u, hrun, hafter⟩ := run_spaced l.back_plain hs
  obtain rfl := Option.some.inj (hline.symm.trans hrun)
  have hsome : s.cur ≠ none := by
    rw [hcur]
    exact Option.some_ne_none w
  obtain ⟨-, rfl⟩ := finish_single hafter.mode (hafter.cur hsome) hfinish
  have hback : (l.back.map plainWord).map Word.text = l.back := by
    rw [List.map_map]
    exact (List.map_congr_left fun w _ => text_plainWord w).trans (List.map_id _)
  have hargs : p :: l.args = ((p :: l.front) ++ [l.key ++ l.value]) ++ l.back := by
    unfold Line.args
    simp
  rw [hafter.all, List.map_append, hback, hargs] at hwords
  have hall := List.append_cancel_right hwords
  unfold Lexer.all at hall
  rw [hcur, Option.toList_some, List.map_append] at hall
  exact List.singleton_inj.mp (List.append_inj' hall rfl).2

/-- A quote left open by the name turns the quotes around. -/
theorem not_single (hs : s.mode = .single) (hline : run s l.text = some t) (hkeeps : Keeps s t l.text)
    (hfinish : finish t = some [ws]) (hwords : ws.map Word.text = p :: l.args) : False := by
  have hquote : ∀ {vs : List (List Char)}, (∀ v ∈ vs, PlainWord v) → '\'' ∉ spaced vs :=
    fun h => not_mem_spaced (by decide) fun v hv => (h v hv).not_quote
  have hnull : ∀ {vs : List (List Char)}, (∀ v ∈ vs, PlainWord v) → Char.ofNat 0 ∉ spaced vs :=
    fun h => not_mem_spaced (by decide) fun v hv => (h v hv).not_null
  have hkey : '\'' ∉ spaced [l.key] ∧ Char.ofNat 0 ∉ spaced [l.key] := by
    rcases l.key_plain with hk | hk
    · rw [hk]
      decide
    · exact ⟨hquote (List.forall_mem_singleton.mpr hk), hnull (List.forall_mem_singleton.mpr hk)⟩
  have htext : l.text = (spaced l.front ++ spaced [l.key]) ++
      (['\''] ++ (quoteBody l.value ++ (['\''] ++ spaced l.back))) := by
    unfold Line.text quote spaced
    simp
  rw [htext] at hline hkeeps
  obtain ⟨a, ha, hamode⟩ := run_single (List.not_mem_append (hquote l.front_plain) hkey.1)
    (List.not_mem_append (hnull l.front_plain) hkey.2) hs
  rw [run_append_of_eq ha] at hline
  have hb : run a ['\''] = some (a.setMode .plain) := by
    show (step a '\'').bind _ = _
    rw [step_close hamode]
    rfl
  have hline' := hline
  rw [run_append_of_eq hb, run_append] at hline'
  obtain ⟨c, hc, hrest⟩ := Option.bind_eq_some_iff.mp hline'
  have hbody := ((hkeeps.split ha hline).2.split hb (by rw [← hline, run_append_of_eq hb])).2.split hc hrest
  have hshift := run_shifted rfl hc hbody.1
  obtain ⟨d, hd, hback⟩ := Option.bind_eq_some_iff.mp hrest
  cases hshift with
  | plain hmode =>
    rw [step_open hmode] at hd
    cases hd
    obtain ⟨e, he, hemode⟩ := run_single (hquote l.back_plain) (hnull l.back_plain)
      (s := (c.append []).setMode .single) rfl
    obtain rfl := Option.some.inj (hback.symm.trans he)
    unfold finish at hfinish
    rw [hemode] at hfinish
    simp at hfinish
  | escape hmode x hv =>
    rw [step_escape hmode (by decide) (by decide)] at hd
    cases hd
    have hlast := text_of_cur (s := (c.append _).setMode .plain) rfl rfl hback hfinish hwords
    rw [hv, ← List.append_assoc, Word.text_append] at hlast
    exact absurd (List.append_inj' hlast rfl).2 (by decide)
  | single hmode x b y z hv hword hz =>
    rw [step_close hmode] at hd
    cases hd
    cases hcur : c.cur with
    | none =>
      rw [hcur] at hword
      rcases hz with rfl | ⟨rfl, -⟩ <;> simp [Word.text] at hword
    | some w =>
      have hlast := text_of_cur (s := c.setMode .plain) rfl hcur hback hfinish hwords
      rw [hcur, Option.getD_some, hlast, hv, ← List.append_assoc, List.append_cons] at hword
      have hfront := List.append_cancel_right hword
      rcases hz with rfl | ⟨rfl, x', rfl⟩
      · exact absurd (List.append_inj' hfront rfl).2 (by decide)
      · have hends : l.key ++ x' ++ ['\\', '\''] = y ++ ['\'', '\''] := by
          rw [← hfront]
          simp
        exact absurd (List.append_inj' hends rfl).2 (by decide)

end Necessary

/-- **The lines that are read as they were meant.** -/
theorem parse_line_iff (l : Line) (p : List Char) :
    parse (p ++ l.text) = some [p :: l.args] ↔ CommandWord p ∧ Char.ofNat 0 ∉ l.value := by
  constructor
  · intro h
    obtain ⟨cs, hcs, hwords⟩ := Option.bind_eq_some_iff.mp h
    obtain ⟨t, hrun, hfinish⟩ := Option.bind_eq_some_iff.mp hcs
    obtain ⟨hcommands, hwords⟩ := Option.ite_none_right_eq_some.mp hwords
    have hwords := Option.some.inj hwords
    obtain ⟨ws, rfl⟩ : ∃ ws, cs = [ws] := by
      refine List.length_eq_one_iff.mp ?_
      have hlen := congrArg List.length hwords
      rwa [List.length_map] at hlen
    have hone : ws.map Word.text = p :: l.args := (List.cons.inj hwords).1
    have hcommand : isCommand ws = true := by
      rw [List.all_cons, Bool.and_eq_true] at hcommands
      exact hcommands.1
    rw [run_append] at hrun
    obtain ⟨s, hname, hline⟩ := Option.bind_eq_some_iff.mp hrun
    have hkeeps : Keeps .start t (p ++ l.text) := by
      intro c hc
      have hcount : l.text.count c = l.args.flatten.count c := by
        rcases hc with rfl | rfl <;> exact l.count_text (by decide) (by decide) (by decide)
      rw [content_finish hfinish, hwords, List.flatten_singleton, List.flatten_cons, List.count_append,
        List.count_append, hcount]
      exact (Nat.zero_add _).le
    obtain ⟨hkeeps₁, hkeeps₂⟩ := hkeeps.split hname hline
    refine ⟨?_, l.not_null (run_null hline)⟩
    rcases calm_run (Or.inl rfl) hname hkeeps₁ with hmode | hmode | hmode
    · exact commandWord_of_plain hname hmode hline hfinish hcommand hone
    · exact (not_escape hmode hline hfinish hone).elim
    · exact (not_single hmode hline hkeeps₂ hfinish hone).elim
  · rintro ⟨hp, hv⟩
    exact l.parse_text hv hp

end Shell

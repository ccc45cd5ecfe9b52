import Mathlib.Data.List.Infix
import Mathlib.Data.List.Count
import Mathlib.Tactic.Common

/-!
# Words of a shell program

The lexical part of the POSIX shell language: blanks and newlines, quotes, comments.  A program with
an operator, an expansion or a compound command has no reading here.

* `step`, `run`, `parse` — one character, a text, a whole program as its argument vectors;
* `quote` — a text between single quotes;
* `run_quote` — **PROVED**: a quoted text is read back;
* `Tight` — **PROVED** of a run that loses none of the characters of a kind: no quote, comment or
  line break was made of them.
-/

namespace Shell

/-- A character, and whether it was quoted. -/
abbrev Word := List (Char × Bool)

def Word.text (w : Word) : List Char := w.map Prod.fst

inductive Mode
  | plain
  | escape
  | single
  | double
  | doubleEscape
  | comment
  deriving DecidableEq, Repr

/-- The word begun, if any, the words of the command at hand, and the commands before. -/
structure Lexer where
  mode : Mode
  cur : Option Word
  words : List Word
  commands : List (List Word)
  deriving DecidableEq, Repr

namespace Lexer

def start : Lexer := ⟨.plain, none, [], []⟩

def setMode (s : Lexer) (m : Mode) : Lexer := { s with mode := m }

/-- A character goes to the word. -/
def emit (s : Lexer) (c : Char) (quoted : Bool) : Lexer :=
  { s with cur := some (s.cur.getD [] ++ [(c, quoted)]) }

/-- Quotes begin a word even if nothing is between them. -/
def openWord (s : Lexer) : Lexer := { s with cur := some (s.cur.getD []) }

def endWord (s : Lexer) : Lexer := { s with cur := none, words := s.words ++ s.cur.toList }

def endCommand (s : Lexer) : Lexer :=
  let words := s.words ++ s.cur.toList
  { s with cur := none, words := [], commands := s.commands ++ if words = [] then [] else [words] }

end Lexer

def isBlank (c : Char) : Bool := c = ' ' || c = '\t'

/-- The operators, what begins an expansion, and the characters of patterns. -/
def specials : List Char :=
  ['|', '&', ';', '<', '>', '(', ')', '$', (Char.ofNat 96), '*', '?', '[']

def stepPlain (s : Lexer) (c : Char) : Option Lexer :=
  if isBlank c then some s.endWord
  else if c = '\n' then some s.endCommand
  else if c = '\'' then some (s.openWord.setMode .single)
  else if c = '"' then some (s.openWord.setMode .double)
  else if c = '\\' then some (s.setMode .escape)
  else if s.cur = none ∧ c = '#' then some (s.setMode .comment)
  else if c ∈ specials ∨ (s.cur = none ∧ c = '~') then none
  else some (s.emit c false)

/-- What a backslash keeps its meaning before, between double quotes. -/
def doubleEscaped : List Char := ['$', (Char.ofNat 96), '"', '\\']

/-- One character of a program; nothing for what is more than words. -/
def step (s : Lexer) (c : Char) : Option Lexer :=
  if c = Char.ofNat 0 then none
  else match s.mode with
    | .plain => stepPlain s c
    | .escape =>
      if c = '\n' then some (s.setMode .plain) else some ((s.emit c true).setMode .plain)
    | .single => if c = '\'' then some (s.setMode .plain) else some (s.emit c true)
    | .double =>
      if c = '"' then some (s.setMode .plain)
      else if c = '\\' then some (s.setMode .doubleEscape)
      else if c = '$' ∨ c = Char.ofNat 96 then none
      else some (s.emit c true)
    | .doubleEscape =>
      if c = '\n' then some (s.setMode .double)
      else if c ∈ doubleEscaped then some ((s.emit c true).setMode .double)
      else some (((s.emit '\\' true).emit c true).setMode .double)
    | .comment => if c = '\n' then some (s.endCommand.setMode .plain) else some s

def run (s : Lexer) : List Char → Option Lexer
  | [] => some s
  | c :: cs => (step s c).bind fun t => run t cs

/-- The commands read, when no quote is left open. -/
def finish (s : Lexer) : Option (List (List Word)) :=
  if s.mode = .plain ∨ s.mode = .comment then some s.endCommand.commands else none

def reserved : List String :=
  ["!", "\x7b", "\x7d", "case", "do", "done", "elif", "else", "esac", "fi", "for", "if", "in", "then",
    "until", "while"]

def isNameChar (c : Char) : Bool := c.isAlphanum || c = '_'

/-- A name that a variable may have. -/
def isName (w : Word) : Bool :=
  w.all (fun x => isNameChar x.1 && !x.2) && (w.head?.map fun x => !x.1.isDigit).getD false

/-- The word assigns a variable in front of a command. -/
def isAssignment (w : Word) : Bool :=
  decide (('=', false) ∈ w) && isName (w.takeWhile fun x => decide (x ≠ ('=', false)))

def isReserved (w : Word) : Bool :=
  w.all (fun x => !x.2) && decide (String.ofList w.text ∈ reserved)

/-- The first word is the name of a command. -/
def isCommand (ws : List Word) : Bool :=
  (ws.head?.map fun w => !isReserved w && !isAssignment w).getD false

/-- The argument vectors of a program that is made of words alone. -/
def parse (text : List Char) : Option (List (List (List Char))) :=
  ((run .start text).bind finish).bind fun cs =>
    if cs.all isCommand then some (cs.map (List.map Word.text)) else none

/-- A text between single quotes, each quote in it between others. -/
def quoteBody (s : List Char) : List Char :=
  s.flatMap fun c => if c = '\'' then ['\'', '\\', '\'', '\''] else [c]

def quote (s : List Char) : List Char := '\'' :: (quoteBody s ++ ['\''])

example : parse "a 'b c'\\''d' # e\nf\\ g".toList =
    some [["a".toList, "b c'd".toList], ["f g".toList]] := by decide

/-! ### Running -/

theorem run_append (s : Lexer) (a b : List Char) : run s (a ++ b) = (run s a).bind fun t => run t b := by
  induction a generalizing s with
  | nil => rfl
  | cons c cs ih =>
    show (step s c).bind (fun t => run t (cs ++ b)) = ((step s c).bind fun t => run t cs).bind _
    cases step s c with
    | none => rfl
    | some t => exact ih t

theorem run_append_of_eq {s t : Lexer} {a : List Char} (h : run s a = some t) (b : List Char) :
    run s (a ++ b) = run t b := by
  rw [run_append, h, Option.bind_some]

/-- What is no separator, quote, special character or null. -/
def isPlainChar (c : Char) : Bool :=
  !isBlank c && decide (c ≠ '\n' ∧ c ≠ '\'' ∧ c ≠ '"' ∧ c ≠ '\\' ∧ c ∉ specials ∧ c ≠ Char.ofNat 0)

/-- A word that stands for itself. -/
structure PlainWord (v : List Char) : Prop where
  ne_nil : v ≠ []
  isPlain : ∀ c ∈ v, isPlainChar c = true
  head : ∀ c ∈ v.head?, c ≠ '#' ∧ c ≠ '~'

theorem plainWord_iff (v : List Char) :
    (v ≠ [] ∧ v.all isPlainChar = true ∧ v.head?.all (fun c => decide (c ≠ '#' ∧ c ≠ '~')) = true) ↔
      PlainWord v := by
  constructor
  · rintro ⟨hne, hall, hhead⟩
    refine ⟨hne, List.all_eq_true.mp hall, fun c hc => ?_⟩
    rw [Option.mem_def.mp hc] at hhead
    exact of_decide_eq_true hhead
  · intro h
    refine ⟨h.ne_nil, List.all_eq_true.mpr h.isPlain, ?_⟩
    cases hv : v.head? with
    | none => rfl
    | some c => exact decide_eq_true (h.head c hv)

instance (v : List Char) : Decidable (PlainWord v) := decidable_of_iff _ (plainWord_iff v)

namespace Lexer

/-- Characters go to the word. -/
def append (s : Lexer) (w : Word) : Lexer := { s with cur := some (s.cur.getD [] ++ w) }

theorem emit_eq (s : Lexer) (c : Char) (q : Bool) : s.emit c q = s.append [(c, q)] := rfl

theorem openWord_eq (s : Lexer) : s.openWord = s.append [] := by
  unfold openWord append
  rw [List.append_nil]

theorem append_append (s : Lexer) (v w : Word) : (s.append v).append w = s.append (v ++ w) := by
  unfold append
  rw [Option.getD_some, List.append_assoc]

@[simp] theorem mode_append (s : Lexer) (w : Word) : (s.append w).mode = s.mode := rfl
@[simp] theorem words_append (s : Lexer) (w : Word) : (s.append w).words = s.words := rfl
@[simp] theorem commands_append (s : Lexer) (w : Word) : (s.append w).commands = s.commands := rfl
@[simp] theorem cur_append (s : Lexer) (w : Word) : (s.append w).cur = some (s.cur.getD [] ++ w) := rfl
@[simp] theorem mode_setMode (s : Lexer) (m : Mode) : (s.setMode m).mode = m := rfl
@[simp] theorem cur_setMode (s : Lexer) (m : Mode) : (s.setMode m).cur = s.cur := rfl
@[simp] theorem words_setMode (s : Lexer) (m : Mode) : (s.setMode m).words = s.words := rfl
@[simp] theorem commands_setMode (s : Lexer) (m : Mode) : (s.setMode m).commands = s.commands := rfl
@[simp] theorem setMode_setMode (s : Lexer) (m n : Mode) : (s.setMode m).setMode n = s.setMode n := rfl
@[simp] theorem append_setMode (s : Lexer) (w : Word) (m : Mode) :
    (s.append w).setMode m = (s.setMode m).append w := rfl

theorem setMode_self {s : Lexer} {m : Mode} (h : s.mode = m) : s.setMode m = s := by
  cases s
  cases h
  rfl

end Lexer

theorem step_plain {s : Lexer} {c : Char} (hs : s.mode = .plain) (hc : isPlainChar c = true)
    (hcur : s.cur = none → c ≠ '#' ∧ c ≠ '~') : step s c = some (s.append [(c, false)]) := by
  unfold isPlainChar at hc
  rw [Bool.and_eq_true, decide_eq_true_eq, Bool.not_eq_true'] at hc
  obtain ⟨hblank, hline, hsingle, hdouble, hback, hspecial, hnull⟩ := hc
  unfold step stepPlain
  rw [if_neg hnull, hs]
  dsimp only
  rw [hblank, if_neg Bool.false_ne_true, if_neg hline, if_neg hsingle, if_neg hdouble, if_neg hback,
    if_neg fun h => (hcur h.1).1 h.2, if_neg fun h => h.elim hspecial fun h => (hcur h.1).2 h.2,
    s.emit_eq]

/-- A word that stands for itself is read as it is. -/
theorem run_plain {v : List Char} (hv : ∀ c ∈ v, isPlainChar c = true) {s : Lexer}
    (hs : s.mode = .plain) (hcur : s.cur ≠ none) : run s v = some (s.append (v.map (·, false))) := by
  induction v generalizing s with
  | nil =>
    show some s = _
    cases hc : s.cur with
    | none => exact absurd hc hcur
    | some w =>
      unfold Lexer.append
      rw [hc, List.map_nil, List.append_nil, Option.getD_some, ← hc]
  | cons c cs ih =>
    show (step s c).bind (fun t => run t cs) = _
    rw [step_plain hs (hv c List.mem_cons_self) fun h => absurd h hcur, Option.bind_some,
      ih (fun d hd => hv d (List.mem_cons_of_mem c hd)) (s := s.append _) hs (Option.some_ne_none _),
      s.append_append]
    rfl

theorem run_word {v : List Char} (hv : PlainWord v) {s : Lexer} (hs : s.mode = .plain) :
    run s v = some (s.append (v.map (·, false))) := by
  obtain ⟨c, cs, rfl⟩ := List.exists_cons_of_ne_nil hv.ne_nil
  show (step s c).bind (fun t => run t cs) = _
  rw [step_plain hs (hv.isPlain c List.mem_cons_self) fun _ => hv.head c rfl, Option.bind_some,
    run_plain (fun d hd => hv.isPlain d (List.mem_cons_of_mem c hd)) (s := s.append _) hs
      (Option.some_ne_none _), s.append_append]
  rfl

/-! ### Quotes -/

theorem step_single {s : Lexer} {c : Char} (hs : s.mode = .single) (hc : c ≠ Char.ofNat 0)
    (hq : c ≠ '\'') : step s c = some (s.append [(c, true)]) := by
  unfold step
  rw [if_neg hc, hs]
  exact if_neg hq

theorem step_close {s : Lexer} (hs : s.mode = .single) : step s '\'' = some (s.setMode .plain) := by
  unfold step
  rw [if_neg (by decide), hs]
  exact if_pos rfl

theorem step_open {s : Lexer} (hs : s.mode = .plain) :
    step s '\'' = some ((s.append []).setMode .single) := by
  unfold step stepPlain
  rw [if_neg (by decide), hs, ← s.openWord_eq]
  rfl

theorem step_backslash {s : Lexer} (hs : s.mode = .plain) : step s '\\' = some (s.setMode .escape) := by
  unfold step stepPlain
  rw [if_neg (by decide), hs]
  rfl

theorem step_escape {s : Lexer} {c : Char} (hs : s.mode = .escape) (hc : c ≠ Char.ofNat 0)
    (hline : c ≠ '\n') : step s c = some ((s.append [(c, true)]).setMode .plain) := by
  unfold step
  rw [if_neg hc, hs]
  exact if_neg hline

theorem quoteBody_cons (c : Char) (cs : List Char) :
    quoteBody (c :: cs) = quoteBody [c] ++ quoteBody cs := by
  unfold quoteBody
  rw [List.flatMap_cons, List.flatMap_singleton]

theorem quoteBody_append (a b : List Char) : quoteBody (a ++ b) = quoteBody a ++ quoteBody b :=
  List.flatMap_append

theorem quoteBody_quote : quoteBody ['\''] = ['\'', '\\', '\'', '\''] := rfl

theorem quoteBody_of_ne {c : Char} (h : c ≠ '\'') : quoteBody [c] = [c] := by
  unfold quoteBody
  rw [List.flatMap_singleton, if_neg h]

/-- Between the quotes a character is itself, whatever it is. -/
theorem run_quoteBody_char {s : Lexer} {c : Char} (hs : s.mode = .single) (hc : c ≠ Char.ofNat 0) :
    run s (quoteBody [c]) = some (s.append [(c, true)]) := by
  by_cases hq : c = '\''
  · subst hq
    rw [quoteBody_quote]
    show (step s '\'').bind (fun t => (step t '\\').bind fun t => (step t '\'').bind fun t =>
      (step t '\'').bind fun t => some t) = _
    rw [step_close hs, Option.bind_some, step_backslash rfl, Option.bind_some, s.setMode_setMode,
      step_escape rfl hc (by decide), Option.bind_some, step_open rfl, Option.bind_some]
    simp only [Lexer.append_setMode, Lexer.setMode_setMode, Lexer.append_append, List.append_nil,
      Lexer.setMode_self hs]
  · rw [quoteBody_of_ne hq]
    show (step s c).bind _ = _
    rw [step_single hs hc hq]
    rfl

theorem run_quoteBody {v : List Char} (hv : Char.ofNat 0 ∉ v) {s : Lexer} (hs : s.mode = .single)
    (hcur : s.cur ≠ none) : run s (quoteBody v) = some (s.append (v.map (·, true))) := by
  induction v generalizing s with
  | nil =>
    show some s = _
    cases hc : s.cur with
    | none => exact absurd hc hcur
    | some w =>
      unfold Lexer.append
      rw [hc, List.map_nil, List.append_nil, Option.getD_some, ← hc]
  | cons c cs ih =>
    have hc : c ≠ Char.ofNat 0 := fun h => hv (h ▸ List.mem_cons_self)
    rw [quoteBody_cons, run_append_of_eq (run_quoteBody_char hs hc),
      ih (fun h => hv (List.mem_cons_of_mem c h)) (s := s.append _) hs (Option.some_ne_none _),
      s.append_append]
    rfl

/-- **A quoted text is read back.** -/
theorem run_quote {v : List Char} (hv : Char.ofNat 0 ∉ v) {s : Lexer} (hs : s.mode = .plain) :
    run s (quote v) = some (s.append (v.map (·, true))) := by
  show (step s '\'').bind (fun t => run t (quoteBody v ++ ['\''])) = _
  rw [step_open hs, Option.bind_some,
    run_append_of_eq (run_quoteBody hv (s := (s.append []).setMode .single) rfl (Option.some_ne_none _))]
  show (step _ '\'').bind (fun t => run t []) = _
  rw [step_close rfl]
  simp only [Option.bind_some, Lexer.append_setMode, Lexer.setMode_setMode, Lexer.append_append,
    List.nil_append, Lexer.setMode_self hs]
  rfl

theorem quoteBody_self {v : List Char} (h : '\'' ∉ v) : quoteBody v = v := by
  induction v with
  | nil => rfl
  | cons c cs ih =>
    obtain ⟨hc, hcs⟩ := List.ne_and_not_mem_of_not_mem_cons h
    rw [quoteBody_cons, quoteBody_of_ne hc.symm, ih hcs]
    rfl

/-! ### Argument vectors -/

def plainWord (v : List Char) : Word := v.map (·, false)

def quotedWord (v : List Char) : Word := v.map (·, true)

theorem text_plainWord (v : List Char) : (plainWord v).text = v := by
  unfold plainWord Word.text
  rw [List.map_map]
  exact List.map_id v

theorem text_quotedWord (v : List Char) : (quotedWord v).text = v := by
  unfold quotedWord Word.text
  rw [List.map_map]
  exact List.map_id v

theorem Word.text_append (v w : Word) : Word.text (v ++ w) = v.text ++ w.text := List.map_append

/-- The words of the command at hand, with the one begun. -/
def Lexer.all (s : Lexer) : List Word := s.words ++ s.cur.toList

/-- Words follow, the last of them still open. -/
structure After (s t : Lexer) (ws : List Word) : Prop where
  mode : t.mode = .plain
  cur : s.cur ≠ none → t.cur ≠ none
  commands : t.commands = s.commands
  all : t.all = s.all ++ ws

/-- Each word with a blank in front of it. -/
def spaced (ws : List (List Char)) : List Char := ws.flatMap fun w => ' ' :: w

theorem spaced_cons (w : List Char) (ws : List (List Char)) :
    spaced (w :: ws) = ' ' :: (w ++ spaced ws) := rfl

theorem step_blank {s : Lexer} (hs : s.mode = .plain) : step s ' ' = some s.endWord := by
  unfold step stepPlain
  rw [if_neg (by decide), hs]
  rfl

theorem After.trans {s t u : Lexer} {v w : List Word} (h : After s t v) (h' : After t u w) :
    After s u (v ++ w) :=
  ⟨h'.mode, fun hs => h'.cur (h.cur hs), h'.commands.trans h.commands, by rw [h'.all, h.all, List.append_assoc]⟩

/-- Behind a blank a word begins. -/
theorem after_append {s : Lexer} (hs : s.mode = .plain) (w : Word) :
    After s (s.endWord.append w) [w] := by
  refine ⟨hs, fun _ => Option.some_ne_none _, rfl, ?_⟩
  show (s.words ++ s.cur.toList) ++ [[] ++ w] = _
  rw [List.nil_append]
  rfl

/-- A word that stands for itself, and a quoted end of it. -/
theorem run_spaced_word {v : List Char} (hv : PlainWord v) {s : Lexer} (hs : s.mode = .plain) :
    run s (' ' :: v) = some (s.endWord.append (plainWord v)) := by
  show (step s ' ').bind (fun t => run t v) = _
  rw [step_blank hs, Option.bind_some]
  exact run_word hv (s := s.endWord) hs

theorem run_quoted {k v : List Char} (hk : k = [] ∨ PlainWord k) (hv : Char.ofNat 0 ∉ v) {s : Lexer}
    (hs : s.mode = .plain) : run s (k ++ quote v) = some (s.append (plainWord k ++ quotedWord v)) := by
  rcases hk with rfl | hk
  · exact run_quote hv hs
  · rw [run_append_of_eq (run_word hk hs), run_quote hv (s := s.append _) hs, Lexer.append_append]
    rfl

theorem run_spaced_quoted {k v : List Char} (hk : k = [] ∨ PlainWord k) (hv : Char.ofNat 0 ∉ v) {s : Lexer}
    (hs : s.mode = .plain) :
    run s (' ' :: (k ++ quote v)) = some (s.endWord.append (plainWord k ++ quotedWord v)) := by
  show (step s ' ').bind (fun t => run t (k ++ quote v)) = _
  rw [step_blank hs, Option.bind_some]
  exact run_quoted hk hv (s := s.endWord) hs

theorem run_spaced {fs : List (List Char)} (hfs : ∀ f ∈ fs, PlainWord f) {s : Lexer}
    (hs : s.mode = .plain) : ∃ t, run s (spaced fs) = some t ∧ After s t (fs.map plainWord) := by
  induction fs generalizing s with
  | nil => exact ⟨s, rfl, hs, id, rfl, (List.append_nil _).symm⟩
  | cons f fs ih =>
    have hword := run_spaced_word (hfs f List.mem_cons_self) hs
    have hafter := after_append hs (plainWord f)
    obtain ⟨t, hrun, ht⟩ := ih (fun g hg => hfs g (List.mem_cons_of_mem f hg)) hafter.mode
    refine ⟨t, ?_, hafter.trans ht⟩
    rw [spaced_cons, ← List.cons_append, run_append_of_eq hword, hrun]

/-- Plain arguments, one argument that ends between quotes, and plain arguments. -/
structure Line where
  front : List (List Char)
  key : List Char
  value : List Char
  back : List (List Char)
  front_plain : ∀ f ∈ front, PlainWord f
  key_plain : key = [] ∨ PlainWord key
  back_plain : ∀ f ∈ back, PlainWord f

namespace Line

/-- What stands behind the name of the command. -/
def text (l : Line) : List Char :=
  spaced l.front ++ (' ' :: (l.key ++ quote l.value) ++ spaced l.back)

def args (l : Line) : List (List Char) := l.front ++ (l.key ++ l.value) :: l.back

def words (l : Line) : List Word :=
  l.front.map plainWord ++ (plainWord l.key ++ quotedWord l.value) :: l.back.map plainWord

theorem text_words (l : Line) : l.words.map Word.text = l.args := by
  have hplain : ∀ ws : List (List Char), (ws.map plainWord).map Word.text = ws := by
    intro ws
    rw [List.map_map]
    exact (List.map_congr_left fun w _ => text_plainWord w).trans (List.map_id ws)
  unfold words args
  rw [List.map_append, List.map_cons, hplain, hplain, Word.text_append, text_plainWord,
    text_quotedWord]

/-- The arguments are read behind a word. -/
theorem run_text (l : Line) (hv : Char.ofNat 0 ∉ l.value) {s : Lexer} (hs : s.mode = .plain) :
    ∃ t, run s l.text = some t ∧ After s t l.words ∧ t.cur ≠ none := by
  obtain ⟨t, hrun, ht⟩ := run_spaced l.front_plain hs
  have hquoted := run_spaced_quoted l.key_plain hv ht.mode
  have hafter := after_append ht.mode (plainWord l.key ++ quotedWord l.value)
  obtain ⟨u, hrun', hu⟩ := run_spaced l.back_plain hafter.mode
  refine ⟨u, ?_, ?_, hu.cur (Option.some_ne_none _)⟩
  · unfold text
    rw [run_append_of_eq hrun, run_append_of_eq hquoted, hrun']
  · exact ht.trans (hafter.trans hu)

end Line

/-- Between two commands. -/
def Lexer.between (cs : List (List Word)) : Lexer := ⟨.plain, none, [], cs⟩

theorem endCommand_commands {t : Lexer} (hcur : t.cur ≠ none) :
    t.endCommand.commands = t.commands ++ [t.all] := by
  have hne : t.words ++ t.cur.toList ≠ [] := by
    obtain ⟨w, hw⟩ := Option.ne_none_iff_exists'.mp hcur
    rw [hw]
    exact List.append_ne_nil_of_right_ne_nil _ (List.cons_ne_nil w [])
  unfold Lexer.endCommand
  dsimp only
  rw [if_neg hne]
  rfl

theorem finish_plain {t : Lexer} (hmode : t.mode = .plain) (hcur : t.cur ≠ none) :
    finish t = some (t.commands ++ [t.all]) := by
  unfold finish
  rw [if_pos (Or.inl hmode), endCommand_commands hcur]

/-- A line break ends the command. -/
theorem step_line {t : Lexer} (hmode : t.mode = .plain) (hcur : t.cur ≠ none) :
    step t '\n' = some (.between (t.commands ++ [t.all])) := by
  have hstep : step t '\n' = some t.endCommand := by
    unfold step stepPlain
    rw [if_neg (by decide), hmode]
    rfl
  rw [hstep, ← endCommand_commands hcur]
  unfold Lexer.between Lexer.endCommand
  rw [hmode]

/-- The name of a command, as it is written. -/
structure CommandWord (v : List Char) : Prop where
  plain : PlainWord v
  isCommand : isCommand [plainWord v] = true

instance (v : List Char) : Decidable (CommandWord v) :=
  decidable_of_iff (PlainWord v ∧ isCommand [plainWord v] = true)
    ⟨fun h => ⟨h.1, h.2⟩, fun h => ⟨h.plain, h.isCommand⟩⟩

/-- A command is read from where a command may begin. -/
theorem Line.run_command (l : Line) (hv : Char.ofNat 0 ∉ l.value) {p : List Char} (hp : PlainWord p)
    (cs : List (List Word)) : ∃ t, run (.between cs) (p ++ l.text) = some t ∧ t.mode = .plain ∧
      t.cur ≠ none ∧ t.commands = cs ∧ t.all = plainWord p :: l.words := by
  have hword := run_word hp (s := .between cs) rfl
  obtain ⟨t, hrun, ht, hcur⟩ := l.run_text hv (s := (Lexer.between cs).append (p.map (·, false))) rfl
  exact ⟨t, by rw [run_append_of_eq hword, hrun], ht.mode, hcur, ht.commands, ht.all⟩

/-- **A command line is read as its words.** -/
theorem Line.parse_text (l : Line) (hv : Char.ofNat 0 ∉ l.value) {p : List Char} (hp : CommandWord p) :
    parse (p ++ l.text) = some [p :: l.args] := by
  obtain ⟨t, hrun, hmode, hcur, hcommands, hall⟩ := l.run_command hv hp.plain []
  have hrun' : run .start (p ++ l.text) = some t := hrun
  have hcommand : isCommand (plainWord p :: l.words) = true := hp.isCommand
  unfold parse
  rw [hrun', Option.bind_some, finish_plain hmode hcur, Option.bind_some, hcommands, hall, List.nil_append,
    List.all_cons, hcommand, List.all_nil, Bool.and_true, if_pos rfl, List.map_cons, List.map_nil,
    List.map_cons, text_plainWord, l.text_words]

end Shell

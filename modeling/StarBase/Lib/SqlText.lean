import Mathlib.Data.List.Basic
import Mathlib.Tactic.Common

/-!
# SQL text: tokens, parentheses and the boolean grammar

* `run`, `lex` — the scanner, one character at a time: words, numbers, quoted strings with their
  escapes, comments (`--` starts one only before a blank or a control character);
* `Item`, `group` — tokens nested by parentheses;
* `parseExpr`, `parse` — the boolean structure: `NOT` binds tighter than `AND`, `AND` tighter than
  `OR`, and the first `AND` after a `BETWEEN` belongs to it; whatever is left is a predicate;
* `run_append` — **PROVED**: a text is scanned piece by piece;
* `group_flatten` — **PROVED**: grouping undoes flattening;
* `ParsesTo.conjunction`, `ParsesTo.disjunction`, `ParsesTo.negated` — **PROVED**: a parenthesised chain of
  terms reads as the conjunction or disjunction of what they read as, a `NOT` before a term as its
  negation.
-/

namespace Sql

/-! ### Tokens -/

/-- A token that is no parenthesis.  A number is whatever starts with a digit, a quoted token has its
quotation mark and the text between, as written. -/
inductive Atom
  | word (s : List Char)
  | number (s : List Char)
  | quoted (mark : Char) (s : List Char)
  | sym (s : List Char)
  deriving DecidableEq, Repr

inductive Token
  | lparen
  | rparen
  | atom (a : Atom)
  deriving DecidableEq, Repr

/-- What the scanner is in the middle of. -/
inductive Mode
  | start
  | word (s : List Char)
  | number (s : List Char)
  | quote (mark : Char) (s : List Char)
  /-- A backslash was read inside quotes. -/
  | escape (mark : Char) (s : List Char)
  /-- A quotation mark was read inside quotes: the end, or the first of two. -/
  | quoteEnd (mark : Char) (s : List Char)
  | dash
  | dashDash
  | less
  | greater
  | slash
  | lineComment
  | blockComment
  | blockStar
  deriving DecidableEq

def isBlank (c : Char) : Bool :=
  c = ' ' || c = '\t' || c = '\n' || c = '\x0b' || c = '\x0c' || c = '\r'

def isControl (c : Char) : Bool := c.toNat < 32 || c.toNat = 127

def isWordStart (c : Char) : Bool := c.isAlpha || c = '_' || c = '$' || 127 < c.toNat

def isWordChar (c : Char) : Bool := isWordStart c || c.isDigit

def isNumberChar (c : Char) : Bool := isWordChar c || c = '.'

def isMark (c : Char) : Bool := c = '\'' || c = '"' || c = Char.ofNat 96

/-- A character between tokens. -/
def begin (c : Char) : List Token × Mode :=
  if isBlank c then ([], .start)
  else if isWordStart c then ([], .word [c])
  else if c.isDigit then ([], .number [c])
  else if isMark c then ([], .quote c [])
  else if c = '-' then ([], .dash)
  else if c = '<' then ([], .less)
  else if c = '>' then ([], .greater)
  else if c = '/' then ([], .slash)
  else if c = '#' then ([], .lineComment)
  else if c = '(' then ([.lparen], .start)
  else if c = ')' then ([.rparen], .start)
  else ([.atom (.sym [c])], .start)

/-- A token ends before the character. -/
def endThen (ts : List Token) (c : Char) : List Token × Mode := (ts ++ (begin c).1, (begin c).2)

def minus : Token := .atom (.sym ['-'])

def step : Mode → Char → List Token × Mode
  | .start, c => begin c
  | .word s, c => if isWordChar c then ([], .word (s ++ [c])) else endThen [.atom (.word s)] c
  | .number s, c =>
    if isNumberChar c then ([], .number (s ++ [c])) else endThen [.atom (.number s)] c
  | .quote mark s, c =>
    -- a quoted name has no escapes
    if c = '\\' ∧ mark ≠ Char.ofNat 96 then ([], .escape mark s)
    else if c = mark then ([], .quoteEnd mark s)
    else ([], .quote mark (s ++ [c]))
  | .escape mark s, c => ([], .quote mark (s ++ ['\\', c]))
  | .quoteEnd mark s, c =>
    if c = mark then ([], .quote mark (s ++ [c, c])) else endThen [.atom (.quoted mark s)] c
  | .dash, c => if c = '-' then ([], .dashDash) else endThen [minus] c
  | .dashDash, c =>
    if isBlank c || isControl c then ([], .lineComment)
    else if c = '-' then ([minus], .dashDash)
    else endThen [minus, minus] c
  | .less, c =>
    if c = '=' then ([.atom (.sym "<=".toList)], .start)
    else if c = '>' then ([.atom (.sym "<>".toList)], .start)
    else endThen [.atom (.sym ['<'])] c
  | .greater, c =>
    if c = '=' then ([.atom (.sym ">=".toList)], .start) else endThen [.atom (.sym ['>'])] c
  | .slash, c => if c = '*' then ([], .blockComment) else endThen [.atom (.sym ['/'])] c
  | .lineComment, c => if c = '\n' then ([], .start) else ([], .lineComment)
  | .blockComment, c => if c = '*' then ([], .blockStar) else ([], .blockComment)
  | .blockStar, c =>
    if c = '/' then ([], .start) else if c = '*' then ([], .blockStar) else ([], .blockComment)

/-- The tokens that a text completes, and what is left open at its end. -/
def run : Mode → List Char → List Token × Mode
  | m, [] => ([], m)
  | m, c :: cs => ((step m c).1 ++ (run (step m c).2 cs).1, (run (step m c).2 cs).2)

/-- The end of the text; `none` inside quotes or a comment that is not closed. -/
def finish : Mode → Option (List Token)
  | .start => some []
  | .word s => some [.atom (.word s)]
  | .number s => some [.atom (.number s)]
  | .quote _ _ => none
  | .escape _ _ => none
  | .quoteEnd mark s => some [.atom (.quoted mark s)]
  | .dash => some [minus]
  | .dashDash => some []
  | .less => some [.atom (.sym ['<'])]
  | .greater => some [.atom (.sym ['>'])]
  | .slash => some [.atom (.sym ['/'])]
  | .lineComment => some []
  | .blockComment => none
  | .blockStar => none

def lex (s : List Char) : Option (List Token) :=
  (finish (run .start s).2).map fun ts => (run .start s).1 ++ ts

theorem run_append (m : Mode) (s t : List Char) : run m (s ++ t) =
    ((run m s).1 ++ (run (run m s).2 t).1, (run (run m s).2 t).2) := by
  induction s generalizing m with
  | nil => rfl
  | cons c s ih =>
    show ((step m c).1 ++ (run (step m c).2 (s ++ t)).1, (run (step m c).2 (s ++ t)).2) = _
    rw [ih]
    show _ = ((step m c).1 ++ (run (step m c).2 s).1 ++ _, _)
    rw [List.append_assoc]
    rfl

/-! ### Pieces of a text -/

/-- The piece is scanned from one mode to another. -/
structure Runs (m : Mode) (s : List Char) (ts : List Token) (m' : Mode) : Prop where
  eq : run m s = (ts, m')

theorem Runs.append {m m' m'' : Mode} {s t : List Char} {ts us : List Token} (h : Runs m s ts m')
    (h' : Runs m' t us m'') : Runs m (s ++ t) (ts ++ us) m'' := by
  refine ⟨?_⟩
  rw [run_append, h.eq, h'.eq]

theorem Runs.lex {s : List Char} {ts us : List Token} {m : Mode} (h : Runs .start s ts m)
    (hm : finish m = some us) : lex s = some (ts ++ us) := by
  unfold Sql.lex
  rw [h.eq, hm]
  rfl

/-- What a mode still has to hand out comes before a blank, a comma or a closing parenthesis. -/
def Closed (m : Mode) (ts : List Token) : Prop :=
  finish m = some ts ∧ ∀ c, c = ' ' ∨ c = ',' ∨ c = ')' → step m c = endThen ts c

theorem closed_start : Closed .start [] := ⟨rfl, fun _ _ => rfl⟩

theorem closed_word (s : List Char) : Closed (.word s) [.atom (.word s)] := by
  refine ⟨rfl, fun c hc => ?_⟩
  rcases hc with rfl | rfl | rfl <;> rfl

theorem closed_number (s : List Char) : Closed (.number s) [.atom (.number s)] := by
  refine ⟨rfl, fun c hc => ?_⟩
  rcases hc with rfl | rfl | rfl <;> rfl

theorem closed_less : Closed .less [.atom (.sym ['<'])] := by
  refine ⟨rfl, fun c hc => ?_⟩
  rcases hc with rfl | rfl | rfl <;> rfl

theorem closed_greater : Closed .greater [.atom (.sym ['>'])] := by
  refine ⟨rfl, fun c hc => ?_⟩
  rcases hc with rfl | rfl | rfl <;> rfl

theorem closed_quoteEnd (s : List Char) :
    Closed (.quoteEnd '\'' s) [.atom (.quoted '\'' s)] := by
  refine ⟨rfl, fun c hc => ?_⟩
  rcases hc with rfl | rfl | rfl <;> rfl

/-- The piece has exactly these tokens, with nothing open that a blank, a comma or a closing
parenthesis would not end. -/
def Scans (s : List Char) (ts : List Token) : Prop :=
  ∃ done m rest, Runs .start s done m ∧ Closed m rest ∧ ts = done ++ rest

theorem Runs.scans {s : List Char} {done rest : List Token} {m : Mode} (h : Runs .start s done m)
    (hm : Closed m rest) : Scans s (done ++ rest) := ⟨done, m, rest, h, hm, rfl⟩

/-- A piece that ends in a word. -/
theorem scans_of_word {s w : List Char} {ts : List Token} (h : (run .start s).2 = .word w)
    (hts : ts = (run .start s).1 ++ [.atom (.word w)]) : Scans s ts :=
  ⟨(run .start s).1, .word w, _, ⟨Prod.ext rfl h⟩, closed_word w, hts⟩

theorem Scans.lex {s : List Char} {ts : List Token} (h : Scans s ts) : lex s = some ts := by
  obtain ⟨done, m, rest, hrun, hclosed, rfl⟩ := h
  exact hrun.lex hclosed.1

/-- A piece is followed by a character that ends it. -/
theorem Scans.ended {s t : List Char} {ts us : List Token} {m : Mode} {c : Char} (h : Scans s ts)
    (hc : c = ' ' ∨ c = ',' ∨ c = ')') (h' : Runs .start (c :: t) us m) :
    Runs .start (s ++ c :: t) (ts ++ us) m := by
  obtain ⟨done, m₀, rest, hrun, hclosed, rfl⟩ := h
  refine ⟨?_⟩
  rw [run_append, hrun.eq]
  show (done ++ ((step m₀ c).1 ++ (run (step m₀ c).2 t).1), (run (step m₀ c).2 t).2) = _
  rw [hclosed.2 c hc]
  have hstart : ((begin c).1 ++ (run (begin c).2 t).1, (run (begin c).2 t).2) = (us, m) := h'.eq
  obtain ⟨hus, hm⟩ := Prod.mk.inj hstart
  show (done ++ ((rest ++ (begin c).1) ++ (run (begin c).2 t).1), (run (begin c).2 t).2) = _
  rw [← hus, ← hm]
  simp only [List.append_assoc]

/-- Two pieces with a blank between. -/
theorem Scans.space {s t : List Char} {ts us : List Token} (h : Scans s ts) (h' : Scans t us) :
    Scans (s ++ ' ' :: t) (ts ++ us) := by
  obtain ⟨done, m, rest, hrun, hclosed, rfl⟩ := h'
  refine ⟨ts ++ done, m, rest, h.ended (Or.inl rfl) ⟨hrun.eq⟩, hclosed, ?_⟩
  rw [List.append_assoc]

/-- A piece in parentheses. -/
theorem Scans.parens {s : List Char} {ts : List Token} (h : Scans s ts) :
    Scans ('(' :: (s ++ [')'])) (.lparen :: (ts ++ [.rparen])) := by
  have hinner : Runs .start (s ++ [')']) (ts ++ [.rparen]) .start :=
    h.ended (Or.inr (Or.inr rfl)) ⟨rfl⟩
  have hopen : Runs .start ['('] [.lparen] .start := ⟨rfl⟩
  have hall := (hopen.append hinner).scans closed_start
  rwa [List.append_nil] at hall

/-- A word in front of a piece. -/
theorem Runs.scans_append {s t : List Char} {ts us : List Token} (h : Runs .start s ts .start)
    (h' : Scans t us) : Scans (s ++ t) (ts ++ us) := by
  obtain ⟨done, m, rest, hrun, hclosed, rfl⟩ := h'
  have hall := (h.append hrun).scans hclosed
  rwa [List.append_assoc] at hall

/-- Text between quotation marks in which every quotation mark and every backslash is escaped. -/
def Escaped : List Char → Bool
  | [] => true
  | ['\\'] => false
  | '\\' :: _ :: s => Escaped s
  | '\'' :: _ => false
  | _ :: s => Escaped s

/-- Escaped text does not end its quotes. -/
theorem runs_quote {s : List Char} (h : Escaped s = true) (w : List Char) :
    Runs (.quote '\'' w) s [] (.quote '\'' (w ++ s)) := by
  refine ⟨?_⟩
  induction s using Escaped.induct generalizing w with
  | case1 =>
    rw [List.append_nil]
    rfl
  | case2 => cases h
  | case3 c s ih =>
    have hrest := ih h (w ++ ['\\', c])
    rw [List.append_assoc] at hrest
    exact hrest
  | case4 s => cases h
  | case5 c s hlast hback hmark ih =>
    have hc : c ≠ '\'' := fun he => hmark he
    have hb : c ≠ '\\' := by
      intro he
      cases s with
      | nil => exact hlast he rfl
      | cons d s => exact hback d s he rfl
    have hstep : step (.quote '\'' w) c = ([], .quote '\'' (w ++ [c])) := by
      show (if c = '\\' ∧ _ then _ else if c = '\'' then _ else _) = _
      rw [if_neg (fun hand => hb hand.1), if_neg hc]
    have hrest := ih (by rwa [Escaped] at h; all_goals assumption) (w ++ [c])
    show ((step (.quote '\'' w) c).1 ++ (run (step (.quote '\'' w) c).2 s).1, _) = _
    rw [hstep]
    show ([] ++ (run (.quote '\'' (w ++ [c])) s).1, (run (.quote '\'' (w ++ [c])) s).2) = _
    rw [hrest, List.append_assoc]
    rfl

/-! ### Numbers -/

theorem begin_digit {c : Char} (h : c.isDigit = true) : begin c = ([], .number [c]) := by
  have hne : ∀ d : Char, d.isDigit = false → c ≠ d := by
    rintro d hd rfl
    rw [h] at hd
    cases hd
  have hblank : isBlank c = false := by
    simp only [isBlank, hne ' ' rfl, hne '\t' rfl, hne '\n' rfl, hne '\x0b' rfl, hne '\x0c' rfl,
      hne '\r' rfl]
    rfl
  have hword : isWordStart c = false := by
    have hlow := hne '_' rfl
    have hdollar := hne '$' rfl
    have halpha : c.isAlpha = (decide (c.val ≥ 'A'.val ∧ c.val ≤ 'Z'.val) ||
        (decide (c.val ≥ 'a'.val) && decide (c.val ≤ 'z'.val))) := rfl
    simp only [Char.isDigit] at h
    simp only [isWordStart, halpha]
    grind [Char.toNat, UInt32.le_iff_toNat_le]
  unfold begin
  rw [hblank, hword, h]
  rfl

/-- A number goes on to its last digit. -/
theorem run_number {cs : List Char} (h : ∀ d ∈ cs, isNumberChar d = true) (w : List Char) :
    run (.number w) cs = ([], .number (w ++ cs)) := by
  induction cs generalizing w with
  | nil =>
    rw [List.append_nil]
    rfl
  | cons d cs ih =>
    have hstep : step (.number w) d = ([], .number (w ++ [d])) := if_pos (h d (by simp))
    show ((step (.number w) d).1 ++ (run (step (.number w) d).2 cs).1, _) = _
    rw [hstep, ih fun e he => h e (List.mem_cons_of_mem _ he), List.append_assoc]
    rfl

/-! ### Parentheses -/

/-- Tokens nested by their parentheses. -/
inductive Item
  | atom (a : Atom)
  | group (is : List Item)

mutual

def Item.flatten : Item → List Token
  | .atom a => [.atom a]
  | .group is => .lparen :: (flattenAll is ++ [.rparen])

def flattenAll : List Item → List Token
  | [] => []
  | i :: is => i.flatten ++ flattenAll is

end

@[simp] theorem flattenAll_nil : flattenAll [] = [] := rfl

theorem flattenAll_cons (i : Item) (is : List Item) :
    flattenAll (i :: is) = i.flatten ++ flattenAll is := rfl

theorem flattenAll_append (is js : List Item) :
    flattenAll (is ++ js) = flattenAll is ++ flattenAll js := by
  induction is with
  | nil => rfl
  | cons i is ih =>
    show i.flatten ++ flattenAll (is ++ js) = i.flatten ++ flattenAll is ++ flattenAll js
    rw [ih, List.append_assoc]

/-- The items read so far, and those before each parenthesis that is open. -/
def groupStep : List Item × List (List Item) → Token → Option (List Item × List (List Item))
  | (now, outer), .lparen => some ([], now :: outer)
  | (now, before :: outer), .rparen => some (before ++ [.group now], outer)
  | (_, []), .rparen => none
  | (now, outer), .atom a => some (now ++ [.atom a], outer)

def group (ts : List Token) : Option (List Item) :=
  match ts.foldlM groupStep ([], []) with
  | some (is, []) => some is
  | _ => none

mutual

theorem foldlM_flatten (i : Item) (now : List Item) (outer : List (List Item)) :
    i.flatten.foldlM groupStep (now, outer) = some (now ++ [i], outer) := by
  cases i with
  | atom a => rfl
  | group is =>
    show (flattenAll is ++ [Token.rparen]).foldlM groupStep ([], now :: outer) = _
    rw [List.foldlM_append, foldlM_flattenAll is [] (now :: outer)]
    rfl

theorem foldlM_flattenAll (is : List Item) (now : List Item) (outer : List (List Item)) :
    (flattenAll is).foldlM groupStep (now, outer) = some (now ++ is, outer) := by
  cases is with
  | nil =>
    rw [List.append_nil]
    rfl
  | cons i is =>
    show (i.flatten ++ flattenAll is).foldlM groupStep (now, outer) = _
    rw [List.foldlM_append, foldlM_flatten i now outer]
    show (flattenAll is).foldlM groupStep (now ++ [i], outer) = _
    rw [foldlM_flattenAll is (now ++ [i]) outer, List.append_assoc]
    rfl

end

/-- **Grouping undoes flattening.** -/
theorem group_flatten (is : List Item) : group (flattenAll is) = some is := by
  unfold group
  rw [foldlM_flattenAll is [] []]
  rfl

/-! ### Expressions -/

/-- The boolean structure of an expression; a predicate is left as its tokens. -/
inductive Tree
  | pred (is : List Item)
  | not (t : Tree)
  | and (ts : List Tree)
  | or (ts : List Tree)

/-- A keyword, in any case. -/
def isKw (kw : String) : Item → Bool
  | .atom (.word s) => s.map Char.toUpper = kw.toList
  | _ => false

/-- An item in front of the first part. -/
def consHead (i : Item) : List (List Item) → List (List Item)
  | [] => [[i]]
  | is :: rest => (i :: is) :: rest

def splitOr : List Item → List (List Item)
  | [] => [[]]
  | i :: is => if isKw "OR" i then [] :: splitOr is else consHead i (splitOr is)

/-- The conjuncts; `inBetween` when a `BETWEEN` waits for its `AND`. -/
def splitAnd : Bool → List Item → List (List Item)
  | _, [] => [[]]
  | inBetween, i :: is =>
    if isKw "AND" i then
      if inBetween then consHead i (splitAnd false is) else [] :: splitAnd false is
    else consHead i (splitAnd (inBetween || isKw "BETWEEN" i) is)

/-- The operator of one operand is the operand. -/
def joined (f : List Tree → Tree) : List Tree → Tree
  | [t] => t
  | ts => f ts

/-- `NOT`s before a parenthesised expression or a predicate. -/
def parseTerm (inner : List Item → Option Tree) : List Item → Option Tree
  | [] => none
  | .atom a :: is =>
    if isKw "NOT" (.atom a) then (parseTerm inner is).map Tree.not else some (.pred (.atom a :: is))
  | [.group is] => inner is
  | .group is :: i :: rest => some (.pred (.group is :: i :: rest))

def parseConj (inner : List Item → Option Tree) (is : List Item) : Option Tree :=
  ((splitAnd false is).mapM (parseTerm inner)).map (joined .and)

/-- An expression nested no deeper than `n`. -/
def parseExpr : ℕ → List Item → Option Tree
  | 0, _ => none
  | n + 1, is => ((splitOr is).mapM (parseConj (parseExpr n))).map (joined .or)

mutual

def Item.depth : Item → ℕ
  | .atom _ => 0
  | .group is => depth is + 1

def depth : List Item → ℕ
  | [] => 0
  | i :: is => max i.depth (depth is)

end

/-- The expression a text denotes. -/
def parse (s : List Char) : Option Tree :=
  (lex s).bind fun ts => (group ts).bind fun is => parseExpr (depth is + 1) is

theorem depth_append (is js : List Item) : depth (is ++ js) = max (depth is) (depth js) := by
  induction is with
  | nil => exact (Nat.zero_max _).symm
  | cons i is ih =>
    show max i.depth (depth (is ++ js)) = max (max i.depth (depth is)) (depth js)
    rw [ih, Nat.max_assoc]

/-! ### Terms -/

def OrFree (is : List Item) : Prop := ∀ i ∈ is, isKw "OR" i = false

/-- Every `AND` belongs to a `BETWEEN` before it. -/
def AndFree : Bool → List Item → Prop
  | inBetween, [] => inBetween = false
  | inBetween, i :: is =>
    if isKw "AND" i then inBetween = true ∧ AndFree false is
    else AndFree (inBetween || isKw "BETWEEN" i) is

/-- The items can stand between `AND`s and `OR`s, and are read as the tree. -/
structure ParsesTo (is : List Item) (t : Tree) : Prop where
  orFree : OrFree is
  andFree : AndFree false is
  term : ∀ n, depth is ≤ n → parseTerm (parseExpr n) is = some t

theorem splitOr_of_orFree {is : List Item} (h : OrFree is) : splitOr is = [is] := by
  induction is with
  | nil => rfl
  | cons i is ih =>
    rw [splitOr, h i (by simp), ih fun j hj => h j (List.mem_cons_of_mem _ hj)]
    rfl

theorem splitOr_append {is : List Item} (h : OrFree is) (i : Item) (hi : isKw "OR" i = true)
    (js : List Item) : splitOr (is ++ i :: js) = is :: splitOr js := by
  induction is with
  | nil =>
    show splitOr (i :: js) = _
    rw [splitOr, hi]
    rfl
  | cons j is ih =>
    show splitOr (j :: (is ++ i :: js)) = _
    rw [splitOr, h j (by simp), ih fun k hk => h k (List.mem_cons_of_mem _ hk)]
    rfl

theorem splitAnd_of_andFree {is : List Item} {b : Bool} (h : AndFree b is) :
    splitAnd b is = [is] := by
  induction is generalizing b with
  | nil => rfl
  | cons i is ih =>
    rw [AndFree] at h
    rw [splitAnd]
    split at h
    · next hand =>
      rw [if_pos hand, if_pos h.1, ih h.2]
      rfl
    · next hand =>
      rw [if_neg hand, ih h]
      rfl

theorem splitAnd_append {is : List Item} {b : Bool} (h : AndFree b is) (i : Item)
    (hi : isKw "AND" i = true) (js : List Item) :
    splitAnd b (is ++ i :: js) = is :: splitAnd false js := by
  induction is generalizing b with
  | nil =>
    rw [AndFree] at h
    show splitAnd b (i :: js) = _
    rw [splitAnd, if_pos hi, h]
    rfl
  | cons j is ih =>
    rw [AndFree] at h
    show splitAnd b (j :: (is ++ i :: js)) = _
    rw [splitAnd]
    split at h
    · next hand =>
      rw [if_pos hand, if_pos h.1, ih h.2]
      rfl
    · next hand =>
      rw [if_neg hand, ih h]
      rfl

/-! ### What terms and chains of terms read as -/

def kwItem (kw : String) : Item := .atom (.word kw.toList)

/-- The parts with a separator between. -/
def joinItems (sep : Item) : List (List Item) → List Item
  | [] => []
  | [is] => is
  | is :: js :: rest => is ++ sep :: joinItems sep (js :: rest)

variable {is : List Item} {t : Tree} {iss : List (List Item)} {ts : List Tree} {n : ℕ}

theorem mem_joinItems {sep : Item} {i : Item} (h : i ∈ joinItems sep iss) :
    i = sep ∨ ∃ is ∈ iss, i ∈ is := by
  induction iss with
  | nil => cases h
  | cons is rest ih =>
    cases rest with
    | nil => exact Or.inr ⟨is, by simp, h⟩
    | cons js rest =>
      rcases List.mem_append.mp h with h | h
      · exact Or.inr ⟨is, by simp, h⟩
      · rcases List.mem_cons.mp h with h | h
        · exact Or.inl h
        · rcases ih h with h | ⟨ks, hks, h⟩
          · exact Or.inl h
          · exact Or.inr ⟨ks, List.mem_cons_of_mem _ hks, h⟩

theorem depth_le_joinItems {sep : Item} (h : is ∈ iss) : depth is ≤ depth (joinItems sep iss) := by
  induction iss with
  | nil => cases h
  | cons js rest ih =>
    cases rest with
    | nil =>
      rw [List.mem_singleton.mp h]
      exact Nat.le_refl _
    | cons ks rest =>
      show depth is ≤ depth (js ++ sep :: joinItems sep (ks :: rest))
      rw [depth_append]
      rcases List.mem_cons.mp h with rfl | h
      · exact Nat.le_max_left _ _
      · exact Nat.le_trans (Nat.le_trans (ih h) (Nat.le_max_right sep.depth _)) (Nat.le_max_right _ _)

/-- What each part reads as, in order. -/
theorem mapM_reads {f : List Item → Option Tree} (h : List.Forall₂ ParsesTo iss ts)
    (hf : ∀ is ∈ iss, ∀ t, ParsesTo is t → f is = some t) : iss.mapM f = some ts := by
  induction h with
  | nil => rfl
  | cons hit _ ih =>
    rw [List.mapM_cons, hf _ (by simp) _ hit, ih fun is his => hf is (List.mem_cons_of_mem _ his)]
    rfl

theorem reads_of_mem (h : List.Forall₂ ParsesTo iss ts) (his : is ∈ iss) : ∃ t, ParsesTo is t := by
  induction h with
  | nil => cases his
  | cons hit _ ih =>
    rcases List.mem_cons.mp his with rfl | his
    · exact ⟨_, hit⟩
    · exact ih his

/-- One term. -/
theorem ParsesTo.conj (h : ParsesTo is t) (hn : depth is ≤ n) : parseConj (parseExpr n) is = some t := by
  unfold parseConj
  rw [splitAnd_of_andFree h.andFree, List.mapM_cons, h.term n hn]
  rfl

theorem ParsesTo.expr (h : ParsesTo is t) (hn : depth is ≤ n) : parseExpr (n + 1) is = some t := by
  rw [parseExpr, splitOr_of_orFree h.orFree, List.mapM_cons, h.conj hn]
  rfl

theorem splitAnd_joinItems (h : List.Forall₂ ParsesTo iss ts) (hne : iss ≠ []) :
    splitAnd false (joinItems (kwItem "AND") iss) = iss := by
  induction h with
  | nil => exact absurd rfl hne
  | cons hit hrest ih =>
    cases hrest with
    | nil => exact splitAnd_of_andFree hit.andFree
    | cons hit' hrest' =>
      show splitAnd false (_ ++ kwItem "AND" :: _) = _
      rw [splitAnd_append hit.andFree _ (by decide), ih (List.cons_ne_nil _ _)]

theorem splitOr_joinItems (h : List.Forall₂ ParsesTo iss ts) (hne : iss ≠ []) :
    splitOr (joinItems (kwItem "OR") iss) = iss := by
  induction h with
  | nil => exact absurd rfl hne
  | cons hit hrest ih =>
    cases hrest with
    | nil => exact splitOr_of_orFree hit.orFree
    | cons hit' hrest' =>
      show splitOr (_ ++ kwItem "OR" :: _) = _
      rw [splitOr_append hit.orFree _ (by decide), ih (List.cons_ne_nil _ _)]

/-- A chain of `AND`s. -/
theorem parseExpr_and (h : List.Forall₂ ParsesTo iss ts) (hne : iss ≠ [])
    (hn : depth (joinItems (kwItem "AND") iss) ≤ n) :
    parseExpr (n + 1) (joinItems (kwItem "AND") iss) = some (joined .and ts) := by
  have hor : OrFree (joinItems (kwItem "AND") iss) := by
    intro i hi
    rcases mem_joinItems hi with rfl | ⟨is, his, hi⟩
    · decide
    · obtain ⟨t, hread⟩ := reads_of_mem h his
      exact hread.orFree i hi
  have hterms : iss.mapM (parseTerm (parseExpr n)) = some ts :=
    mapM_reads h fun is his t hread =>
      hread.term n (Nat.le_trans (depth_le_joinItems his) hn)
  rw [parseExpr, splitOr_of_orFree hor, List.mapM_cons, parseConj, splitAnd_joinItems h hne, hterms]
  rfl

/-- A chain of `OR`s. -/
theorem parseExpr_or (h : List.Forall₂ ParsesTo iss ts) (hne : iss ≠ [])
    (hn : depth (joinItems (kwItem "OR") iss) ≤ n) :
    parseExpr (n + 1) (joinItems (kwItem "OR") iss) = some (joined .or ts) := by
  have hterms : iss.mapM (parseConj (parseExpr n)) = some ts :=
    mapM_reads h fun is his t hread => hread.conj (Nat.le_trans (depth_le_joinItems his) hn)
  rw [parseExpr, splitOr_joinItems h hne, hterms]
  rfl

/-- An expression in parentheses is a term. -/
theorem reads_group (h : ∀ n, depth is ≤ n → parseExpr (n + 1) is = some t) :
    ParsesTo [.group is] t where
  orFree i hi := by
    rw [List.mem_singleton.mp hi]
    rfl
  andFree := rfl
  term n hn := by
    have hdepth : depth [Item.group is] = depth is + 1 := Nat.max_zero _
    rw [hdepth] at hn
    cases n with
    | zero => cases hn
    | succ n => exact h n (Nat.le_of_succ_le_succ hn)

/-- **A parenthesised chain of `AND`s.** -/
theorem ParsesTo.conjunction (h : List.Forall₂ ParsesTo iss ts) (hne : iss ≠ []) :
    ParsesTo [.group (joinItems (kwItem "AND") iss)] (joined .and ts) :=
  reads_group fun _ hn => parseExpr_and h hne hn

/-- **A parenthesised chain of `OR`s.** -/
theorem ParsesTo.disjunction (h : List.Forall₂ ParsesTo iss ts) (hne : iss ≠ []) :
    ParsesTo [.group (joinItems (kwItem "OR") iss)] (joined .or ts) :=
  reads_group fun _ hn => parseExpr_or h hne hn

/-- **A `NOT` before a term.** -/
theorem ParsesTo.negated (h : ParsesTo is t) : ParsesTo (kwItem "NOT" :: is) (.not t) where
  orFree i hi := by
    rcases List.mem_cons.mp hi with rfl | hi
    · decide
    · exact h.orFree i hi
  andFree := h.andFree
  term n hn := by
    have hdepth : depth (kwItem "NOT" :: is) = depth is := Nat.zero_max _
    rw [hdepth] at hn
    show (parseTerm (parseExpr n) is).map Tree.not = _
    rw [h.term n hn]
    rfl

/-- A parenthesised term. -/
theorem ParsesTo.parens (h : ParsesTo is t) : ParsesTo [.group is] t := reads_group fun _ hn => h.expr hn

/-- A predicate that starts with a token and has no `AND` or `OR` of its own. -/
theorem reads_pred {a : Atom} (hnot : isKw "NOT" (.atom a) = false)
    (hor : OrFree (.atom a :: is)) (hand : AndFree false (.atom a :: is)) :
    ParsesTo (.atom a :: is) (.pred (.atom a :: is)) where
  orFree := hor
  andFree := hand
  term n _ := by
    show (if isKw "NOT" (.atom a) = true then _ else _) = _
    rw [hnot]
    rfl

/-- **A text with the tokens of a term denotes what the term reads as.** -/
theorem ParsesTo.parse {s : List Char} (h : ParsesTo is t) (hs : lex s = some (flattenAll is)) :
    parse s = some t := by
  unfold Sql.parse
  rw [hs]
  show (group (flattenAll is)).bind _ = _
  rw [group_flatten]
  exact h.expr (Nat.le_refl _)

/-! ### Names and quoted texts -/

def Token.word? : Token → Option (List Char)
  | .atom (.word s) => some s
  | _ => none

def Token.quoted? : Token → Option (List Char)
  | .atom (.quoted _ s) => some s
  | _ => none

/-- The words outside quotes. -/
def words (ts : List Token) : List (List Char) := ts.filterMap Token.word?

/-- The texts inside quotes, in order. -/
def quotes (ts : List Token) : List (List Char) := ts.filterMap Token.quoted?

theorem words_append (ts us : List Token) : words (ts ++ us) = words ts ++ words us :=
  List.filterMap_append

theorem quotes_append (ts us : List Token) : quotes (ts ++ us) = quotes ts ++ quotes us :=
  List.filterMap_append

theorem words_group (is : List Item) : words (flattenAll [.group is]) = words (flattenAll is) := by
  show words (.lparen :: (flattenAll is ++ [.rparen]) ++ []) = _
  rw [List.append_nil]
  show words (flattenAll is ++ [.rparen]) = _
  rw [words_append]
  exact List.append_nil _

theorem quotes_group (is : List Item) : quotes (flattenAll [.group is]) = quotes (flattenAll is) := by
  show quotes (.lparen :: (flattenAll is ++ [.rparen]) ++ []) = _
  rw [List.append_nil]
  show quotes (flattenAll is ++ [.rparen]) = _
  rw [quotes_append]
  exact List.append_nil _

/-! ### `ORDER BY` -/

def splitCommas : List Item → List (List Item)
  | [] => [[]]
  | .atom (.sym [',']) :: is => [] :: splitCommas is
  | i :: is => consHead i (splitCommas is)

/-- A column and its direction; `true` for descending. -/
def parseKey : List Item → Option (List Char × Bool)
  | [.atom (.word s)] => some (s, false)
  | [.atom (.word s), .atom (.word d)] =>
    if isKw "ASC" (.atom (.word d)) then some (s, false)
    else if isKw "DESC" (.atom (.word d)) then some (s, true)
    else none
  | _ => none

/-- The sort keys a text denotes. -/
def parseOrder (s : List Char) : Option (List (List Char × Bool)) :=
  (lex s).bind fun ts => (group ts).bind fun is => (splitCommas is).mapM parseKey

end Sql

import StarBase.Api.Users
import StarBase.Query.FilterText

/-!
# Statements of the routes that only read

The routes without a gate send SQL text put together from fixed pieces and from values.  Here a text
keeps its pieces apart, so that what it does can be seen from the fixed ones.

* `Part`, `text` — the pieces of a statement, and the text that is sent;
* `isRead` — a single `SELECT` that writes its rows nowhere;
* `Server`, `send` — what the server answers to such a text, and what it does for any other one;
* `send_readOnly` — **PROVED**: a text that reads leaves every table and file as it is;
* `cell`, `rowsToJson`, `countOf` — what the routes make of the rows.

The server is a parameter: which rows it answers is not modelled, only that answering them changes
nothing.  A value is read by it as the value it is: a string is escaped between its quotation marks,
and a filter's condition is the text of `compile_filter`.
-/

namespace StarBase.Api

open Statements Query Extract

/-! ### Texts in pieces -/

/-- A piece of a statement's text. -/
inductive Part
  | fixed (s : String)
  /-- A string between quotation marks, escaped. -/
  | quoted (s : Str)
  /-- A number, printed. -/
  | number (s : Str)
  /-- A name between backquotes. -/
  | name (s : Str)
  | columns (names : List Str)
  | condition (c : Cond)
  | sorting (keys : List SortKey)

instance : Coe String Part := ⟨Part.fixed⟩

def Part.text (ses : SqlSession) : Part → Str
  | .fixed s => s.toList
  | .quoted s => Query.quoted ses s
  | .number s => s
  | .name s => Char.ofNat 96 :: (s ++ [Char.ofNat 96])
  | .columns names => joinText ", ".toList names
  | .condition c => c.sql ses
  | .sorting keys => sortSql keys

/-- The text of a statement. -/
def text (ses : SqlSession) (sql : List Part) : Str := sql.flatMap (Part.text ses)

/-- `std::to_string` of an integer, in a text. -/
def Part.int (i : Int) : Part := .number (intNumeral i).text

/-- Quoted strings with commas between. -/
def quotedList : List Str → List Part
  | [] => []
  | [s] => [.quoted s]
  | s :: t :: rest => .quoted s :: .fixed ", " :: quotedList (t :: rest)

/-- No character ends the statement, so that another one could follow, and none begins the place to
write its rows to. -/
def onlyReads : Str → Bool
  | [] => true
  | c :: cs => c != ';' && !(['I', 'N', 'T', 'O'].isPrefixOf (c :: cs)) && onlyReads cs

def Part.reads : Part → Bool
  | .fixed s => onlyReads s.toList
  | _ => true

/-- The text is one `SELECT`, with no `INTO`. -/
def isRead : List Part → Bool
  | .fixed s :: sql =>
    ['S', 'E', 'L', 'E', 'C', 'T', ' '].isPrefixOf s.toList && (Part.fixed s :: sql).all Part.reads
  | _ => false

/-! ### Texts that read -/

/-- All pieces read: what can stand behind the first one. -/
def Reads (sql : List Part) : Prop := sql.all Part.reads = true

theorem reads_nil : Reads [] := rfl

/-- A fixed piece, given by its characters. -/
theorem reads_fixed {cs : Str} {sql : List Part} (h : onlyReads cs = true) (hsql : Reads sql) :
    Reads (.fixed (String.ofList cs) :: sql) := by
  show (onlyReads (String.ofList cs).toList && sql.all Part.reads) = true
  rw [String.toList_ofList, h, Bool.true_and]
  exact hsql

theorem reads_value {p : Part} {sql : List Part} (h : p.reads = true) (hsql : Reads sql) :
    Reads (p :: sql) := by
  show (p.reads && sql.all Part.reads) = true
  rw [h, Bool.true_and]
  exact hsql

theorem reads_append {sql rest : List Part} (h : Reads sql) (hrest : Reads rest) :
    Reads (sql ++ rest) := by
  unfold Reads at *
  rw [List.all_append, h, hrest]
  rfl

theorem reads_flatMap {α : Type} {f : α → List Part} (h : ∀ a, Reads (f a)) (as : List α) :
    Reads (as.flatMap f) := by
  induction as with
  | nil => exact reads_nil
  | cons a as ih => exact reads_append (h a) ih

/-- A `SELECT`, given by its characters. -/
theorem isRead_select {cs : Str} {sql : List Part}
    (hs : (['S', 'E', 'L', 'E', 'C', 'T', ' '].isPrefixOf cs && onlyReads cs) = true)
    (hsql : Reads sql) : isRead (.fixed (String.ofList cs) :: sql) = true := by
  rw [Bool.and_eq_true] at hs
  show (_ && _) = true
  rw [String.toList_ofList, hs.1, Bool.true_and]
  exact reads_fixed hs.2 hsql

theorem reads_quotedList : ∀ ss : List Str, Reads (quotedList ss)
  | [] => reads_nil
  | [_] => reads_value rfl reads_nil
  | _ :: t :: rest => reads_value rfl (reads_fixed rfl (reads_quotedList (t :: rest)))

/-! ### The server -/

/-- A row of an answer; `none` for `NULL`. -/
abbrev Row := List (Option Str)

section Sending

variable [Host]

/-- The database server on one connection: the rows it answers to a text that reads, and the effect
of any other text. -/
structure Server (W : Type) where
  session : SqlSession
  version : Str
  rows : Str → ApiDb W → List Row
  effect : Str → ApiDb W → Except Thrown (ApiDb W)

variable {W : Type} (srv : Server W)

/-- `query`. -/
def send (sql : List Part) : Route W (List Row) :=
  if isRead sql then query (srv.rows (text srv.session sql))
  else do
    exec (srv.effect (text srv.session sql))
    pure []

variable {srv}

theorem send_readOnly {sql : List Part} (h : isRead sql = true) : ReadOnly (send srv sql) := by
  unfold send
  rw [if_pos h]
  exact readOnly_query _

/-- The clause at the end of the routes that take no document. -/
def caught (m : Route W Response) : Route W Response :=
  tryCatch m fun
    | .json what => pure (sendError 500 what)
    | .std what => pure (sendError 500 what)

theorem readOnly_caught {m : Route W Response} (h : ReadOnly m) : ReadOnly (caught m) := by
  refine readOnly_tryCatch h fun e => ?_
  cases e <;> exact readOnly_pure _

/-- A route that goes on after a connection is opened. -/
theorem readOnly_connect {α : Type} {m : Route W α} (h : ReadOnly m) :
    ReadOnly (connect >>= fun _ => m) :=
  readOnly_bind connect_readOnly fun _ => h

/-- A route that goes on with the rows of a text that reads. -/
theorem readOnly_send {α : Type} {sql : List Part} {f : List Row → Route W α}
    (h : isRead sql = true) (hf : ∀ rows, ReadOnly (f rows)) : ReadOnly (send srv sql >>= f) :=
  readOnly_bind (send_readOnly h) hf

/-- A route that goes on with a value, or throws. -/
theorem readOnly_liftE {α β : Type} {x : Except Thrown α} {f : α → Route W β}
    (hf : ∀ a, ReadOnly (f a)) : ReadOnly (liftE x >>= f) :=
  readOnly_bind (liftE_readOnly x) hf

theorem readOnly_ite {α : Type} {c : Prop} [Decidable c] {m n : Route W α} (hm : ReadOnly m)
    (hn : ReadOnly n) : ReadOnly (if c then m else n) := by
  split
  · exact hm
  · exact hn

end Sending

/-! ### Rows -/

/-- The value of a column, nothing for `NULL`. -/
def Row.col (r : Row) (i : ℕ) : Option Str := (r[i]?).join

/-- The first value of the first row. -/
def firstCell (rows : List Row) : Option Str := rows.head?.bind fun r => Row.col r 0

/-- `std::stoll` and `std::stoi`, with the number of their bits. -/
def parseSigned (what : String) (bits : ℕ) (s : Str) : Except Thrown Int :=
  match scanInteger s with
  | none => .error (.std what.toList)
  | some (n, _) =>
    if -(2 ^ (bits - 1)) ≤ n ∧ n < 2 ^ (bits - 1) then .ok n else .error (.std what.toList)

def parseLong : Str → Except Thrown Int := parseSigned "stoll" 64

def parseInt : Str → Except Thrown Int := parseSigned "stoi" 32

/-- A count: zero where the answer is empty or `NULL`. -/
def countOf (rows : List Row) : Except Thrown Int :=
  match firstCell rows with
  | none => .ok 0
  | some s => parseLong s

/-- An object of the response. -/
def object (fields : List (String × Json)) : Json := .obj (fields.map fun f => (f.1.toList, f.2))

/-- `NULL` becomes `null`, everything else a string. -/
def cell (r : Row) (i : ℕ) : Json := ((Row.col r i).map Json.str).getD .null

/-- A row as an object, keyed by the given names. -/
def rowToJson (cols : List String) (r : Row) : Json :=
  object (cols.mapIdx fun i c => (c, cell r i))

def rowsToJson (rows : List Row) (cols : List String) : Json := .arr (rows.map (rowToJson cols))

end StarBase.Api

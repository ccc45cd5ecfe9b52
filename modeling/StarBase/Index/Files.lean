import StarBase.Lib.Table
import StarBase.Host

/-!
# The `files` table

One row for each file ever seen under a root, keyed by `(root_id, rel_path_hash)`.  Instants are
microseconds since the epoch; `wholeSecond` is what the first nineteen characters of a printed
timestamp keep of one.
-/

namespace StarBase

open Relational

/-- An instant, in microseconds since the epoch. -/
abbrev Micros := Int

/-- The second an instant falls in. -/
def wholeSecond (t : Micros) : Int := t / 1000000

inductive Format
  | fits
  | xisf
  | other
  deriving DecidableEq, Repr

inductive Bucket
  | lights
  | calibration
  | process
  | review
  | quarantine
  | incoming
  | other
  deriving DecidableEq, Repr

inductive FileStatus
  | pending
  | ok
  | error
  | missing
  deriving DecidableEq, Repr

structure FileRow where
  id : ℕ
  rootId : ℕ
  relPath : Str
  relPathHash : Str
  filename : Str
  ext : Option Str
  format : Format
  bucket : Bucket
  sizeBytes : Option Int
  mtimeUtc : Option Micros
  inode : Option Int
  status : FileStatus
  error : Option Str
  firstSeenUtc : Micros
  lastSeenUtc : Option Micros
  lastIndexedUtc : Option Micros
  deriving DecidableEq, Repr

/-- A monitored directory tree, as far as its files are concerned. -/
structure RootRow where
  id : ℕ
  path : Str
  writable : Bool
  deriving DecidableEq, Repr

/-- `UNIQUE KEY uk_files_path (root_id, rel_path_hash)`. -/
def fileKeying : Keying FileRow (ℕ × Str) where
  id := FileRow.id
  key := fun r => (r.rootId, r.relPathHash)

/-- `SET status='missing'`. -/
def missingRow : RowUpdate fileKeying where
  apply r := { r with status := .missing }
  id_apply _ := rfl
  key_apply _ := rfl

end StarBase

import StarBase.Lib.Statement
import StarBase.Text

/-!
# What the program takes from its surroundings

The functions of the database server and of the libraries that the model does not look into.  A
result stated over an arbitrary `Host` holds whatever they compute; `plainHost` is the simplest
one, for concrete runs.
-/

namespace StarBase

open Statements

class Host where
  /-- The sort key of the columns' collation: two strings compare equal when their keys do. -/
  collate : Str → Str
  /-- Whether a string fits a `VARCHAR(n)` column. -/
  fits : ℕ → Str → Bool
  /-- What an `INSERT IGNORE` keeps of a string in a `VARCHAR(n)` column. -/
  truncate : ℕ → Str → Str
  /-- Whether the server takes a string for a `DATE`, and for a `DATETIME`. -/
  isDate : Str → Bool
  isDatetime : Str → Bool
  md5 : Str → Str
  /-- `std::regex_search`, case-insensitive; `none` for a pattern that does not compile. -/
  regexSearch : Str → Str → Option Bool
  /-- PBKDF2 with the given salt, iteration count and output length. -/
  pbkdf2 : Str → List UInt8 → ℕ → ℕ → List UInt8

/-- A binary collation, columns that take everything, and a digest that keeps its input apart from
all others. -/
@[reducible] def plainHost : Host where
  collate := id
  fits _ _ := true
  truncate _ := id
  isDate _ := true
  isDatetime _ := true
  md5 := id
  regexSearch pattern text := some (hasSubstring (lower pattern) (lower text))
  pbkdf2 pw _ _ _ := pw.map fun c => c.toNat.toUInt8

instance : StatementError Thrown where
  statementFailed := .std "database statement failed".toList

end StarBase

import Untangle.Engine.Text
import Untangle.Lib.DecimalDigits
import Untangle.Lib.Json

/-!
# `Engine.Conversions` — integers and texts

The conversions of the interpreter that the engine applies to values of any type: `int` of a text, and `str` and `repr`
of a value. An integer of more digits than the limit is not converted. Which characters are digits, how a string is
printed and the text of a float are parameters.
-/

namespace Untangle

open Lib

/-- `sys.int_info.default_max_str_digits`. -/
def maxStrDigits : Nat := 4300

/-- The integer has more digits than the interpreter converts. -/
def tooLong (i : ℤ) : Bool := 10 ^ maxStrDigits ≤ i.natAbs

section Conversions

variable (D : DecimalDigits) (U : Unicode) (floatText : ℚ → String)

/-- Digits with single underscores between them. -/
def readGroups (body : List Char) : Option Nat :=
  if (∀ g ∈ body.splitOn '_', g ≠ [] ∧ g.all D.isDecimal) ∧ (body.splitOn '_').flatten.length ≤ maxStrDigits then
    some (D.number (body.splitOn '_').flatten)
  else none

/-- `int(text)`. -/
def readInt (text : String) : Option ℤ :=
  let (negative, body) := readSign (strip text).toList
  (readGroups D body).map fun n : Nat => if negative then -(n : ℤ) else n

/-- `repr` of a key. -/
def reprKey : DictKey → Option String
  | .str s => some (U.repr s)
  | .null => some "None"
  | .bool b => some (if b then "True" else "False")
  | .int i => if tooLong i then none else some (toString i)
  | .float q => some (floatText q)

mutual

/-- `repr(v)`, or nothing where an integer in it is too long. -/
def reprValue : Json → Option String
  | .null => some "None"
  | .bool b => some (if b then "True" else "False")
  | .int i => if tooLong i then none else some (toString i)
  | .float q => some (floatText q)
  | .inf negative => some (if negative then "-inf" else "inf")
  | .nan => some "nan"
  | .str s => some (U.repr s)
  | .arr items => (reprItems items).map fun texts => "[" ++ String.intercalate ", " texts ++ "]"
  | .obj fields => (reprFields fields).map fun texts => "\x7b" ++ String.intercalate ", " texts ++ "\x7d"
  | .dict entries => (reprEntries entries).map fun texts => "\x7b" ++ String.intercalate ", " texts ++ "\x7d"

def reprItems : List Json → Option (List String)
  | [] => some []
  | v :: vs => (reprValue v).bind fun text => (reprItems vs).map fun texts => text :: texts

def reprFields : List (String × Json) → Option (List String)
  | [] => some []
  | (key, v) :: fields =>
    (reprValue v).bind fun text => (reprFields fields).map fun texts => (U.repr key ++ ": " ++ text) :: texts

def reprEntries : List (DictKey × Json) → Option (List String)
  | [] => some []
  | (key, v) :: entries =>
    (reprKey U floatText key).bind fun name => (reprValue v).bind fun text =>
      (reprEntries entries).map fun texts => (name ++ ": " ++ text) :: texts

end

/-- `str(v)`. -/
def strValue : Json → Option String
  | .str s => some s
  | v => reprValue U floatText v

end Conversions

end Untangle

import ScriptBundler.Text.Unprintable
import ScriptBundler.Options.Basic
import ScriptBundler.Number.Layout

namespace ScriptBundler.Options

/-- A JSON value, or the little of one that a report shows. -/
inductive Shape where
  | null
  | bool (value : Bool)
  | integer (value : Int)
  | fraction (isNegative : Bool) (value : Double)
  | string (value : String)
  | sequence
  | map
  deriving Repr, Inhabited

/-- A fraction keeps its point up to sixteen digits, and is scientific beyond. -/
def fractionText (isNegative : Bool) (x : Double) : String :=
  let (digits, point) := x.digitsAndPoint
  let text :=
    if x.mantissa = 0 then "0.0"
    else if -5 < point && point ≤ 16 then
      let t := Double.positional digits point
      if x.isInteger then t ++ ".0" else t
    else Double.scientific digits (point - 1) "+"
  if isNegative then "-" ++ text else text

namespace Shape

def describe : Shape → String
  | .null => "null"
  | .bool b => "boolean \x60" ++ (if b then "true" else "false") ++ "\x60"
  | .integer n => "integer \x60" ++ toString n ++ "\x60"
  | .fraction isNegative x => "floating point \x60" ++ fractionText isNegative x ++ "\x60"
  | .string s => "string " ++ Text.visible s
  | .sequence => "sequence"
  | .map => "map"

end Shape

inductive Mismatch where
  | invalidType (found : Shape) (expected : String)
  | unknownField (name : String)
  | duplicateField (name : String)
  | unknownVariant (name : String)
  | invalidLength (n : Nat) (expected : String)
  | severalKeys
  | malformed (reason : String)
  deriving Repr, Inhabited

def fieldNames : List String :=
  ["input", "cwd", "root", "base", "external", "file", "loader", "bare"]

def ticked (s : String) : String := "\x60" ++ s ++ "\x60"

namespace Mismatch

def message : Mismatch → String
  | .invalidType found expected =>
    "invalid type: " ++ found.describe ++ ", expected " ++ expected
  | .unknownField name =>
    "unknown field " ++ ticked name ++ ", expected one of " ++
      ", ".intercalate (fieldNames.map ticked)
  | .duplicateField name => "duplicate field " ++ ticked name
  | .unknownVariant name =>
    "unknown variant " ++ ticked name ++ ", expected " ++ ticked "eager" ++ " or " ++ ticked "lazy"
  | .invalidLength n expected => "invalid length " ++ toString n ++ ", expected " ++ expected
  | .severalKeys => "invalid value: map, expected map with a single key"
  | .malformed reason => reason

end Mismatch

def expectedWhole : String := "struct BundlerOptions"

def expectedPositional : String := expectedWhole ++ " with 8 elements"

end ScriptBundler.Options

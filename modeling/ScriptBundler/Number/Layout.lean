import ScriptBundler.Number.Double

namespace ScriptBundler

def Decimal.trim (d : Decimal) : Nat → Decimal
  | 0 => d
  | n + 1 => if d.digits % 10 = 0 ∧ d.digits ≠ 0 then
      Decimal.trim ⟨d.digits / 10, d.exponent + 1⟩ n
    else d

namespace Double

def zeros (n : Nat) : String := String.ofList (List.replicate n '0')

def digitsAndPoint (x : Double) : String × Int :=
  let d := x.shortest
  let d := d.trim (toString d.digits).length
  let text := toString d.digits
  (text, text.length + d.exponent)

/-- One digit before the point, the rest behind it, and a signed power of ten. -/
def scientific (digits : String) (exponent : Int) (plus : String) : String :=
  let sign := if exponent < 0 then "-" else plus
  let power := sign ++ toString exponent.natAbs
  match digits.toList with
  | [] => "0"
  | [c] => c.toString ++ "e" ++ power
  | c :: cs => c.toString ++ "." ++ String.ofList cs ++ "e" ++ power

/-- Digits with a point after the first `point` of them, which may lie outside. -/
def positional (digits : String) (point : Int) : String :=
  let n := digits.length
  if point ≤ 0 then "0." ++ zeros point.natAbs ++ digits
  else if n ≤ point.natAbs then digits ++ zeros (point.natAbs - n)
  else
    let cs := digits.toList
    String.ofList (cs.take point.natAbs) ++ "." ++ String.ofList (cs.drop point.natAbs)

def layout (x : Double) : String :=
  if x.mantissa = 0 then "0"
  else
    let (digits, point) := x.digitsAndPoint
    if -6 < point && point ≤ 21 then positional digits point
    else scientific digits (point - 1) "+"

def hexadecimal (x : Double) : String :=
  "0x" ++ String.ofList (Nat.toDigits 16 x.floor)

def withoutLeadingZeros? (text : List Char) : Option String :=
  match text with
  | '.' :: '0' :: rest =>
    let digits := rest.dropWhile (· = '0')
    some (String.ofList digits ++ "e-" ++ toString (text.length - 1))
  | _ => none

def withoutTrailingZeros? (text : List Char) : Option String :=
  let base := (text.reverse.dropWhile (· = '0')).reverse
  let n := text.length - base.length
  if n = 0 then none else some (String.ofList base ++ "e" ++ toString n)

def withoutPoint? (text : String) : Option String :=
  match text.splitOn "e" with
  | [base, power] =>
    match base.splitOn ".", power.toInt? with
    | [whole, part], some power =>
      some (whole ++ part ++ "e" ++ toString (power - (part.length : Int)))
    | _, _ => none
  | _ => none

def shortestText : List String → String → String
  | [], best => best
  | t :: ts, best => shortestText ts (if t.length < best.length then t else best)

def compact (x : Double) : String :=
  let text := x.layout
  if x.isInteger && x.floor < 1000 then text
  else
    let text := if text.startsWith "0." then (text.drop 1).toString else text
    let text := text.replace "e+" "e"
    let hex := if x.isInteger then [x.hexadecimal] else []
    let small := (withoutLeadingZeros? text.toList).toList
    let large := (withoutTrailingZeros? text.toList).toList ++ (withoutPoint? text).toList
    shortestText (hex ++ small ++ large) text

end Double

def Decimal.compact (d : Decimal) : String :=
  match Double.ofDecimal d with
  | some x => x.compact
  | none => "Infinity"

end ScriptBundler


namespace ScriptBundler

/-- The number `digits * 10 ^ exponent`. -/
structure Decimal where
  digits : Nat
  exponent : Int
  deriving DecidableEq, Repr, Inhabited

/-- The number `mantissa * 2 ^ exponent`, with a mantissa below `2 ^ 53`. -/
structure Double where
  mantissa : Nat
  exponent : Int
  deriving DecidableEq, Repr, Inhabited

def Decimal.ratio (d : Decimal) : Nat × Nat :=
  (d.digits * Nat.pow 10 d.exponent.toNat, Nat.pow 10 (-d.exponent).toNat)

namespace Double

def roundDiv (num den : Nat) : Nat :=
  let q := num / den
  let r := num % den
  if 2 * r < den then q
  else if 2 * r = den then q + q % 2
  else q + 1

def scaled (num den : Nat) (e : Int) : Nat :=
  roundDiv (num * Nat.pow 2 (-e).toNat) (den * Nat.pow 2 e.toNat)

def fitExponent (num den : Nat) : Nat → Int → Int
  | 0, e => e
  | n + 1, e => if scaled num den e < Nat.pow 2 53 then e else fitExponent num den n (e + 1)

def ofRatio (num den : Nat) : Option Double :=
  if num = 0 then some ⟨0, 0⟩
  else
    let e := max (-1074) ((num.log2 : Int) - den.log2 - 54)
    let e := fitExponent num den 4 e
    if e > 971 then none else some ⟨scaled num den e, e⟩

def ofDecimal (d : Decimal) : Option Double :=
  if d.digits = 0 then some ⟨0, 0⟩
  else if d.exponent > 400 then none
  else if d.exponent + (d.digits.log2 / 3 + 1 : Nat) < -400 then some ⟨0, 0⟩
  else
    let (num, den) := d.ratio
    ofRatio num den

def ratio (x : Double) : Nat × Nat :=
  (x.mantissa * Nat.pow 2 x.exponent.toNat, Nat.pow 2 (-x.exponent).toNat)

def isInteger (x : Double) : Bool :=
  let (num, den) := x.ratio
  num % den = 0

def floor (x : Double) : Nat :=
  let (num, den) := x.ratio
  num / den

def pointOf (num den : Nat) : Nat → Int → Int
  | 0, p => p
  | n + 1, p =>
    if num * Nat.pow 10 (-p).toNat < den * Nat.pow 10 p.toNat then p else pointOf num den n (p + 1)

def shortestWith (x : Double) (point : Int) (n : Nat) : Option Decimal :=
  let (num, den) := x.ratio
  let k := point - n
  let scaledNum := num * Nat.pow 10 (-k).toNat
  let scaledDen := den * Nat.pow 10 k.toNat
  let nearer := roundDiv scaledNum scaledDen
  let low := scaledNum / scaledDen
  let further := if nearer = low then low + 1 else low
  let readsBack := fun digits => ofDecimal ⟨digits, k⟩ = ofRatio num den
  if readsBack nearer then some ⟨nearer, k⟩
  else if readsBack further then some ⟨further, k⟩
  else none

def shortest (x : Double) : Decimal :=
  if x.mantissa = 0 then ⟨0, 0⟩
  else
    let (num, den) := x.ratio
    let start : Int := ((num.log2 : Int) - den.log2 - 1) * 30103 / 100000 - 1
    let point := pointOf num den 6 start
    ((List.range 18).findSome? (shortestWith x point)).getD ⟨x.floor, 0⟩

def mul? (x y : Double) : Option Double :=
  ofRatio (x.ratio.1 * y.ratio.1) (x.ratio.2 * y.ratio.2)

def div? (x y : Double) : Option Double :=
  ofRatio (x.ratio.1 * y.ratio.2) (x.ratio.2 * y.ratio.1)

def maxPower : Nat := 308

def powerOfTen (n : Nat) : Double := (ofDecimal ⟨1, min n maxPower⟩).getD ⟨0, 0⟩

/--
A double times a power of ten, rounded at each step: a step goes as far as there is a power of ten.
Zero stays zero; what is too large is none.
-/
def scaleBy? : Nat → Double → Int → Option Double
  | 0, _, _ => none
  | n + 1, x, e =>
    if e.natAbs ≤ maxPower then
      if 0 ≤ e then x.mul? (powerOfTen e.natAbs) else x.div? (powerOfTen e.natAbs)
    else if x.mantissa = 0 then some x
    else if 0 ≤ e then none
    else (x.div? (powerOfTen maxPower)).bind fun x' => scaleBy? n x' (e + maxPower)

def ofScaled? (significand : Nat) (exponent : Int) : Option Double :=
  (ofRatio significand 1).bind fun x => scaleBy? 4 x exponent

end Double

end ScriptBundler


namespace ScriptBundler.Text.Utf8

/-- What is wrong with the bytes from an index on. -/
inductive Fault where
  | incomplete (index : Nat)
  | invalid (length : Nat) (index : Nat)
  deriving DecidableEq, Repr, Inhabited

namespace Fault

def message : Fault → String
  | .incomplete index => "incomplete utf-8 byte sequence from index " ++ toString index
  | .invalid length index =>
    "invalid utf-8 sequence of " ++ toString length ++ " bytes from index " ++ toString index

end Fault

def shape? (first : Nat) : Option (Nat × Nat × Nat) :=
  if first < 0x80 then some (0, 0x80, 0xbf)
  else if 0xc2 ≤ first && first ≤ 0xdf then some (1, 0x80, 0xbf)
  else if first = 0xe0 then some (2, 0xa0, 0xbf)
  else if first = 0xed then some (2, 0x80, 0x9f)
  else if 0xe1 ≤ first && first ≤ 0xef then some (2, 0x80, 0xbf)
  else if first = 0xf0 then some (3, 0x90, 0xbf)
  else if 0xf1 ≤ first && first ≤ 0xf3 then some (3, 0x80, 0xbf)
  else if first = 0xf4 then some (3, 0x80, 0x8f)
  else none

def firstBits (first : Nat) : Nat → Nat
  | 0 => first
  | 1 => first - 0xc0
  | 2 => first - 0xe0
  | _ => first - 0xf0

structure Partial where
  missing : Nat
  low : Nat
  high : Nat
  bits : Nat
  read : Nat

def decodeFrom : Option Partial → Nat → List Nat → Except Fault (List Char)
  | none, _, [] => .ok []
  | some p, index, [] => .error (.incomplete (index - p.read))
  | none, index, b :: bs =>
    match shape? b with
    | none => .error (.invalid 1 index)
    | some (0, _, _) => (Char.ofNat b :: ·) <$> decodeFrom none (index + 1) bs
    | some (n, low, high) => decodeFrom (some ⟨n, low, high, firstBits b n, 1⟩) (index + 1) bs
  | some p, index, b :: bs =>
    if p.low ≤ b && b ≤ p.high then
      let bits := p.bits * 64 + (b - 0x80)
      if p.missing ≤ 1 then (Char.ofNat bits :: ·) <$> decodeFrom none (index + 1) bs
      else decodeFrom (some ⟨p.missing - 1, 0x80, 0xbf, bits, p.read + 1⟩) (index + 1) bs
    else .error (.invalid p.read (index - p.read))

def decode (bytes : List Nat) : Except Fault String :=
  String.ofList <$> decodeFrom none 0 bytes

end ScriptBundler.Text.Utf8

import ScriptBundler.Options.Mismatch

namespace ScriptBundler.Options

/-- The text still to be read, and the bytes before it. -/
structure Cursor where
  rest : List Char
  offset : Nat
  deriving Inhabited

/-- A mismatch and the number of bytes read when it showed. -/
structure Fault where
  reason : Mismatch
  offset : Nat
  deriving Inhabited

abbrev Reader := StateT Cursor (Except Fault)

namespace Reader

def peek : Reader (Option Char) := do return (← get).rest.head?

def skip : Reader Unit :=
  modify fun c => match c.rest with
    | [] => c
    | x :: rest => ⟨rest, c.offset + x.utf8Size⟩

def fail (reason : Mismatch) : Reader α := do
  throw ⟨reason, (← get).offset⟩

def failNext (reason : String) : Reader α := do
  let c ← get
  throw ⟨.malformed reason, if c.rest.isEmpty then c.offset else c.offset + 1⟩

def malformed (reason : String) : Reader α := fail (.malformed reason)

def next (atEnd : String) : Reader Char := do
  match ← peek with
  | some c => skip; return c
  | none => malformed atEnd

def isBlank (c : Char) : Bool := c = ' ' || c = '\n' || c = '\t' || c = '\r'

def peekToken : Reader (Option Char) := do
  modify fun c => ⟨c.rest.dropWhile isBlank, c.offset + (c.rest.takeWhile isBlank).length⟩
  peek

def eofValue : String := "EOF while parsing a value"
def eofObject : String := "EOF while parsing an object"
def eofList : String := "EOF while parsing a list"
def eofString : String := "EOF while parsing a string"

def expect (c : Char) (atEnd otherwise : String) : Reader Unit := do
  match ← peek with
  | some x => if x = c then skip else failNext otherwise
  | none => malformed atEnd

def word : List Char → Reader Unit
  | [] => return ()
  | c :: cs => do
    expect c eofValue "expected ident"
    word cs

def hexValue? (c : Char) : Option Nat :=
  if c.isDigit then some (c.toNat - 48)
  else if 'a' ≤ c ∧ c ≤ 'f' then some (c.toNat - 87)
  else if 'A' ≤ c ∧ c ≤ 'F' then some (c.toNat - 55)
  else none

/-- Skips bytes; a character counts as long as one of its bytes is asked for. -/
def skipBytes : Nat → Reader Unit
  | 0 => return ()
  | n + 1 => do
    match ← peek with
    | none => return ()
    | some _ => skip; skipBytes n

def hexUnit : Reader Nat := do
  let c ← get
  let bytes := (c.rest.take 4).foldl (fun n x => n + x.utf8Size) 0
  if bytes < 4 then
    set (⟨[], c.offset + bytes⟩ : Cursor)
    malformed eofString
  else
    match (c.rest.take 4).mapM hexValue? with
    | some [a, b, d, e] =>
      skipBytes 4
      return ((a * 16 + b) * 16 + d) * 16 + e
    | _ =>
      set (⟨c.rest.drop 4, c.offset + 4⟩ : Cursor)
      malformed "invalid escape"

/-- The character of a `\u` escape, and of the one after it if both make a pair. -/
def unicodeEscape : Reader Char := do
  let lone := "lone leading surrogate in hex escape"
  let ended := "unexpected end of hex escape"
  let first ← hexUnit
  if 0xDC00 ≤ first ∧ first ≤ 0xDFFF then malformed lone
  else if first < 0xD800 ∨ 0xDBFF < first then return Char.ofNat first
  else
    expect '\\' eofString ended
    expect 'u' eofString ended
    let second ← hexUnit
    if second < 0xDC00 ∨ 0xDFFF < second then malformed lone
    return Char.ofNat ((first - 0xD800) * 1024 + (second - 0xDC00) + 0x10000)

/-- What the characters after a backslash denote, those of a `\u` escape excepted. -/
def escapes : List (Char × Char) :=
  [('"', '"'), ('\\', '\\'), ('/', '/'), ('b', Char.ofNat 8), ('f', Char.ofNat 12), ('n', '\n'),
    ('r', '\r'), ('t', '\t')]

def escape : Reader Char := do
  match ← peek with
  | none => malformed eofString
  | some 'u' => skip; unicodeEscape
  | some c =>
    match escapes.lookup c with
    | some x => skip; return x
    | none => failNext "invalid escape"

def stringBody : Nat → List Char → Reader String
  | 0, _ => malformed eofString
  | fuel + 1, acc => do
    match ← next eofString with
    | '"' => return String.ofList acc.reverse
    | '\\' => do
      let c ← escape
      stringBody fuel (c :: acc)
    | c =>
      if c.toNat < 32 then
        malformed "control character (\\u0000-\\u001F) found while parsing a string"
      else stringBody fuel (c :: acc)

def string : Reader String := do
  skip
  let c ← get
  stringBody (c.rest.length + 1) []

def digits : Reader (List Char) := do
  let c ← get
  let ds := c.rest.takeWhile Char.isDigit
  set (⟨c.rest.dropWhile Char.isDigit, c.offset + ds.length⟩ : Cursor)
  return ds

/--
A number with the digits behind it, as far as the result stays below `bound`, and how many digits
that are.
-/
def append (bound : Nat) : Nat → List Char → Nat × Nat
  | n, [] => (n, 0)
  | n, d :: ds =>
    let m := n * 10 + (d.toNat - 48)
    if m < bound then
      let (result, count) := append bound m ds
      (result, count + 1)
    else (n, 0)

def significandBound : Nat := Nat.pow 2 64

def powerBound : Nat := Nat.pow 2 31

/-- A power of ten after an `e`; one that does not fit is none, and its digits are read as far. -/
def power : Reader (Bool × Option Nat) := do
  skip
  let sign ← peek
  if sign = some '+' ∨ sign = some '-' then skip
  match ← peek with
  | none => malformed eofValue
  | some c =>
    if !c.isDigit then failNext "invalid number"
    let start ← get
    let ds ← digits
    let (n, count) := append powerBound 0 ds
    if count = ds.length then return (sign = some '-', some n)
    set (⟨start.rest.drop (count + 1), start.offset + count + 1⟩ : Cursor)
    return (sign = some '-', none)

def fractionDigits : Reader (List Char) := do
  skip
  let ds ← digits
  if ds.isEmpty then
    match ← peek with
    | some _ => failNext "invalid number"
    | none => malformed eofValue
  return ds

/-- The digits before a point; a zero stands alone. -/
def wholeDigits : Reader (List Char) := do
  match ← peek with
  | none => malformed eofValue
  | some '0' =>
    skip
    if (← peek).any Char.isDigit then failNext "invalid number"
    return ['0']
  | some c => if c.isDigit then digits else failNext "invalid number"

def scaled (isNegative : Bool) (significand : Nat) (exponent : Int) : Reader Shape := do
  match Double.ofScaled? significand exponent with
  | some x => return .fraction isNegative x
  | none => malformed "number out of range"

/--
An integer as far as 64 bits hold it, or else a fraction. The digits that count are those which 64
bits hold; behind them, digits before the point only shift it.
-/
def number (isNegative : Bool) : Reader Shape := do
  let whole ← wholeDigits
  let (n, count) := append significandBound 0 whole
  let dropped := whole.length - count
  let hasPoint := (← peek) = some '.'
  let fraction ← if hasPoint then fractionDigits else pure []
  let (n, behind) := append significandBound n fraction
  let exponent : Int := (dropped : Int) - behind
  match ← peek with
  | some 'e' | some 'E' =>
    match ← power with
    | (isSmall, some p) => scaled isNegative n (exponent + if isSmall then -(p : Int) else p)
    | (isSmall, none) =>
      if n ≠ 0 ∧ !isSmall then malformed "number out of range"
      let _ ← digits
      return .fraction isNegative ⟨0, 0⟩
  | _ =>
    if hasPoint ∨ dropped ≠ 0 then scaled isNegative n exponent
    else if !isNegative then return .integer n
    else if 0 < n ∧ n ≤ Nat.pow 2 63 then return .integer (-(n : Int))
    else scaled isNegative n 0

def wrongType (expected : String) : Reader α := do
  match ← peek with
  | some 'n' => skip; word ['u', 'l', 'l']; fail (.invalidType .null expected)
  | some 't' => skip; word ['r', 'u', 'e']; fail (.invalidType (.bool true) expected)
  | some 'f' => skip; word ['a', 'l', 's', 'e']; fail (.invalidType (.bool false) expected)
  | some '-' => skip; fail (.invalidType (← number true) expected)
  | some '"' => fail (.invalidType (.string (← string)) expected)
  | some '[' => fail (.invalidType .sequence expected)
  | some '{' => fail (.invalidType .map expected)
  | some c =>
    if c.isDigit then fail (.invalidType (← number false) expected)
    else failNext "expected value"
  | none => malformed eofValue

def stringValue (expected : String) : Reader String := do
  match ← peekToken with
  | some '"' => string
  | none => malformed eofValue
  | some _ => wrongType expected

def boolValue : Reader Bool := do
  match ← peekToken with
  | some 't' => skip; word ['r', 'u', 'e']; return true
  | some 'f' => skip; word ['a', 'l', 's', 'e']; return false
  | none => malformed eofValue
  | some _ => wrongType "a boolean"

def moreItems (first : Bool) : Reader Bool := do
  match ← peekToken with
  | none => malformed eofList
  | some ']' => return false
  | some c =>
    if first then return true
    else if c = ',' then
      skip
      match ← peekToken with
      | some ']' => failNext "trailing comma"
      | some _ => return true
      | none => malformed eofValue
    else failNext "expected \x60,\x60 or \x60]\x60"

def strings : Nat → Bool → Reader (List String)
  | 0, _ => malformed eofList
  | fuel + 1, first => do
    if ← moreItems first then
      let s ← stringValue "a string"
      return s :: (← strings fuel false)
    else return []

def stringList : Reader (List String) := do
  match ← peekToken with
  | some '[' =>
    skip
    let c ← get
    let items ← strings (c.rest.length + 1) true
    skip
    return items
  | none => malformed eofValue
  | some _ => wrongType "a sequence"

def colon : Reader Unit := do
  match ← peekToken with
  | some ':' => skip
  | some _ => failNext "expected \x60:\x60"
  | none => malformed eofObject

def variant : Reader LoaderStrategy := do
  let name ← stringValue "variant identifier"
  match LoaderStrategy.ofWord? name with
  | some l => return l
  | none => fail (.unknownVariant name)

def loader : Reader LoaderStrategy := do
  match ← peekToken with
  | some '{' =>
    skip
    let l ← variant
    colon
    match ← peekToken with
    | some 'n' => skip; word ['u', 'l', 'l']
    | none => malformed eofValue
    | some _ => wrongType "unit"
    match ← peekToken with
    | some '}' => skip; return l
    | some _ => malformed "expected value"
    | none => malformed eofObject
  | some '"' => variant
  | some _ => failNext "expected value"
  | none => malformed eofValue

def optional (value : Reader α) : Reader (Option α) := do
  match ← peekToken with
  | some 'n' => skip; word ['u', 'l', 'l']; return none
  | _ => some <$> value

def field (o : Options) (name : String) : Reader Options := do
  match name with
  | "input" => return { o with input := ← optional stringList }
  | "cwd" => return { o with cwd := ← optional (stringValue "path string") }
  | "root" => return { o with root := ← optional (stringValue "path string") }
  | "base" => return { o with base := ← optional (stringValue "a string") }
  | "external" => return { o with external := ← optional stringList }
  | "file" => return { o with file := ← optional (stringValue "a string") }
  | "loader" => return { o with loader := ← optional loader }
  | "bare" => return { o with bare := ← optional boolValue }
  | _ => return o

def failKey (reason : Mismatch) : Reader α := do
  if (← peekToken) = some '}' then skip
  fail reason

def moreFields (first : Bool) : Reader Bool := do
  match ← peekToken with
  | none => malformed eofObject
  | some '}' => return false
  | some c =>
    if first then
      if c = '"' then return true else failNext "key must be a string"
    else if c = ',' then
      skip
      match ← peekToken with
      | some '"' => return true
      | some '}' => failNext "trailing comma"
      | some _ => failNext "key must be a string"
      | none => malformed eofValue
    else failNext "expected \x60,\x60 or \x60\x7d\x60"

def fields : Nat → List String → Options → Reader Options
  | 0, _, _ => malformed eofObject
  | fuel + 1, seen, o => do
    if ← moreFields seen.isEmpty then
      let name ← string
      if name ∉ fieldNames then failKey (.unknownField name)
      if name ∈ seen then failKey (.duplicateField name)
      colon
      fields fuel (name :: seen) (← field o name)
    else return o

def positional : List String → Nat → Options → Reader Options
  | [], _, o => return o
  | name :: names, n, o => do
    if ← moreItems (n = 0) then positional names (n + 1) (← field o name)
    else
      skip
      fail (.invalidLength n expectedPositional)

def listEnd : Reader Unit := do
  match ← peekToken with
  | some ']' => skip
  | some ',' =>
    skip
    if (← peekToken) = some ']' then failNext "trailing comma"
    else failNext "trailing characters"
  | some _ => failNext "trailing characters"
  | none => malformed eofList

def whole : Reader Options := do
  let o ← match ← peekToken with
    | some '{' => do
      skip
      let c ← get
      let o ← fields (c.rest.length + 1) [] {}
      skip
      pure o
    | some '[' => do
      skip
      let o ← positional fieldNames 0 {}
      listEnd
      pure o
    | none => malformed eofValue
    | some _ => wrongType expectedWhole
  if (← peekToken).isSome then failNext "trailing characters"
  return o

end Reader

def lineColumn : List Char → Nat → Nat → Nat → Nat × Nat
  | [], line, column, offset => (line, column + offset)
  | c :: cs, line, column, offset =>
    if offset < c.utf8Size then (line, column + offset)
    else if c = '\n' then lineColumn cs (line + 1) 0 (offset - 1)
    else lineColumn cs line (column + c.utf8Size) (offset - c.utf8Size)

def parse (text : String) : Except String Options :=
  match Reader.whole.run ⟨text.toList, 0⟩ with
  | .ok (o, _) => .ok o
  | .error f =>
    let (line, column) := lineColumn text.toList 1 0 f.offset
    .error (f.reason.message ++ " at line " ++ toString line ++ " column " ++ toString column)

end ScriptBundler.Options

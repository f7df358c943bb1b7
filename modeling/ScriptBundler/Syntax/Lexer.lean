import ScriptBundler.Syntax.Basic
import ScriptBundler.Syntax.Token
import ScriptBundler.Text.Identifier
import ScriptBundler.Number.Layout

namespace ScriptBundler.Lexer

def isLineEnd (c : Char) : Bool :=
  c = '\n' || c = '\r' || c.toNat = 0x2028 || c.toNat = 0x2029

def isBlank (c : Char) : Bool :=
  let n := c.toNat
  n = 9 || n = 11 || n = 12 || n = 32 || n = 0x85 || n = 0xa0 || n = 0x1680 || n = 0x180e ||
    (0x2000 ≤ n && n ≤ 0x200b) || n = 0x202f || n = 0x205f || n = 0x3000 || n = 0xfeff

def startsWith : List Char → List Char → Bool
  | [], _ => true
  | _ :: _, [] => false
  | c :: cs, d :: ds => c = d && startsWith cs ds

/-- What stands before a token. -/
structure Trivia where
  hasLineEnd : Bool := false
  spansLines : Bool := false
  marksCall : Bool := false
  marksFunction : Bool := false
  comments : List Comment := []
  deriving Inhabited

inductive CommentKind where
  | line
  | block
  deriving DecidableEq

namespace Trivia

def newLine (t : Trivia) : Trivia :=
  { t with
    hasLineEnd := true
    comments := if t.hasLineEnd then
        match t.comments.getLast? with
        | some c => t.comments.dropLast ++ [{ c with endsLine := true }]
        | none => []
      else [] }

def isMark (mark : String) (text : List Char) : Bool :=
  match text.dropWhile Char.isWhitespace with
  | c :: cs => (c = '@' || c = '#') && startsWith mark.toList cs
  | [] => false

/--
Takes in a comment, given its text without the marks. `mayLead` is whether one that ends the line of
the token before it belongs to the next one even so.
-/
def addComment (mayLead : Bool) (t : Trivia) (kind : CommentKind) (text : List Char) : Trivia :=
  let marksCall := isMark "__PURE__" text
  let marksFunction := isMark "__NO_SIDE_EFFECTS__" text
  let added := fun comment =>
    if marksCall || marksFunction then t.comments else t.comments ++ [comment]
  let marked := { t with
    marksCall := t.marksCall || marksCall, marksFunction := t.marksFunction || marksFunction }
  match kind with
  | .line =>
    let comment := ⟨"//" ++ String.ofList text, true, t.hasLineEnd, true⟩
    { marked with
      hasLineEnd := true
      comments := if t.hasLineEnd || mayLead then added comment else [] }
  | .block =>
    let comment := ⟨"/*" ++ String.ofList text ++ "*/", false, t.hasLineEnd, false⟩
    { marked with
      spansLines := t.spansLines || text.any isLineEnd
      comments := added comment }

end Trivia

/--
Skips blanks and comments. Within a comment its text is collected in reverse. A block comment
without an end is refused.
-/
def trivia (mayLead : Bool) :
    Option (CommentKind × List Char) → Trivia → List Char → Option (Trivia × List Char)
  | none, t, '/' :: '/' :: cs => trivia mayLead (some (.line, [])) t cs
  | none, t, '/' :: '*' :: cs => trivia mayLead (some (.block, [])) t cs
  | none, t, c :: cs =>
    if isLineEnd c then trivia mayLead none t.newLine cs
    else if isBlank c then trivia mayLead none t cs
    else some (t, c :: cs)
  | none, t, [] => some (t, [])
  | some (.line, text), t, c :: cs =>
    if isLineEnd c then trivia mayLead none (t.addComment mayLead .line text.reverse).newLine cs
    else trivia mayLead (some (.line, c :: text)) t cs
  | some (.line, text), t, [] => some (t.addComment mayLead .line text.reverse, [])
  | some (.block, text), t, '*' :: '/' :: cs =>
    trivia mayLead none (t.addComment mayLead .block text.reverse) cs
  | some (.block, text), t, c :: cs => trivia mayLead (some (.block, c :: text)) t cs
  | some (.block, _), _, [] => none

def hexValue? (c : Char) : Option Nat :=
  if '0' ≤ c ∧ c ≤ '9' then some (c.toNat - 48)
  else if 'a' ≤ c ∧ c ≤ 'f' then some (c.toNat - 87)
  else if 'A' ≤ c ∧ c ≤ 'F' then some (c.toNat - 55)
  else none

def ofDigits (base : Nat) (cs : List Char) : Nat :=
  cs.foldl (fun n c => n * base + (hexValue? c).getD 0) 0

def hexDigits? (n : Nat) (cs : List Char) : Option (Nat × List Char) :=
  let ds := cs.take n
  if ds.length = n && ds.all (fun c => (hexValue? c).isSome) then some (ofDigits 16 ds, cs.drop n)
  else none

def unicodeEscape? : List Char → Option (Nat × List Char)
  | '{' :: cs =>
    let ds := cs.takeWhile fun c => (hexValue? c).isSome
    match cs.drop ds.length with
    | '}' :: rest =>
      let n := ofDigits 16 ds
      if ds.isEmpty || 0x10ffff < n then none else some (n, rest)
    | _ => none
  | cs => hexDigits? 4 cs

def nameChar? (accepts : Char → Bool) : List Char → Option (Char × Bool × List Char)
  | '\\' :: 'u' :: cs => do
    let (n, rest) ← unicodeEscape? cs
    let c := Char.ofNat n
    if c.toNat = n && accepts c then some (c, true, rest) else none
  | '\\' :: _ => none
  | c :: cs => if accepts c then some (c, false, cs) else none
  | [] => none

/-- The later characters of a name; an escape that does not fit is refused. -/
def nameRest : Nat → Bool → List Char → List Char → Option (List Char × Bool × List Char)
  | 0, _, _, _ => none
  | fuel + 1, escaped, acc, cs =>
    match nameChar? Identifier.isPart cs with
    | some (c, e, rest) => nameRest fuel (escaped || e) (c :: acc) rest
    | none => if cs.head? = some '\\' then none else some (acc.reverse, escaped, cs)

def occursInName (c : Char) : Bool := Identifier.isPart c || c = '\\' || c = '{' || c = '}'

def name? (cs : List Char) : Option (String × Bool × List Char) := do
  let (c, e, rest) ← nameChar? Identifier.isStart cs
  let size := (rest.takeWhile occursInName).length
  let (text, escaped, rest) ← nameRest (size + 1) e [c] rest
  some (String.ofList text, escaped, rest)

def digits? (isDigit : Char → Bool) (cs : List Char) : Option (List Char × List Char) :=
  let run := cs.takeWhile fun c => isDigit c || c = '_'
  let apart := (run.zip (run.drop 1)).all fun p => p.1 ≠ '_' || p.2 ≠ '_'
  if apart && run.head?.any isDigit && run.getLast?.any isDigit then
    some (run.filter isDigit, cs.drop run.length)
  else none

def endsNumber (cs : List Char) : Bool :=
  match cs with
  | [] => true
  | c :: _ => !(Identifier.isStart c || c.isDigit || c = '\\')

def numberText (digits : List Char) (exponent : Int) : String :=
  (Decimal.mk (ofDigits 10 digits) exponent).compact

def exponent? (cs : List Char) : Option (Int × List Char) :=
  let (isNegative, cs) := match cs with
    | '-' :: rest => (true, rest)
    | '+' :: rest => (false, rest)
    | _ => (false, cs)
  match digits? Char.isDigit cs with
  | none => none
  | some (ds, rest) =>
    let ds := ds.dropWhile (· = '0')
    let n : Nat := if 9 < ds.length then 1000000000 else ofDigits 10 ds
    some (if isNegative then -(n : Int) else n, rest)

def decimalRest (whole : List Char) (cs : List Char) : Option (Token × List Char) := do
  let (fraction, cs) ← match cs with
    | '.' :: rest =>
      if rest.head?.any fun c => c.isDigit || c = '_' then digits? Char.isDigit rest
      else some ([], rest)
    | _ => some ([], cs)
  let (power, cs) ← match cs with
    | 'e' :: rest => exponent? rest
    | 'E' :: rest => exponent? rest
    | _ => some (0, cs)
  if endsNumber cs then
    some (.number (numberText (whole ++ fraction) (power - fraction.length)), cs)
  else none

def bigintText (n : Nat) : String := toString n ++ "n"

def radix? (base : Nat) (isDigit : Char → Bool) (cs : List Char) : Option (Token × List Char) := do
  let (ds, rest) ← digits? isDigit cs
  match rest with
  | 'n' :: rest =>
    if endsNumber rest then some (.bigint (bigintText (ofDigits base ds)), rest) else none
  | _ =>
    if endsNumber rest then
      some (.number (numberText (toString (ofDigits base ds)).toList 0), rest)
    else none

def isOctal (c : Char) : Bool := '0' ≤ c && c ≤ '7'

def isBinary (c : Char) : Bool := c = '0' || c = '1'

def isHex (c : Char) : Bool := (hexValue? c).isSome

/--
Digits after a leading zero: an octal number, unless a digit forbids it. Only then a fraction or a
small `e` may follow.
-/
def zeroLed (cs : List Char) : Option (Token × List Char) :=
  let ds := cs.takeWhile Char.isDigit
  let rest := cs.drop ds.length
  let whole := fun n =>
    if endsNumber rest then some (.number (numberText (toString n).toList 0), rest) else none
  if ds.all isOctal then whole (ofDigits 8 ds)
  else match rest with
    | '.' :: _ => decimalRest ds rest
    | 'e' :: _ => decimalRest ds rest
    | _ => whole (ofDigits 10 ds)

def number? : List Char → Option (Token × List Char)
  | '0' :: 'x' :: cs => radix? 16 isHex cs
  | '0' :: 'X' :: cs => radix? 16 isHex cs
  | '0' :: 'o' :: cs => radix? 8 isOctal cs
  | '0' :: 'O' :: cs => radix? 8 isOctal cs
  | '0' :: 'b' :: cs => radix? 2 isBinary cs
  | '0' :: 'B' :: cs => radix? 2 isBinary cs
  | '.' :: cs => decimalRest [] ('.' :: cs)
  | '0' :: c :: cs =>
    if c.isDigit then zeroLed (c :: cs)
    else match c with
      | 'n' => if endsNumber cs then some (.bigint "0n", cs) else none
      | _ => decimalRest ['0'] (c :: cs)
  | cs => do
    let (ds, rest) ← digits? Char.isDigit cs
    match rest with
    | 'n' :: rest =>
      if endsNumber rest then some (.bigint (bigintText (ofDigits 10 ds)), rest) else none
    | _ => decimalRest ds rest

/-- A character of a string, or half of a surrogate pair that stands alone. -/
inductive Unit16 where
  | char (c : Char)
  | lone (n : Nat)

def unicodeUnit? (cs : List Char) : Option (Unit16 × List Char) := do
  let (n, rest) ← unicodeEscape? cs
  if 0xd800 ≤ n && n ≤ 0xdbff && cs.head? ≠ some '{' then
    match rest with
    | '\\' :: 'u' :: after =>
      match hexDigits? 4 after with
      | some (m, after) =>
        if 0xdc00 ≤ m && m ≤ 0xdfff then
          some (.char (Char.ofNat ((n - 0xd800) * 1024 + (m - 0xdc00) + 0x10000)), after)
        else some (.lone n, rest)
      | none => some (.lone n, rest)
    | _ => some (.lone n, rest)
  else if 0xd800 ≤ n && n ≤ 0xdfff then some (.lone n, rest)
  else some (.char (Char.ofNat n), rest)

def octalEscape (cs : List Char) : Nat × List Char :=
  let most := if cs.head?.any (· ≤ '3') then 3 else 2
  let ds := (cs.take most).takeWhile isOctal
  (ofDigits 8 ds, cs.drop ds.length)

/-- What the characters after a backslash denote; nothing for a line continuation. -/
def escape? : List Char → Option (Option Unit16 × List Char)
  | '\r' :: '\n' :: cs => some (none, cs)
  | 'n' :: cs => some (some (.char '\n'), cs)
  | 't' :: cs => some (some (.char '\t'), cs)
  | 'r' :: cs => some (some (.char '\r'), cs)
  | 'b' :: cs => some (some (.char (Char.ofNat 8)), cs)
  | 'v' :: cs => some (some (.char (Char.ofNat 11)), cs)
  | 'f' :: cs => some (some (.char (Char.ofNat 12)), cs)
  | 'x' :: cs => (hexDigits? 2 cs).map fun (n, rest) => (some (.char (Char.ofNat n)), rest)
  | 'u' :: cs => (unicodeUnit? cs).map fun (u, rest) => (some u, rest)
  | c :: cs =>
    if isLineEnd c then some (none, cs)
    else if isOctal c then
      let (n, rest) := octalEscape (c :: cs)
      some (some (.char (Char.ofNat n)), rest)
    else some (some (.char c), cs)
  | [] => none

def stringUnits (quote : Char) : Nat → List Unit16 → List Char → Option (List Unit16 × List Char)
  | 0, _, _ => none
  | _ + 1, _, [] => none
  | fuel + 1, acc, '\\' :: cs => do
    let (u, rest) ← escape? cs
    stringUnits quote fuel (u.toList ++ acc) rest
  | fuel + 1, acc, c :: cs =>
    if c = quote then some (acc.reverse, cs)
    else if c = '\n' || c = '\r' then none
    else stringUnits quote fuel (.char c :: acc) cs

def fourHex (n : Nat) : List Char :=
  let ds := Nat.toDigits 16 n
  List.replicate (4 - ds.length) '0' ++ ds

def ofUnits (us : List Unit16) : String × Bool :=
  let lone := us.any fun u => match u with
    | .lone _ => true
    | .char _ => false
  let text := us.flatMap fun u => match u with
    | .lone n => Char.ofNat 0xfffd :: fourHex n
    | .char c => if lone && c.toNat = 0xfffd then c :: fourHex 0xfffd else [c]
  (String.ofList text, lone)

def rawString (quote : Char) : List Char → List Char
  | [] => []
  | '\\' :: c :: cs => '\\' :: c :: rawString quote cs
  | c :: cs => if c = quote then [] else c :: rawString quote cs

def string? (quote : Char) (cs : List Char) : Option (Token × List Char) := do
  let (us, rest) ← stringUnits quote ((rawString quote cs).length + 1) [] cs
  let (value, lone) := ofUnits us
  some (.string value lone, rest)

def punct? (cs : List Char) : Option (Token × List Char) :=
  (Token.puncts.find? fun p => startsWith p.toList cs).map fun p =>
    let rest := cs.drop p.length
    if p = "?." && rest.head?.any Char.isDigit then (.punct "?", cs.drop 1) else (.punct p, rest)

def token? : List Char → Option (Token × List Char)
  | [] => some (.eof, [])
  | '{' :: cs => some (.openBrace, cs)
  | '}' :: cs => some (.closeBrace, cs)
  | '\x60' :: cs => some (.backtick, cs)
  | '"' :: cs => string? '"' cs
  | '\'' :: cs => string? '\'' cs
  | '#' :: cs => (name? cs).map fun (text, _, rest) => (.privateName text, rest)
  | c :: cs =>
    if c.isDigit || (c = '.' && cs.head?.any Char.isDigit) then number? (c :: cs)
    else if Identifier.isStart c || c = '\\' then
      (name? (c :: cs)).map fun (text, escaped, rest) => (.name text escaped, rest)
    else punct? (c :: cs)

/-- The body of a regular expression after its opening slash; a slash in a class does not end it. -/
def regexBody : Bool → List Char → List Char → Option (List Char × List Char)
  | _, _, [] => none
  | inClass, acc, '\\' :: c :: cs =>
    if isLineEnd c then none else regexBody inClass (c :: '\\' :: acc) cs
  | inClass, acc, c :: cs =>
    if isLineEnd c then none
    else if c = '/' && !inClass then some (acc.reverse, cs)
    else if c = '[' then regexBody true (c :: acc) cs
    else if c = ']' then regexBody false (c :: acc) cs
    else regexBody inClass (c :: acc) cs

def knownFlags : List Char := "dgimsuvy".toList

def validFlags (cs : List Char) : Bool :=
  cs.all knownFlags.contains && cs.eraseDups.length = cs.length &&
    !(cs.contains 'u' && cs.contains 'v')

def regex? (cs : List Char) : Option (String × String × List Char) := do
  let (body, rest) ← regexBody false [] cs
  let flags := rest.takeWhile Identifier.isPart
  if validFlags flags then
    let sorted := knownFlags.filter flags.contains
    some (String.ofList body, String.ofList sorted, rest.drop flags.length)
  else none

def templateChunk : List Char → List Char → Option (List Char × Bool × List Char)
  | _, [] => none
  | acc, '\x60' :: cs => some (acc.reverse, true, cs)
  | acc, '$' :: '{' :: cs => some (acc.reverse, false, cs)
  | acc, '\\' :: c :: cs => templateChunk (c :: '\\' :: acc) cs
  | acc, c :: cs => templateChunk (c :: acc) cs

def lineFeeds : List Char → List Char
  | [] => []
  | '\r' :: '\n' :: cs => '\n' :: lineFeeds cs
  | '\r' :: cs => '\n' :: lineFeeds cs
  | c :: cs => c :: lineFeeds cs

def validTemplate : Nat → List Char → Bool
  | 0, _ => true
  | _ + 1, [] => true
  | fuel + 1, '\\' :: c :: cs =>
    if c = '0' then !cs.head?.any Char.isDigit && validTemplate fuel cs
    else if c.isDigit then false
    else match escape? (c :: cs) with
      | some (_, rest) => validTemplate fuel rest
      | none => false
  | fuel + 1, _ :: cs => validTemplate fuel cs

end ScriptBundler.Lexer

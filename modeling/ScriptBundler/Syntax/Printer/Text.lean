import ScriptBundler.Syntax.Basic

namespace ScriptBundler.Printer

def startsScriptEnd (cs : List Char) : Bool :=
  (cs.take 7).map Char.toLower = "/script".toList

def stringChar (c : Char) (rest : List Char) : List Char :=
  let n := c.toNat
  if c = '"' then ['\\', '"']
  else if c = '\\' then ['\\', '\\']
  else if c = '\n' then ['\\', 'n']
  else if c = '\r' then ['\\', 'r']
  else if n = 0 then
    if rest.head?.any Char.isDigit then "\\x00".toList else ['\\', '0']
  else if n = 7 then "\\x07".toList
  else if n = 8 then ['\\', 'b']
  else if n = 11 then ['\\', 'v']
  else if n = 12 then ['\\', 'f']
  else if n = 27 then "\\x1B".toList
  else if n = 0xa0 then "\\xA0".toList
  else if n = 0x2028 then "\\u2028".toList
  else if n = 0x2029 then "\\u2029".toList
  else if c = '<' && startsScriptEnd rest then ['<', '\\']
  else [c]

/--
The characters of a literal. In a text with lone surrogates, U+FFFD and four digits spell one,
unless the digits are its own.
-/
def stringChars : Bool → List Char → List Char
  | _, [] => []
  | true, '\ufffd' :: a :: b :: c :: d :: rest =>
    if [a, b, c, d] = "fffd".toList then '\ufffd' :: stringChars true rest
    else '\\' :: 'u' :: a :: b :: c :: d :: stringChars true rest
  | lone, c :: rest => stringChar c rest ++ stringChars lone rest

def stringText (value : String) (lone : Bool) : String :=
  String.ofList ('"' :: stringChars lone value.toList ++ ['"'])

/-- The first quote in a text that no backslash precedes. -/
def firstQuote : List Char → Option Char
  | [] => none
  | '\\' :: _ :: cs => firstQuote cs
  | c :: cs => if c = '"' || c = '\'' then some c else firstQuote cs

/-- A directive as written, in double quotes unless the first quote in it is one. -/
def directiveText (raw : String) : String :=
  let quote := if firstQuote raw.toList = some '"' then "'" else "\""
  quote ++ raw ++ quote

def indentation (n : Nat) : String := String.ofList (List.replicate n '\t')

def breakScriptEnds : List Char → List Char
  | [] => []
  | c :: cs =>
    if c = '<' && startsScriptEnd cs then '<' :: '\\' :: breakScriptEnds cs
    else c :: breakScriptEnds cs

def withoutScriptEnds (s : String) : String := String.ofList (breakScriptEnds s.toList)

def VarKind.word : VarKind → String
  | .constKind => "const"
  | .letKind => "let"
  | .varKind => "var"
  | .usingKind => "using"
  | .awaitUsingKind => "await using"

def unaryText : UnaryOp → String
  | .minus => "-"
  | .plus => "+"
  | .not => "!"
  | .bitNot => "~"
  | .typeOf => "typeof "
  | .voidOf => "void "
  | .delete => "delete "

def updateText : UpdateOp → String
  | .increment => "++"
  | .decrement => "--"

def binaryText : BinaryOp → String × Nat
  | .coalesce => ("??", 6)
  | .or => ("||", 7)
  | .and => ("&&", 8)
  | .bitOr => ("|", 9)
  | .bitXor => ("^", 10)
  | .bitAnd => ("&", 11)
  | .eq => ("==", 12)
  | .ne => ("!=", 12)
  | .strictEq => ("===", 12)
  | .strictNe => ("!==", 12)
  | .lt => ("<", 13)
  | .le => ("<=", 13)
  | .gt => (">", 13)
  | .ge => (">=", 13)
  | .inOf => ("in", 13)
  | .instanceOf => ("instanceof", 13)
  | .shiftLeft => ("<<", 14)
  | .shiftRight => (">>", 14)
  | .shiftRightZero => (">>>", 14)
  | .add => ("+", 15)
  | .sub => ("-", 15)
  | .mul => ("*", 16)
  | .div => ("/", 16)
  | .rem => ("%", 16)
  | .exp => ("**", 17)

def words (ws : List String) : String := String.join (ws.map (· ++ " "))

def openBrace : String := "\x7b"

def closeBrace : String := "\x7d"

def spacedBraces (items : List String) : String :=
  if items.isEmpty then openBrace ++ closeBrace
  else openBrace ++ " " ++ ", ".intercalate items ++ " " ++ closeBrace

def moduleNameText : ModuleName → String
  | .ident name => name
  | .string value => stringText value false

def attributesText : Option ImportAttributes → String
  | none => ""
  | some a =>
    " " ++ a.keyword ++ " " ++
      spacedBraces (a.entries.map fun (k, v) => moduleNameText k ++ ": " ++ stringText v false)

def importNamedText (imported : ModuleName) (localName : String) : String :=
  moduleNameText imported ++ if imported.text = localName then "" else " as " ++ localName

def importSpecifiersText (specifiers : List ImportSpecifier) : String :=
  let outside := specifiers.filterMap fun s => match s with
    | .default n => some n
    | .star n => some ("* as " ++ n)
    | .named _ _ => none
  let inside := specifiers.filterMap fun s => match s with
    | .named i n => some (importNamedText i n)
    | _ => none
  let braces := if inside.isEmpty && !outside.isEmpty then [] else [spacedBraces inside]
  ", ".intercalate (outside ++ braces)

def importText (d : ImportDecl) : String :=
  let phase := match d.phase with
    | none => ""
    | some .source => " source"
    | some .defer => " defer"
  let specifiers := match d.specifiers with
    | none => " "
    | some ss => " " ++ importSpecifiersText ss ++ " from "
  "import" ++ phase ++ specifiers ++ stringText d.source false ++ attributesText d.attributes

def exportSpecifierText (s : ExportSpecifier) : String :=
  if s.localName.text = s.exported.text then moduleNameText s.localName
  else moduleNameText s.localName ++ " as " ++ moduleNameText s.exported

def sourceText (source : String) (attributes : Option ImportAttributes) : String :=
  " from " ++ stringText source false ++ attributesText attributes

end ScriptBundler.Printer

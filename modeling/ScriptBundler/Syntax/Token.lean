
namespace ScriptBundler

/--
The next piece of a text. Keywords are names; a name that was spelled with an escape is never one.
A slash is always an operator here, and a template only shows its opening mark: what follows either
is read once the grammar knows which one it wants.
-/
inductive Token where
  | eof
  | name (text : String) (isEscaped : Bool)
  | privateName (text : String)
  | openBrace
  | closeBrace
  | backtick
  | punct (text : String)
  | number (text : String)
  | bigint (text : String)
  | string (value : String) (lone : Bool)
  deriving DecidableEq, Repr, Inhabited

namespace Token

def reserved : List String :=
  ["break", "case", "catch", "class", "const", "continue", "debugger", "default", "delete", "do",
    "else", "enum", "export", "extends", "false", "finally", "for", "function", "if", "import",
    "in", "instanceof", "new", "null", "return", "super", "switch", "this", "throw", "true", "try",
    "typeof", "var", "void", "while", "with"]

def futureReserved : List String :=
  ["await", "implements", "interface", "package", "private", "protected", "public", "static",
    "yield"]

def isReserved (s : String) : Bool := reserved.contains s

def assignments : List (String × Option String) :=
  [("=", none), ("+=", some "+"), ("-=", some "-"), ("*=", some "*"), ("/=", some "/"),
    ("%=", some "%"), ("**=", some "**"), ("<<=", some "<<"), (">>=", some ">>"),
    (">>>=", some ">>>"), ("&=", some "&"), ("|=", some "|"), ("^=", some "^"),
    ("&&=", some "&&"), ("||=", some "||"), ("??=", some "??")]

def puncts : List String :=
  [">>>=", "...", "===", "!==", "**=", "<<=", ">>=", ">>>", "&&=", "||=", "??=", "=>", "==", "!=",
    "<=", ">=", "&&", "||", "??", "?.", "++", "--", "+=", "-=", "*=", "/=", "%=", "&=", "|=", "^=",
    "<<", ">>", "**", "(", ")", "[", "]", ";", ",", "<", ">", "+", "-", "*", "/", "%", "&", "|",
    "^", "!", "~", "?", ":", "=", ".", "@"]

end Token

end ScriptBundler

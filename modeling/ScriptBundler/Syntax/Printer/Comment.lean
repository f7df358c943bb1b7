import ScriptBundler.Syntax.Printer.Text

namespace ScriptBundler.Printer

def textLines : List Char → List (List Char)
  | [] => [[]]
  | c :: cs =>
    if c = '\n' || c = '\r' || c = '\u2028' || c = '\u2029' then [] :: textLines cs
    else match textLines cs with
      | [] => [[c]]
      | l :: ls => (c :: l) :: ls

def isSpace (c : Char) : Bool :=
  let n := c.toNat
  (9 ≤ n && n ≤ 13) || n = 32 || n = 0x85 || n = 0xa0 || n = 0x1680 ||
    (0x2000 ≤ n && n ≤ 0x200a) || n = 0x2028 || n = 0x2029 || n = 0x202f || n = 0x205f ||
    n = 0x3000

def commentText (indent : Nat) (c : Comment) : String :=
  match textLines c.text.toList with
  | [] => ""
  | first :: rest =>
    String.ofList (breakScriptEnds first) ++ String.join (rest.map fun l =>
      "\n" ++ indentation indent ++ String.ofList (breakScriptEnds (l.dropWhile isSpace)))

def commentLines (indent : Nat) (cs : List Comment) : String :=
  String.join (cs.map fun c => "\n" ++ indentation indent ++ commentText indent c)

def isLegal (c : Comment) : Bool :=
  (c.text.toList.drop 2).head? = some '!' || (c.text.splitOn "@license").length > 1 ||
    (c.text.splitOn "@preserve").length > 1

def commentsText (indent : Nat) (rest : Option String) : List Comment → String
  | [] => rest.getD ""
  | c :: cs =>
    let gap := match cs with
      | [] =>
        if c.isLine || c.endsLine then "\n" ++ (if rest.isSome then indentation indent else "")
        else if rest.isSome then " " else ""
      | next :: _ =>
        if next.startsLine then "\n" ++ indentation indent else if isLegal next then "\n" else ""
    commentText indent c ++ gap ++ commentsText indent rest cs

/--
Stands where a blank is held back: the line that begins next begins with it, and not with tabs. This
is a noncharacter, which is not meant for texts that are interchanged.
-/
def heldBlank : String := String.singleton (Char.ofNat 0x10fffe)

def releaseLines (isHeld : Bool) : List String → List String
  | [] => []
  | line :: rest =>
    let parts := line.splitOn heldBlank
    let text := String.join parts
    let start := if isHeld && !(text.isEmpty && rest.isEmpty) then
        " " ++ String.ofList (text.toList.dropWhile (· = '\t'))
      else text
    start :: releaseLines (parts.length > 1) rest

def releaseBlanks (text : String) : String :=
  "\n".intercalate (releaseLines false (text.splitOn "\n"))

end ScriptBundler.Printer

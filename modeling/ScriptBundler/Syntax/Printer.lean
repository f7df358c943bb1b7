import ScriptBundler.Syntax.Printer.Comment
import ScriptBundler.Syntax.Purity

namespace ScriptBundler.Printer

/-- Where an expression begins, when that makes a difference to how it may begin. -/
inductive Lead where
  | none
  | statement
  | arrowBody
  | exportDefault
  deriving DecidableEq

/--
What surrounds an expression or statement. What a place forbids is forbidden further in as well, in
the bodies of functions and classes too, up to where brackets or a statement start anew.
-/
structure Place where
  indent : Nat
  lead : Lead := .none
  forbidIn : Bool := false
  forbidCall : Bool := false

namespace Place

/-- The same nesting, with nothing special about the place. -/
def plain (c : Place) : Place := { indent := c.indent }

/-- The same nesting, with nothing special but where the expression begins. -/
def leading (c : Place) : Place := { indent := c.indent, lead := c.lead }

def inner (c : Place) : Place := { c with lead := .none }

/-- The same place, where calls are no matter. -/
def withCalls (c : Place) : Place := { c with forbidCall := false }

/-- The same place, where `in` is no matter. -/
def withIn (c : Place) : Place := { c with forbidIn := false }

def deeper (c : Place) : Place := { c.inner with indent := c.indent + 1 }

end Place

def parens (b : Bool) (s : String) : String := if b then "(" ++ s ++ ")" else s

def inParens (b : Bool) (c : Place) : Place := if b then c.inner else c

def isDigits (s : String) : Bool := !s.isEmpty && s.toList.all Char.isDigit

def prefixed (op operand : String) : String :=
  if (op = "-" && operand.startsWith "-") || (op = "+" && operand.startsWith "+") then
    op ++ " " ++ operand
  else op ++ operand

def brackets (indent : Nat) (items : List String) : String :=
  let last := if items.getLast? = some "" then "," else ""
  if items.length > 2 then
    let line := "\n" ++ indentation (indent + 1)
    "[" ++ line ++ ("," ++ line).intercalate items ++ last ++ "\n" ++ indentation indent ++ "]"
  else "[" ++ ", ".intercalate items ++ last ++ "]"

def objectBraces (indent : Nat) (items : List String) : String :=
  if items.length > 1 then
    let line := "\n" ++ indentation (indent + 1)
    openBrace ++ line ++ ("," ++ line).intercalate items ++ "\n" ++ indentation indent ++ closeBrace
  else spacedBraces items

def block (indent : Nat) (lines : String) : String :=
  if lines.isEmpty then openBrace ++ closeBrace
  else openBrace ++ "\n" ++ lines ++ indentation indent ++ closeBrace

/-- The comments in a body without statements, if no line ends beside them. -/
def loneComments? : List String → List Stmt → Option (List Comment)
  | [], [.commented cs none] =>
    if cs.any fun c => c.startsLine || c.endsLine then none else some cs
  | _, _ => none

def endsInComment (ss : List Stmt) : Bool :=
  match ss.getLast? with
  | some (.commented cs none) => cs.getLast?.any fun c => !c.endsLine
  | _ => false

/-- The body of a function in braces, given its lines. A comment alone holds a blank back. -/
def functionBlock (indent : Nat) (directives : List String) (ss : List Stmt) (lines : String) :
    String :=
  match loneComments? directives ss with
  | some cs =>
    openBrace ++ indentation indent ++ String.join (cs.map (commentText indent)) ++ heldBlank ++
      closeBrace
  | none =>
    if endsInComment ss then openBrace ++ "\n" ++ lines ++ " " ++ closeBrace
    else block indent lines

def templateText (quasis : List String) (values : List String) : String :=
  let rec go : List String → List String → String
    | q :: qs, v :: vs => withoutScriptEnds q ++ "$" ++ openBrace ++ v ++ closeBrace ++ go qs vs
    | [q], [] => withoutScriptEnds q
    | _, _ => ""
  "\x60" ++ go quasis values ++ "\x60"

def isDecoratorName : Expr → Bool
  | .ident _ => true
  | .member _ _ _ => true
  | .privateMember _ _ _ => true
  | .call callee _ _ _ => isDecoratorName callee
  | _ => false

def bare : Expr → Expr
  | .paren e => bare e
  | e => e

def endsInOpenIf : Stmt → Bool
  | .ifElse _ _ none => true
  | .ifElse _ _ (some s) => endsInOpenIf s
  | .forLoop _ _ _ s => endsInOpenIf s
  | .forIn _ _ s => endsInOpenIf s
  | .forOf _ _ _ s => endsInOpenIf s
  | .whileLoop _ s => endsInOpenIf s
  | .withObject _ s => endsInOpenIf s
  | .labeled _ s => endsInOpenIf s
  | .commented _ (some s) => endsInOpenIf s
  | _ => false

def isObjectPattern : Pattern → Bool
  | .object _ => true
  | _ => false

def isLogical (op : BinaryOp) : Bool := op = .and || op = .or || op = .coalesce

def leftLevel (op : BinaryOp) (left : Expr) : Nat :=
  match op, bare left with
  | _, .privateIn _ _ => 0
  | .coalesce, .binary .or _ _ => 18
  | .coalesce, .binary .and _ _ => 18
  | .exp, .unary _ _ => 21
  | .exp, _ => 17
  | _, _ => (binaryText op).2 - 1

def rightLevel (op : BinaryOp) (right : Expr) : Nat :=
  match op, bare right with
  | .coalesce, .binary .or _ _ => 18
  | .coalesce, .binary .and _ _ => 18
  | .exp, _ => 16
  | _, _ => if isLogical op then (binaryText op).2 - 1 else (binaryText op).2

/-- Whether a property whose value is a name is written as the name alone. -/
def isShort (name : String) (isShorthand : Bool) (value : Expr) : Bool :=
  if name = "__proto__" then isShorthand
  else match bare value with
    | .ident n => n = name
    | _ => false

def shortName? : Key → Option String
  | .ident name => some name
  | _ => none

def functionMark (isPure : Bool) (gap : String) : String :=
  if isPure then "/* @__NO_SIDE_EFFECTS__ */" ++ gap else ""

def isCommented : Expr → Bool
  | .commented _ _ => true
  | _ => false

def argumentList (texts : List String) : String := "(" ++ ", ".intercalate texts ++ ")"

def argumentBlock (indent : Nat) (lines : String) : String :=
  "(" ++ lines ++ "\n" ++ indentation indent ++ ")"

/-- Where the callee of a call begins. After a mark of purity an arrow's body has begun already. -/
def calleeLead (isPure : Bool) (lead : Lead) : Lead :=
  if isPure && lead = .arrowBody then .none else lead

def looksLikeDirective : Stmt → Bool
  | .expr e => match bare e with
    | .string _ _ => true
    | _ => false
  | _ => false

def parenthesized (text : String) : String :=
  "(" ++ String.ofList text.toList.dropLast.dropLast ++ ");\n"

def directiveLines (indent : Nat) (directives : List String) : String :=
  String.join (directives.map fun d => indentation indent ++ directiveText d ++ ";\n")

/-- A property of an object pattern; what is bound alone, if that is the property's name. -/
def boundProperty (keyText : String) (short : Option String) (p : Pattern) (text : String) :
    String :=
  let isShort : Bool := match p with
    | .name n => short = some n
    | .withDefault (.name n) _ => short = some n
    | _ => false
  if isShort then text else keyText ++ ": " ++ text

def attached (s : Stmt) (text : String) : String :=
  match s with
  | .empty => ";\n"
  | .commented (c :: _) _ => (if c.startsLine then "\n " else " ") ++ text
  | _ => " " ++ text

mutual

def expr (c : Place) (level : Nat) : Expr → String
  | .ident name => name
  | .thisValue => "this"
  | .superValue => "super"
  | .null => "null"
  | .bool true => "true"
  | .bool false => "false"
  | .number text => text
  | .bigint text => text
  | .string value lone => stringText value lone
  | .regex pattern flags => "/" ++ pattern ++ "/" ++ flags
  | .template quasis values => templateText quasis (exprs c.plain 0 values)
  | .taggedTemplate tag quasis values =>
    expr c.leading 19 tag ++ templateText quasis (exprs c.plain 0 values)
  | .array items _ =>
    brackets c.indent (exprs (if items.length > 2 then c.plain.deeper else c.plain) 1 items)
  | .spread value => "..." ++ expr c.plain 1 value
  | .hole => ""
  | .object ps =>
    parens (c.lead = .statement || c.lead = .arrowBody)
      (objectBraces c.indent (properties (if ps.length > 1 then c.deeper else c.inner) ps))
  | .function f =>
    parens (!f.isPure && (c.lead = .statement || c.lead = .exportDefault))
      (functionMark f.isPure " " ++ function c.inner f)
  | .arrow isAsync isPure params value =>
    parens (level ≥ 4)
      (functionMark isPure " " ++ (if isAsync then "async (" else "(") ++
        parameters c.indent params ++ ") => " ++ expr { c with lead := .arrowBody } 1 value)
  | .arrowBlock isAsync isPure params directives ss =>
    parens (level ≥ 4)
      (functionMark isPure " " ++ (if isAsync then "async (" else "(") ++
        parameters c.indent params ++ ") => " ++
        functionBlock c.indent directives ss (body c.deeper directives ss))
  | .classExpr k =>
    parens (c.lead = .statement || c.lead = .exportDefault) (classText c.inner k)
  | .unary .delete (.number "Infinity") => parens (level ≥ 18) "delete (0, Infinity)"
  | .unary op operand =>
    parens (level ≥ 18) (prefixed (unaryText op) (expr c.inner 17 operand))
  | .update op true target =>
    parens (level ≥ 18) (prefixed (updateText op) (assigned c.inner 18 target))
  | .update op false target =>
    parens (level ≥ 19) (assigned (inParens (level ≥ 19) c) 19 target ++ updateText op)
  | .binary op left right =>
    let (text, own) := binaryText op
    let wrap := level ≥ own || (op = .inOf && c.forbidIn)
    let d := if wrap then c.inner.withIn else c
    parens wrap
      (expr d (leftLevel op left) left ++ " " ++ text ++ " " ++
        expr d.inner (rightLevel op right) right)
  | .privateIn name object =>
    parens (level ≥ 13) ("#" ++ name ++ " in " ++ expr { c.plain with forbidIn := true } 12 object)
  | .conditional test consequent alternate =>
    let wrap := level ≥ 5
    let d := if wrap then c.plain else c.withCalls
    parens wrap
      (expr d 5 test ++ " ? " ++ expr c.plain 3 consequent ++ " : " ++ expr d.inner 3 alternate)
  | .assign op target value =>
    let isLead := c.lead = .statement || c.lead = .arrowBody
    let wrap := level ≥ 4 || (isLead && isObjectPattern target)
    let sign := match op with
      | some op => (binaryText op).1 ++ "="
      | none => "="
    parens wrap
      (assigned (inParens wrap c.leading) 0 target ++ " " ++ sign ++ " " ++ expr c.inner 1 value)
  | .sequence items =>
    let wrap := level ≥ 1
    parens wrap (sequence (inParens wrap c.withCalls) items)
  | .member object property isOptional =>
    let base := expr c.withIn 19 object
    let dot := if isOptional then "?." else if isDigits base then " ." else "."
    base ++ dot ++ property
  | .index object property isOptional =>
    let base := expr c.withIn 19 object
    let dot := if isOptional then "?." else ""
    parens (base = "let") base ++ dot ++ "[" ++ expr c.plain 0 property ++ "]"
  | .privateMember object name isOptional =>
    let base := expr c.withIn 19 object
    base ++ (if isOptional then "?.#" else ".#") ++ name
  | .call callee args isOptional isPure =>
    parens (level ≥ 20 || c.forbidCall || (isPure && level ≥ 19))
      ((if isPure then "/* @__PURE__ */ " else "") ++
        expr { c.plain with lead := calleeLead isPure c.lead } 19 callee ++
        (if isOptional then "?." else "") ++
        if args.any isCommented then
          argumentBlock c.indent (argumentLines c.plain.deeper true true args)
        else argumentList (exprs c.plain 1 args))
  | .new callee args isPure =>
    parens (level ≥ 22 || (isPure && level ≥ 19))
      ((if isPure then "/* @__PURE__ */ " else "") ++ "new " ++
        expr { c.plain with forbidCall := true } 20 callee ++
        if args.any isCommented then
          argumentBlock c.indent (argumentLines c.plain.deeper true true args)
        else argumentList (exprs c.plain 1 args))
  | .chain element =>
    parens (level ≥ 19) (expr c level element)
  | .importCall phase args =>
    let word := match phase with
      | none => "import"
      | some .source => "importsource"
      | some .defer => "importdefer"
    parens (level ≥ 20 || c.forbidCall) (word ++
        if args.any isCommented then
          argumentBlock 0 (argumentLines c.plain.deeper false true args)
        else argumentList (exprs c.plain 1 args))
  | .importMeta => "import.meta"
  | .newTarget => "new.target"
  | .await operand => parens (level ≥ 18) ("await " ++ expr c.inner 17 operand)
  | .yield value => parens (level ≥ 4) ("yield" ++ optional c.inner " " 3 value)
  | .yieldAll source => parens (level ≥ 4) ("yield* " ++ expr c.inner 3 source)
  | .paren inner => expr c level inner
  | .commented _ value => optional c "" level value

def optional (c : Place) (before : String) (level : Nat) : Option Expr → String
  | none => ""
  | some e => before ++ expr c level e

def exprs (c : Place) (level : Nat) : List Expr → List String
  | [] => []
  | e :: es => expr c level e :: exprs c level es

/-- Expressions with commas between them; only the first one stands at the left end. -/
def sequence (c : Place) : List Expr → String
  | [] => ""
  | [e] => expr c 0 e
  | e :: es => expr c 0 e ++ ", " ++ sequence c.inner es

/--
Arguments one a line with the comments before them. If not all are to be shown, only comments before
the first one and behind the last one are.
-/
def argumentLines (c : Place) (showsAll isFirst : Bool) : List Expr → String
  | [] => ""
  | .commented cs none :: _ => commentLines c.indent cs
  | .commented cs (some e) :: es =>
    (if isFirst then "" else ",") ++
      (if showsAll || isFirst then commentLines c.indent cs else "") ++
      "\n" ++ indentation c.indent ++ expr c 1 e ++ argumentLines c showsAll false es
  | e :: es =>
    (if isFirst then "" else ",") ++ "\n" ++ indentation c.indent ++ expr c 1 e ++
      argumentLines c showsAll false es

def key (c : Place) : Key → String
  | .ident name => name
  | .string value lone => stringText value lone
  | .number text => text
  | .bigint text => text
  | .privateName name => "#" ++ name
  | .computed e => "[" ++ expr c.plain 1 e ++ "]"

def properties (c : Place) : List Property → List String
  | [] => []
  | p :: ps => property c p :: properties c ps

def property (c : Place) : Property → String
  | .keyValue (.ident name) isShorthand value =>
    let text := expr c.plain 1 value
    if isShort name isShorthand value then text else name ++ ": " ++ text
  | .keyValue (.number "Infinity") _ value => "[Infinity]: " ++ expr c.plain 1 value
  | .keyValue k _ value => key c k ++ ": " ++ expr c.plain 1 value
  | .method kind k f => method c kind (key c k) f
  | .spread value => "..." ++ expr c.plain 1 value

def method (c : Place) (kind : MethodKind) (name : String) : Function → String
  | .mk isAsync isGenerator _ _ params directives ss =>
    let start := match kind with
      | .getter => "get "
      | .setter => "set "
      | .method => ""
    start ++ (if isAsync then "async " else "") ++ (if isGenerator then "*" else "") ++ name ++
      "(" ++ parameters c.indent params ++ ") " ++
      functionBlock c.indent directives ss (body c.deeper directives ss)

def assigned (c : Place) (level : Nat) : Pattern → String
  | .name name => name
  | .target m => expr c level m
  | .object ps => openBrace ++ assignedProperties c.plain true ps ++ closeBrace
  | .array items => "[" ++ assignedItems c.plain true items ++ "]"
  | .withDefault p value => assigned c.plain 0 p ++ " = " ++ expr c.plain 1 value
  | .rest p => "..." ++ assigned c.plain 0 p
  | .hole => ""

def assignedItems (c : Place) (isFirst : Bool) : List Pattern → String
  | [] => ""
  | [.hole] => if isFirst then "," else ", ,"
  | p :: ps => (if isFirst then "" else ", ") ++ assigned c 0 p ++ assignedItems c false ps

def assignedProperties (c : Place) (isFirst : Bool) : List PatternProperty → String
  | [] => ""
  | p :: ps =>
    (if isFirst then "" else ", ") ++ assignedProperty c p ++ assignedProperties c false ps

def assignedProperty (c : Place) : PatternProperty → String
  | .keyed k isShorthand p =>
    if isShorthand then assigned c 0 p else key c k ++ ": " ++ assigned c 0 p
  | .rest p => "..." ++ assigned c 0 p

def binding (c : Place) : Pattern → String
  | .name name => name
  | .target m => expr c.plain 0 m
  | .object ps =>
    if ps.isEmpty then openBrace ++ closeBrace
    else openBrace ++ " " ++ boundProperties c.plain true ps ++ " " ++ closeBrace
  | .array items => "[" ++ boundItems c.plain true items ++ "]"
  | .withDefault p value => binding c p ++ " = " ++ expr c.plain 1 value
  | .rest p => "..." ++ binding c p
  | .hole => ""

def boundItems (c : Place) (isFirst : Bool) : List Pattern → String
  | [] => ""
  | .rest p :: ps =>
    (if isFirst then " " else ", ") ++ "..." ++ binding c p ++ boundItems c false ps
  | [.hole] => if isFirst then "," else ", ,"
  | p :: ps => (if isFirst then "" else ", ") ++ binding c p ++ boundItems c false ps

def boundProperties (c : Place) (isFirst : Bool) : List PatternProperty → String
  | [] => ""
  | .rest p :: ps =>
    (if isFirst then "" else ",") ++ "..." ++ binding c p ++ boundProperties c false ps
  | .keyed k _ p :: ps =>
    (if isFirst then "" else ", ") ++
      boundProperty (key c k) (shortName? k) p (binding c p) ++
      boundProperties c false ps

def parameters (indent : Nat) : List Pattern → String
  | [] => ""
  | [p] => binding { indent := indent } p
  | p :: ps => binding { indent := indent } p ++ ", " ++ parameters indent ps

def function (c : Place) : Function → String
  | .mk isAsync isGenerator _ name params directives ss =>
    let start :=
      (if isAsync then "async function" else "function") ++ if isGenerator then "*" else ""
    let named := match name with
      | some n => " " ++ n
      | none => if isGenerator then " " else ""
    start ++ named ++ "(" ++ parameters c.indent params ++ ") " ++
      functionBlock c.indent directives ss (body c.deeper directives ss)

def decorators (c : Place) : List Expr → String
  | [] => ""
  | d :: ds =>
    "@" ++ parens (!isDecoratorName d) (expr c.plain 0 d) ++ " " ++ decorators c ds

def classText (c : Place) : Class → String
  | .mk ds types name parent members =>
    let named := match name with
      | some n => " " ++ n
      | none => ""
    let implemented := if types.implemented.isEmpty then ""
      else " implements " ++ ", ".intercalate types.implemented
    decorators c ds ++ words types.modifiers ++ "class" ++ named ++
      optional c.plain " extends " 19 parent ++ types.arguments ++ implemented ++ " " ++
      block c.indent (memberLines c.deeper members)

def memberLines (c : Place) : List Member → String
  | [] => ""
  | .commented cs m :: ms =>
    indentation c.indent ++ commentsText c.indent (some (member c m)) cs ++ "\n" ++ memberLines c ms
  | m :: ms => indentation c.indent ++ member c m ++ "\n" ++ memberLines c ms

def member (c : Place) : Member → String
  | .method ds modifiers kind k mark f =>
    decorators c ds ++ words modifiers ++ method c kind (key c k ++ mark) f
  | .field ds modifiers k mark value =>
    decorators c ds ++ words modifiers ++ key c k ++ mark ++ optional c.plain " = " 1 value ++ ";"
  | .staticBlock ss => "static " ++ block c.indent (lines c.deeper ss)
  | .commented _ m => member c m

def body (c : Place) (directives : List String) : List Stmt → String
  | [] => directiveLines c.indent directives
  | .commented cs (some s) :: ss =>
    directiveLines c.indent directives ++
      (if directives.isEmpty && looksLikeDirective s then parenthesized (stmt c s)
        else indentation c.indent ++ commentsText c.indent (some (stmt c s)) cs) ++
      lines c ss
  | s :: ss =>
    directiveLines c.indent directives ++
      (if directives.isEmpty && looksLikeDirective s then parenthesized (stmt c s)
        else indentation c.indent ++ stmt c s) ++
      lines c ss

def lines (c : Place) : List Stmt → String
  | [] => ""
  | s :: ss => indentation c.indent ++ stmt c s ++ lines c ss

def declarator (c : Place) : Declarator → String
  | .mk p value => binding c.plain p ++ optional c " = " 1 value

def declarators (c : Place) : List Declarator → String
  | [] => ""
  | [d] => declarator c d
  | d :: ds => declarator c d ++ ", " ++ declarators c ds

def decl (c : Place) : Decl → String
  | .vars kind ds => VarKind.word kind ++ " " ++ declarators c ds ++ ";\n"
  | .function f => function c f ++ "\n"
  | .classDef k => classText c k ++ "\n"
  | .typeOnly text => text ++ "\n"
  | .namespaceBlock keyword name directives ss =>
    keyword ++ " " ++ name ++ " " ++ block c.indent (body c.deeper directives ss) ++ "\n"

def forHead (c : Place) : ForHead → String
  | .none => ""
  | .vars kind ds => VarKind.word kind ++ " " ++ declarators { c.plain with forbidIn := true } ds
  | .expr e => expr { c.plain with forbidIn := true } 0 e
  | .target (.name "async") => "(async)"
  | .target p => assigned { c.plain with forbidIn := true } 0 p

def caseLines (c : Place) : List Case → String
  | [] => ""
  | .mk test ss :: cases =>
    let label := match test with
      | some e => "case " ++ expr c.plain 0 e
      | none => "default"
    indentation c.indent ++ label ++ ":" ++ caseBody c ss ++ caseLines c cases

def caseBody (c : Place) : List Stmt → String
  | [] => "\n"
  | [s] => attached s (stmt c s)
  | s :: ss => "\n" ++ indentation (c.indent + 1) ++ stmt c.deeper s ++ lines c.deeper ss

def stmt (c : Place) : Stmt → String
  | .empty => ";\n"
  | .expr (.ident "let") => "let;"
  | .expr e => expr { c.plain with lead := .statement } 0 e ++ ";\n"
  | .decl (.function f) =>
    functionMark f.isPure ("\n" ++ indentation c.indent) ++ function c f ++ "\n"
  | .decl d => decl c d
  | .block ss => block c.indent (lines c.deeper ss) ++ "\n"
  | .ifElse test (.block ss) alternate =>
    "if (" ++ expr c.plain 0 test ++ ") " ++ block c.indent (lines c.deeper ss) ++
      match alternate with
      | some s => " else" ++ attached s (stmt c s)
      | none => "\n"
  | .ifElse test consequent alternate =>
    let head := "if (" ++ expr c.plain 0 test ++ ")"
    if endsInOpenIf consequent then
      head ++ " " ++ block c.indent (indentation (c.indent + 1) ++ stmt c.deeper consequent) ++
        match alternate with
        | some s => " else" ++ attached s (stmt c s)
        | none => "\n"
    else
      head ++ attached consequent (stmt c consequent) ++
        match alternate with
        | some s => indentation c.indent ++ "else" ++ attached s (stmt c s)
        | none => ""
  | .whileLoop test s => "while (" ++ expr c.plain 0 test ++ ")" ++ attached s (stmt c s)
  | .doWhile (.block ss) test =>
    "do " ++ block c.indent (lines c.deeper ss) ++ " while (" ++ expr c.plain 0 test ++ ");\n"
  | .doWhile .empty test =>
    "do" ++ indentation c.indent ++ ";\nwhile (" ++ expr c.plain 0 test ++ ");\n"
  | .doWhile s test =>
    "do\n" ++ indentation (c.indent + 1) ++ stmt c.deeper s ++ indentation c.indent ++ "while (" ++
      expr c.plain 0 test ++ ");\n"
  | .forLoop init test update s =>
    "for (" ++ forHead c init ++ ";" ++ optional c.plain " " 0 test ++ ";" ++
      optional c.plain " " 0 update ++ ")" ++ attached s (stmt c s)
  | .forIn left right s =>
    "for (" ++ forHead c left ++ " in " ++ expr c.plain 0 right ++ ")" ++ attached s (stmt c s)
  | .forOf isAwait left right s =>
    (if isAwait then "for await (" else "for (") ++ forHead c left ++ " of " ++
      expr c.plain 1 right ++ ")" ++ attached s (stmt c s)
  | .switch discriminant cases =>
    "switch (" ++ expr c.plain 0 discriminant ++ ") " ++
      block c.indent (caseLines c.deeper cases) ++ "\n"
  | .tryCatch ss handler finalizer =>
    let caught := match handler with
      | some (some p, ss) =>
        " catch (" ++ binding c.plain p ++ ") " ++ block c.indent (lines c.deeper ss)
      | some (none, ss) => " catch " ++ block c.indent (lines c.deeper ss)
      | none => ""
    let last := match finalizer with
      | some ss => " finally " ++ block c.indent (lines c.deeper ss)
      | none => ""
    "try " ++ block c.indent (lines c.deeper ss) ++ caught ++ last ++ "\n"
  | .throwValue e => "throw " ++ expr c.plain 0 e ++ ";\n"
  | .returnValue e => "return" ++ optional c.plain " " 0 e ++ ";\n"
  | .breakTo label => "break" ++ (label.map (" " ++ ·)).getD "" ++ ";\n"
  | .continueTo label => "continue" ++ (label.map (" " ++ ·)).getD "" ++ ";\n"
  | .labeled label s => label ++ ":" ++ attached s (stmt c s)
  | .withObject object s => "with(" ++ expr c.plain 0 object ++ ")" ++ attached s (stmt c s)
  | .debugger => "debugger;\n"
  | .importDecl d => importText d ++ ";\n"
  | .exportDecl (.function f) =>
    functionMark f.isPure "\n" ++ "export " ++ function c f ++ "\n"
  | .exportDecl d => "export " ++ decl c d
  | .exportNames specifiers source =>
    "export " ++ spacedBraces (specifiers.map exportSpecifierText) ++
      (match source with
        | some source => sourceText source none
        | none => "") ++ ";\n"
  | .exportAll exported source attributes =>
    "export *" ++ (match exported with
      | some name => " as " ++ moduleNameText name
      | none => "") ++ sourceText source attributes ++ ";\n"
  | .exportDefaultFunction f =>
    functionMark f.isPure "\n" ++ "export default " ++ function c f ++ "\n"
  | .exportDefaultClass k => "export default " ++ classText c k ++ "\n"
  | .exportDefault e =>
    "export default " ++ expr { c.plain with lead := .exportDefault } 1 e ++ ";\n"
  | .commented cs (some s) => commentsText c.indent (some (stmt c s)) cs
  | .commented cs none => commentsText c.indent none cs

end

end ScriptBundler.Printer

namespace ScriptBundler

def Program.print (p : Program) : String :=
  let text := (p.hashbang.map fun line => "#!" ++ line ++ "\n").getD "" ++
    Printer.body { indent := 0 } p.directives p.body ++ Printer.commentsText 0 none p.trailing
  if p.hasComments then Printer.releaseBlanks text else text

def printAsBody (ss : List Stmt) : String :=
  let f : Function := .mk true true false (some "f") [] [] ss
  Program.print { body := [.decl (.function f)] }

end ScriptBundler

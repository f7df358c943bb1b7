
namespace ScriptBundler

inductive VarKind where
  | constKind
  | letKind
  | varKind
  | usingKind
  | awaitUsingKind
  deriving DecidableEq, Repr, Inhabited

inductive UnaryOp where
  | minus
  | plus
  | not
  | bitNot
  | typeOf
  | voidOf
  | delete
  deriving DecidableEq, Repr, Inhabited

inductive UpdateOp where
  | increment
  | decrement
  deriving DecidableEq, Repr, Inhabited

inductive BinaryOp where
  | coalesce
  | or
  | and
  | bitOr
  | bitXor
  | bitAnd
  | eq
  | ne
  | strictEq
  | strictNe
  | lt
  | le
  | gt
  | ge
  | inOf
  | instanceOf
  | shiftLeft
  | shiftRight
  | shiftRightZero
  | add
  | sub
  | mul
  | div
  | rem
  | exp
  deriving DecidableEq, Repr, Inhabited

/-- How much of an imported module is wanted: its source only, or a deferred evaluation. -/
inductive ImportPhase where
  | source
  | defer
  deriving DecidableEq, Repr, Inhabited

inductive MethodKind where
  | method
  | getter
  | setter
  deriving DecidableEq, Repr, Inhabited

inductive ModuleName where
  | ident (name : String)
  | string (value : String)
  deriving DecidableEq, Repr, Inhabited

def ModuleName.text : ModuleName → String
  | .ident name => name
  | .string value => value

inductive ImportSpecifier where
  | default (localName : String)
  | star (localName : String)
  | named (imported : ModuleName) (localName : String)
  deriving DecidableEq, Repr, Inhabited

structure ExportSpecifier where
  localName : ModuleName
  exported : ModuleName
  deriving DecidableEq, Repr, Inhabited

structure ImportAttributes where
  keyword : String
  entries : List (ModuleName × String)
  deriving DecidableEq, Repr, Inhabited

structure ImportDecl where
  phase : Option ImportPhase
  specifiers : Option (List ImportSpecifier)
  source : String
  attributes : Option ImportAttributes
  deriving DecidableEq, Repr, Inhabited

structure ClassTypes where
  modifiers : List String := []
  arguments : String := ""
  implemented : List String := []
  deriving DecidableEq, Repr, Inhabited

structure Comment where
  text : String
  isLine : Bool
  startsLine : Bool
  endsLine : Bool
  deriving DecidableEq, Repr, Inhabited

mutual

/--
Expressions. Parentheses are kept as nodes, since a parenthesized callee or argument is not the
bare one. A string whose flag `lone` is set spells each lone surrogate as U+FFFD and four
hexadecimal digits. `spread` and `hole` only occur as items of arrays and arguments of calls,
`commented` only as an argument or, without a value, behind the last one. An array has a final
comma if one follows its last item. A call, a constructor call or a function is pure if a comment
before it says so.
-/
inductive Expr where
  | ident (name : String)
  | thisValue
  | superValue
  | null
  | bool (value : Bool)
  | number (text : String)
  | bigint (text : String)
  | string (value : String) (lone : Bool := false)
  | regex (pattern : String) (flags : String)
  | template (quasis : List String) (values : List Expr)
  | taggedTemplate (tag : Expr) (quasis : List String) (values : List Expr)
  | array (items : List Expr) (finalComma : Bool := false)
  | spread (value : Expr)
  | hole
  | object (properties : List Property)
  | function (f : Function)
  | arrow (isAsync isPure : Bool) (params : List Pattern) (value : Expr)
  | arrowBlock (isAsync isPure : Bool) (params : List Pattern) (directives : List String)
      (body : List Stmt)
  | classExpr (c : Class)
  | unary (op : UnaryOp) (operand : Expr)
  | update (op : UpdateOp) (isPrefix : Bool) (target : Pattern)
  | binary (op : BinaryOp) (left right : Expr)
  | privateIn (name : String) (object : Expr)
  | conditional (test consequent alternate : Expr)
  | assign (op : Option BinaryOp) (target : Pattern) (value : Expr)
  | sequence (items : List Expr)
  | member (object : Expr) (property : String) (isOptional : Bool := false)
  | index (object : Expr) (property : Expr) (isOptional : Bool := false)
  | privateMember (object : Expr) (name : String) (isOptional : Bool := false)
  | call (callee : Expr) (args : List Expr) (isOptional : Bool := false) (isPure : Bool := false)
  | new (callee : Expr) (args : List Expr) (isPure : Bool := false)
  | chain (element : Expr)
  | importCall (phase : Option ImportPhase) (args : List Expr)
  | importMeta
  | newTarget
  | await (operand : Expr)
  | yield (value : Option Expr)
  | yieldAll (source : Expr)
  | paren (inner : Expr)
  | commented (comments : List Comment) (value : Option Expr)

inductive Key where
  | ident (name : String)
  | string (value : String) (lone : Bool := false)
  | number (text : String)
  | bigint (text : String)
  | privateName (name : String)
  | computed (value : Expr)

inductive Property where
  | keyValue (key : Key) (isShorthand : Bool) (value : Expr)
  | method (kind : MethodKind) (key : Key) (f : Function)
  | spread (value : Expr)

/--
What is bound or assigned. `target` is a member expression and occurs in assignments only; `hole`
and `rest` only occur as items.
-/
inductive Pattern where
  | name (name : String)
  | target (member : Expr)
  | object (properties : List PatternProperty)
  | array (items : List Pattern)
  | withDefault (pattern : Pattern) (value : Expr)
  | rest (pattern : Pattern)
  | hole

inductive PatternProperty where
  | keyed (key : Key) (isShorthand : Bool) (value : Pattern)
  | rest (pattern : Pattern)

inductive Function where
  | mk (isAsync isGenerator isPure : Bool) (name : Option String) (params : List Pattern)
      (directives : List String) (body : List Stmt)

inductive Class where
  | mk (decorators : List Expr) (types : ClassTypes) (name : Option String)
      (superClass : Option Expr) (members : List Member)

/--
Members of classes. `modifiers` are words such as `static`, in the order of their printing; `mark`
is a sign behind the name that only type checkers read, or nothing.
-/
inductive Member where
  | method (decorators : List Expr) (modifiers : List String) (kind : MethodKind) (key : Key)
      (mark : String) (f : Function)
  | field (decorators : List Expr) (modifiers : List String) (key : Key) (mark : String)
      (value : Option Expr)
  | staticBlock (body : List Stmt)
  | commented (comments : List Comment) (member : Member)

inductive Declarator where
  | mk (pattern : Pattern) (init : Option Expr)

/--
Declarations. `typeOnly` is the text of one that only type checkers read. It and the statements of a
namespace, whose keyword and name stand before them, only occur behind `export`.
-/
inductive Decl where
  | vars (kind : VarKind) (declarators : List Declarator)
  | function (f : Function)
  | classDef (c : Class)
  | typeOnly (text : String)
  | namespaceBlock (keyword name : String) (directives : List String) (body : List Stmt)

inductive ForHead where
  | none
  | vars (kind : VarKind) (declarators : List Declarator)
  | expr (e : Expr)
  | target (pattern : Pattern)

inductive Case where
  | mk (test : Option Expr) (body : List Stmt)

/--
Statements; import and export declarations are accepted wherever a statement stands. `commented` is
a statement with the comments before it, or the comments at the end of a body. It only occurs in
programs that were read together with their comments.
-/
inductive Stmt where
  | empty
  | expr (e : Expr)
  | decl (d : Decl)
  | block (body : List Stmt)
  | ifElse (test : Expr) (consequent : Stmt) (alternate : Option Stmt)
  | whileLoop (test : Expr) (body : Stmt)
  | doWhile (body : Stmt) (test : Expr)
  | forLoop (init : ForHead) (test update : Option Expr) (body : Stmt)
  | forIn (left : ForHead) (right : Expr) (body : Stmt)
  | forOf (isAwait : Bool) (left : ForHead) (right : Expr) (body : Stmt)
  | switch (discriminant : Expr) (cases : List Case)
  | tryCatch (body : List Stmt) (handler : Option (Option Pattern × List Stmt))
      (finalizer : Option (List Stmt))
  | throwValue (value : Expr)
  | returnValue (value : Option Expr)
  | breakTo (label : Option String)
  | continueTo (label : Option String)
  | labeled (label : String) (body : Stmt)
  | withObject (object : Expr) (body : Stmt)
  | debugger
  | importDecl (d : ImportDecl)
  | exportDecl (d : Decl)
  | exportNames (specifiers : List ExportSpecifier) (source : Option String)
  | exportAll (exported : Option ModuleName) (source : String)
      (attributes : Option ImportAttributes)
  | exportDefaultFunction (f : Function)
  | exportDefaultClass (c : Class)
  | exportDefault (value : Expr)
  | commented (comments : List Comment) (statement : Option Stmt)

end

def Expr.lambda (params : List Pattern) (value : Expr) : Expr := .arrow false false params value

instance : Inhabited Expr := ⟨.null⟩
instance : Inhabited Stmt := ⟨.empty⟩
instance : Inhabited Pattern := ⟨.hole⟩

structure Program where
  hasComments : Bool := false
  hashbang : Option String := none
  directives : List String := []
  body : List Stmt := []
  trailing : List Comment := []
  deriving Inhabited

end ScriptBundler

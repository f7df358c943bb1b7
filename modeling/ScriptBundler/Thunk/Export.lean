import ScriptBundler.Syntax.Basic
import ScriptBundler.Text.Quoted

namespace ScriptBundler.Thunk

def keyOf (name : String) : Key :=
  if Identifier.isName name then .ident name else .string name

def propertyOf (object : Expr) (name : String) : Expr :=
  if Identifier.isName name then .member object name else .index object (.string name)

def named (name : String) (value : Expr) : Property := .keyValue (.ident name) false value

/-- What is exported under a name. -/
inductive Descriptor where
  | binding (localName : String) (isMutable : Bool)
  | getter (e : Expr)
  | value (e : Expr)

namespace Descriptor

def parameter (localName : String) : String := if localName = "v" then "value" else "v"

def getterOf (e : Expr) : Property := named "get" (.lambda [] e)

def setterOf (localName : String) : Property :=
  let param := parameter localName
  named "set" (.lambda [.name param] (.assign none (.name localName) (.ident param)))

def enumerable : Property := named "enumerable" (.bool true)

def toExpr : Descriptor → Expr
  | .binding localName true =>
    .object [getterOf (.ident localName), setterOf localName, enumerable]
  | .binding localName false => .object [getterOf (.ident localName), enumerable]
  | .getter e => .object [getterOf e, enumerable]
  | .value e => .object [named "value" e, enumerable]

end Descriptor

def publish (exports : List (String × Descriptor)) : Stmt :=
  .expr (.yield (some (.object
    (exports.map fun (name, d) => .keyValue (keyOf name) false d.toExpr))))

/-- The statement that hands out all exports of the object called `dependency`, save the default. -/
def passThrough (dependency : String) : Stmt :=
  let descriptors := Expr.ident "descriptors"
  let withoutDefault := Expr.paren (.sequence
    [.unary .delete (.member descriptors "default"), descriptors])
  let all := Expr.call (.member (.ident "Object") "getOwnPropertyDescriptors") [.ident dependency]
  .expr (.yield (some (.call
    (.paren (.lambda [.name "descriptors"] withoutDefault)) [all])))

def getterText (value : String) : String :=
  Text.object [Text.property "get" ("() => " ++ value), Text.property "enumerable" "true"]

def valueText (value : String) : String :=
  Text.object [Text.property "value" value, Text.property "enumerable" "true"]

def setterText (localName : String) : String :=
  "(" ++ Descriptor.parameter localName ++ ") => " ++ localName ++ " = " ++
    Descriptor.parameter localName

def bindingText (localName : String) (isMutable : Bool) : String :=
  if isMutable then
    Text.object [Text.property "get" ("() => " ++ localName),
      Text.property "set" (setterText localName), Text.property "enumerable" "true"]
  else getterText localName

/-- The text that `publish` is read off, given the texts of the descriptors. -/
def publishText (exports : List (String × String)) : String :=
  let properties := exports.map fun (name, text) => Text.property (Text.propertyKey name) text
  "yield " ++ Text.object properties ++ ";"

def passedText (dependency : String) : String :=
  "((descriptors) => " ++ "(delete descriptors.default, descriptors))" ++
    "(Object.getOwnPropertyDescriptors(" ++ dependency ++ "))"

def passThroughText (dependency : String) : String := "yield " ++ passedText dependency ++ ";"

def defaultPlaceholder : String := "__stitch_default__"

end ScriptBundler.Thunk

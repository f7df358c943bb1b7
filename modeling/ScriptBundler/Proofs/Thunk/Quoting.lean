import ScriptBundler.Proofs.Thunk.Publication
import ScriptBundler.Proofs.Thunk.ImportTexts

namespace ScriptBundler.Thunk

open Lexer (token? endsName)
open ScriptBundler.Parser

variable {rest : List Char}

/-- The object and the name of a property that is read. -/
def accessed? : Expr → Option (Expr × String)
  | .member object name false => some (object, name)
  | .index object (.string name false) false => some (object, name)
  | _ => none

theorem accessed?_propertyOf (e : Expr) (name : String) :
    accessed? (propertyOf e name) = some (e, name) := by
  rw [propertyOf]
  split <;> rfl

def keyToken (name : String) : Token :=
  if Identifier.isName name then .name name false else .string name false

theorem keyToken_injective : Function.Injective keyToken := by
  intro name name' h
  unfold keyToken at h
  split at h <;> split at h <;> cases h <;> rfl

theorem token?_propertyKey (name : String) (hr : endsName rest = true) :
    token? ((Text.propertyKey name).toList ++ rest) = some (keyToken name, rest) := by
  unfold Text.propertyKey keyToken
  split
  · next h => exact Lexer.token?_name h hr
  · exact Lexer.token?_quote name

theorem propertyKey_injective : Function.Injective Text.propertyKey := by
  intro name name' h
  have hend : endsName [] = true := rfl
  have hread := token?_propertyKey name hend
  rw [h, token?_propertyKey name' hend] at hread
  exact keyToken_injective (Prod.mk.inj (Option.some.inj hread)).1.symm

/--
A quoted text is read as the text, whatever follows. Hence keys of objects and of patterns have the
name that they were made for, an access to an operand is read as one to the property of that name,
and different names have different keys. It is not up to a key what its definition does: one of
`__proto__` sets a prototype.
-/
theorem quote_roundTrips :
    (∀ (s : String) (rest : List Char),
      token? ((Text.quote s).toList ++ rest) = some (.string s false, rest)) ∧
    (∀ name : String, ∃ key : Key, nameOf? key = some name ∧
      (∀ (C : Context → Prop) (depth : Nat) (t : Token) (text : String) (e : Expr),
        DenotesExpr C depth t text e →
          DenotesProperty C depth (Text.property (Text.propertyKey name) text)
            (.keyValue key false e)) ∧
      ∀ localName : String, IsPlainName localName →
        ∃ t ∉ nonKeys, Denotes Context.InGenerator (fun n => patternProperty (grammar (n + 2)))
          propertyEnds t (Text.property (Text.propertyKey name) localName)
          (some (.keyed key false (.name localName)))) ∧
    (∀ (o : String) (depth : Nat), IsPlainName o →
      DenotesOperand Context.IsPlain depth (.name o false) o (.ident o)) ∧
    (∀ (C : Context → Prop) (depth : Nat) (t : Token) (o name : String) (e : Expr),
      (∀ c, C c → c.IsPlain) → 1 ≤ depth → DenotesOperand C depth t o e →
        ∃ access : Expr, accessed? access = some (e, name) ∧
          DenotesOperand C depth t (Text.propertyAccess o name) access ∧
          DenotesExpr C (depth + 1) t (Text.propertyAccess o name) access) ∧
    Function.Injective Text.propertyKey := by
  refine ⟨fun s rest => Lexer.token?_quote s, fun name => ⟨keyOf name, nameOf?_keyOf name, ?_, ?_⟩,
    fun o depth ho => denotesOperand_name ho, ?_, propertyKey_injective⟩
  · intro C depth t text e he
    obtain ⟨key, hkey, hspelled⟩ := exists_key name
    exact he.property hkey hspelled
  · intro localName hn
    have hkeyed := denotes_keyedText hn.importable name
    rwa [hn.unlessYield] at hkeyed
  · intro C depth t o name e hC hd ho
    have haccess := denotesOperand_access hC hd ho name
    exact ⟨_, accessed?_propertyOf e name, haccess, haccess.expr⟩

def hostileName : String := "\"]\x7d; \\\u2028\x00\n"

theorem hostileName_roundTrips :
    IsPlainName "ns" ∧
    token? ((Text.quote hostileName).toList ++ "\"".toList) =
      some (.string hostileName false, ['"']) ∧
    (∃ key, nameOf? key = some hostileName ∧
      DenotesProperty Context.IsPlain 1 (Text.property (Text.propertyKey hostileName) "ns")
        (.keyValue key false (.ident "ns")) ∧
      ∃ t ∉ nonKeys, Denotes Context.InGenerator (fun n => patternProperty (grammar (n + 2)))
        propertyEnds t (Text.property (Text.propertyKey hostileName) "ns")
        (some (.keyed key false (.name "ns")))) ∧
    ∃ first access, accessed? first = some (.ident "ns", "default") ∧
      accessed? access = some (first, hostileName) ∧
      DenotesExpr Context.IsPlain 2 (.name "ns" false)
        (Text.propertyAccess (Text.propertyAccess "ns" "default") hostileName) access := by
  have hns : IsPlainName "ns" := ⟨⟨by decide, by decide⟩, by decide⟩
  have hname : DenotesExpr Context.IsPlain 1 (.name "ns" false) "ns" (.ident "ns") :=
    denotes_name hns.1 fun c hc => ⟨hc, hns.names c⟩
  obtain ⟨hquote, hkeys, hoperand, haccess, -⟩ := quote_roundTrips
  obtain ⟨key, hkey, hproperty, hpattern⟩ := hkeys hostileName
  obtain ⟨first, hfirst, hfirstText, -⟩ := haccess _ 1 _ _ "default" _ (fun _ hc => hc)
    (Nat.le_refl 1) (hoperand "ns" 1 hns)
  obtain ⟨access, hlast, -, htext⟩ := haccess _ 1 _ _ hostileName _ (fun _ hc => hc)
    (Nat.le_refl 1) hfirstText
  exact ⟨hns, hquote hostileName _, ⟨key, hkey, hproperty _ _ _ _ _ hname, hpattern "ns" hns⟩,
    first, access, hfirst, hlast, htext⟩

end ScriptBundler.Thunk

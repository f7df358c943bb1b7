import ScriptBundler.Syntax.Lexer

namespace ScriptBundler

/-- A token that a text can spell. -/
def Token.IsProper : Token → Prop
  | .name text _ => Identifier.isName text = true
  | _ => True

namespace Lexer

section Names

theorem accepts_of_nameChar? {accepts : Char → Bool} {cs rest : List Char} {c : Char} {e : Bool}
    (h : nameChar? accepts cs = some (c, e, rest)) : accepts c = true := by
  unfold nameChar? at h
  split at h
  · obtain ⟨⟨n, rest'⟩, -, h⟩ := Option.bind_eq_some_iff.1 h
    simp only [Option.ite_none_right_eq_some, Bool.and_eq_true] at h
    obtain ⟨⟨-, ha⟩, h⟩ := h
    cases h
    exact ha
  · cases h
  · simp only [Option.ite_none_right_eq_some] at h
    obtain ⟨ha, h⟩ := h
    cases h
    exact ha
  · cases h

theorem isPart_of_nameRest {fuel : Nat} {e e' : Bool} {acc cs text rest : List Char}
    (h : nameRest fuel e acc cs = some (text, e', rest)) :
    ∃ later, text = acc.reverse ++ later ∧ ∀ c ∈ later, Identifier.isPart c = true := by
  induction fuel generalizing e acc cs with
  | zero => cases h
  | succ fuel ih =>
    unfold nameRest at h
    split at h
    · next c e₁ rest₁ hc =>
      obtain ⟨later, rfl, hlater⟩ := ih h
      refine ⟨c :: later, ?_, List.forall_mem_cons.2 ⟨accepts_of_nameChar? hc, hlater⟩⟩
      rw [List.reverse_cons, List.append_assoc, List.singleton_append]
    · split at h
      · cases h
      · cases h
        exact ⟨[], (List.append_nil _).symm, nofun⟩

theorem isName_of_name? {cs rest : List Char} {text : String} {e : Bool}
    (h : name? cs = some (text, e, rest)) : Identifier.isName text = true := by
  obtain ⟨⟨c, e₁, rest₁⟩, hc, h⟩ := Option.bind_eq_some_iff.1 h
  obtain ⟨⟨chars, e₂, rest₂⟩, hr, h⟩ := Option.bind_eq_some_iff.1 h
  cases h
  obtain ⟨later, rfl, hlater⟩ := isPart_of_nameRest hr
  simp only [Identifier.isName, String.toList_ofList, List.reverse_singleton, List.singleton_append,
    accepts_of_nameChar? hc, Bool.true_and, List.all_eq_true]
  exact hlater

end Names

section Others

variable {cs rest after : List Char} {token t : Token}

theorem isProper_of_endsNumber
    (h : (if endsNumber after then some (t, after) else none) = some (token, rest))
    (ht : t.IsProper) : token.IsProper := by
  simp only [Option.ite_none_right_eq_some] at h
  cases h.2
  exact ht

theorem isProper_of_decimalRest {whole : List Char}
    (h : decimalRest whole cs = some (token, rest)) : token.IsProper := by
  unfold decimalRest at h
  dsimp only at h
  split at h
  · split at h
    all_goals
      obtain ⟨⟨fraction, cs₁⟩, -, h⟩ := Option.bind_eq_some_iff.1 h
      dsimp only at h
      split at h
      all_goals
        obtain ⟨⟨power, cs₂⟩, -, h⟩ := Option.bind_eq_some_iff.1 h
        exact isProper_of_endsNumber h True.intro
  · obtain ⟨⟨fraction, cs₁⟩, -, h⟩ := Option.bind_eq_some_iff.1 h
    dsimp only at h
    split at h
    all_goals
      obtain ⟨⟨power, cs₂⟩, -, h⟩ := Option.bind_eq_some_iff.1 h
      exact isProper_of_endsNumber h True.intro

theorem isProper_of_radix? {base : Nat} {isDigit : Char → Bool}
    (h : radix? base isDigit cs = some (token, rest)) : token.IsProper := by
  obtain ⟨⟨ds, cs₁⟩, -, h⟩ := Option.bind_eq_some_iff.1 h
  dsimp only at h
  split at h <;> exact isProper_of_endsNumber h True.intro

theorem isProper_of_zeroLed (h : zeroLed cs = some (token, rest)) : token.IsProper := by
  unfold zeroLed at h
  dsimp only at h
  split at h
  · exact isProper_of_endsNumber h True.intro
  · split at h
    · exact isProper_of_decimalRest h
    · exact isProper_of_decimalRest h
    · exact isProper_of_endsNumber h True.intro

theorem isProper_of_number? (h : number? cs = some (token, rest)) : token.IsProper := by
  unfold number? at h
  split at h
  any_goals exact isProper_of_radix? h
  · exact isProper_of_decimalRest h
  · split at h
    · exact isProper_of_zeroLed h
    · split at h
      · exact isProper_of_endsNumber h True.intro
      · exact isProper_of_decimalRest h
  · obtain ⟨⟨ds, after⟩, -, h⟩ := Option.bind_eq_some_iff.1 h
    dsimp only at h
    split at h
    · exact isProper_of_endsNumber h True.intro
    · exact isProper_of_decimalRest h

theorem isProper_of_string? {quote : Char} (h : string? quote cs = some (token, rest)) :
    token.IsProper := by
  obtain ⟨⟨us, after⟩, -, h⟩ := Option.bind_eq_some_iff.1 h
  cases h
  exact True.intro

theorem isProper_of_punct? (h : punct? cs = some (token, rest)) : token.IsProper := by
  obtain ⟨p, -, h⟩ := Option.map_eq_some_iff.1 h
  dsimp only at h
  split at h <;> cases h <;> exact True.intro

end Others

theorem isProper_of_token? {cs rest : List Char} {token : Token}
    (h : token? cs = some (token, rest)) : token.IsProper := by
  unfold token? at h
  split at h
  any_goals
    cases h
    exact True.intro
  · exact isProper_of_string? h
  · exact isProper_of_string? h
  · obtain ⟨⟨text, e, after⟩, -, h⟩ := Option.map_eq_some_iff.1 h
    cases h
    exact True.intro
  · split at h
    · exact isProper_of_number? h
    · split at h
      · obtain ⟨⟨text, e, after⟩, hn, h⟩ := Option.map_eq_some_iff.1 h
        cases h
        exact isName_of_name? hn
      · exact isProper_of_punct? h

/-- The token at the front of a text, with the proof that the text can spell it. -/
def properToken? (cs : List Char) : Option ({t : Token // t.IsProper} × List Char) :=
  match h : token? cs with
  | none => none
  | some (t, rest) => some (⟨t, isProper_of_token? h⟩, rest)

theorem properToken?_eq_some {cs rest : List Char} {t : Token} (h : token? cs = some (t, rest)) :
    properToken? cs = some (⟨t, isProper_of_token? h⟩, rest) := by
  unfold properToken?
  split
  · next h' =>
    rw [h] at h'
    cases h'
  · next h' =>
    rw [h] at h'
    cases h'
    rfl

end Lexer

end ScriptBundler

import ModuleScaffold.Proofs.Depth.Alike

/-!
# Types for readers that agree

The rules for types, patterns and parameters give the same for two readers that agree on shorter
texts. How much shorter depends on the rule: a type in angle brackets starts at least one character
later, the expression in the brackets of a key two, since a key stands in an object.

So two readers agree up to a number of characters that counts one for the nesting of a type or a
pattern, one more for an expression, and two more for a statement
(`ModuleScaffold.Source.AgreeBelow`).

Main statements:

* `ModuleScaffold.Source.alike_typeRule`, `ModuleScaffold.Source.alike_patternRule` – **types and
  patterns**.
-/

namespace ModuleScaffold

namespace Source

/-- An expression that follows the grammar in all its parts. -/
abbrev Intact (e : Expr) : Prop :=
  e.isDamaged = false

/-- Two readers give the same for texts of fewer characters than the given number; what they give
follows the grammar. Expressions take one character less, and statements two. -/
structure AgreeBelow (n : ℕ) (r r' : Reader) : Prop where
  /-- Expressions are the same. -/
  expression : ∀ (lineEnds : Bool) (cs : Chars), cs.length + 1 < n →
    Alike (Gives Intact cs.length) (r.expression lineEnds cs) (r'.expression lineEnds cs)
  /-- Operands are the same. -/
  operand : ∀ (lineEnds : Bool) (cs : Chars), cs.length + 1 < n →
    Alike (Gives Intact cs.length) (r.operand lineEnds cs) (r'.operand lineEnds cs)
  /-- Expressions without operators are the same. -/
  primary : ∀ cs : Chars, cs.length + 1 < n →
    Alike (Gives Intact cs.length) (r.primary cs) (r'.primary cs)
  /-- Types are the same. -/
  typeEnd : ∀ (lineEnds : Bool) (cs : Chars), cs.length < n →
    Alike (Below cs.length) (r.typeEnd lineEnds cs) (r'.typeEnd lineEnds cs)
  /-- Patterns are the same. -/
  patternEnd : ∀ cs : Chars, cs.length < n →
    Alike (Below cs.length) (r.patternEnd cs) (r'.patternEnd cs)
  /-- Statements are the same. -/
  statementEnd : ∀ cs : Chars, cs.length + 2 < n →
    Alike (Below cs.length) (r.statementEnd cs) (r'.statementEnd cs)

/-! ### Templates -/

theorem templateFrom_alike {hole hole' : Chars → Option Chars} {n : ℕ}
    (h : ∀ rest : Chars, rest.length < n → Alike (Below rest.length) (hole rest) (hole' rest))
    (filled : Bool) (fuel : ℕ) {cs : Chars} (hcs : cs.length ≤ n) :
    Alike (Gives Anything cs.length) (templateFrom hole filled fuel cs)
      (templateFrom hole' filled fuel cs) := by
  induction fuel generalizing filled cs with
  | zero => exact .none
  | succ fuel ih =>
    cases cs with
    | nil => exact .none
    | cons c cs =>
      rw [List.length_cons] at hcs
      have hdrop (k : ℕ) : (cs.drop k).length ≤ cs.length := (List.drop_sublist k cs).length_le
      rw [templateFrom, templateFrom, List.length_cons]
      refine .ite (.some ⟨Nat.lt_succ_self _, trivial⟩) (.ite ?_ (.ite ?_ ?_))
      · split
        · next k _ =>
          have := hdrop (k - 1)
          exact (ih filled (by omega)).within (by omega)
        · exact .none
      · have := hdrop 1
        have hbraces := (h (cs.drop 1) (by omega)).bind fun rest hrest =>
          (alike_mark "\x7d" (by decide) rest).below (Nat.le_of_lt hrest)
        rw [← hbraces.eq]
        split
        · next rest hrest =>
          have := hbraces.gives rest hrest
          exact (ih true (by omega)).within (by omega)
        · exact .none
      · exact (ih filled (by omega)).within (Nat.le_succ _)

theorem templateHere_alike {hole hole' : Chars → Option Chars} {cs : Chars}
    (h : ∀ rest : Chars, rest.length < cs.length →
      Alike (Below rest.length) (hole rest) (hole' rest)) :
    Alike (Gives Anything cs.length) (templateHere hole cs) (templateHere hole' cs) := by
  unfold templateHere
  split
  · next rest =>
    rw [List.length_cons] at h ⊢
    exact (templateFrom_alike (fun rest' hlt => h rest' (by omega)) false _
      (Nat.le_refl _)).within (Nat.le_succ _)
  · exact .none

section Rules

variable {n : ℕ} {r r' : Reader}

/-! ### Names and type arguments -/

theorem alike_propertyNameEnd (h : AgreeBelow n r r') (cs : Chars) (hcs : cs.length < n) :
    Alike (Below cs.length) (propertyNameEnd r cs) (propertyNameEnd r' cs) := by
  unfold propertyNameEnd
  split
  · next rest hskip =>
    have := length_lt_of_skip hskip
    refine (h.expression false rest (by omega)).bind fun x hx => ?_
    exact (alike_mark _ (by decide) _).below (by omega)
  · next rest hskip =>
    have := length_lt_of_skip hskip
    exact (alike_wordHere rest).map fun x hx => ⟨rfl, hx.trans this⟩
  · have hle := length_skip_le cs
    split
    · next rest hword => exact .some (((alike_wordHere _).gives _ hword).trans_le hle)
    · exact ((alike_stringHere _).or (alike_numberHere _)).below hle

theorem alike_markType (h : AgreeBelow n r r') (text : String) (htext : text.toList ≠ [])
    (lineEnds : Bool) (cs : Chars) (hcs : cs.length ≤ n) :
    Alike (Below cs.length) ((mark text cs).bind (r.typeEnd lineEnds))
      ((mark text cs).bind (r'.typeEnd lineEnds)) :=
  (alike_mark text htext cs).bind fun rest _ =>
    (h.typeEnd lineEnds rest (by omega)).below (by omega)

theorem alike_keywordType (h : AgreeBelow n r r') (text : String) (lineEnds : Bool) (cs : Chars)
    (hcs : cs.length ≤ n) : Alike (Below cs.length) ((keyword text cs).bind (r.typeEnd lineEnds))
      ((keyword text cs).bind (r'.typeEnd lineEnds)) :=
  (alike_keyword text cs).bind fun rest _ =>
    (h.typeEnd lineEnds rest (by omega)).below (by omega)

theorem alike_typeArgumentsEnd (h : AgreeBelow n r r') (cs : Chars) (hcs : cs.length ≤ n) :
    Alike (Below cs.length) (typeArgumentsEnd r cs) (typeArgumentsEnd r' cs) := by
  refine (alike_mark _ (by decide) cs).bind fun rest hrest => ?_
  refine (separatedEnd_alike fun rest' _ => h.typeEnd false rest' (by omega)).bind
    fun rest₂ hrest₂ => ?_
  have := length_optional_mark_le "," rest₂
  exact (alike_mark _ (by decide) _).below (by omega)

theorem alike_typeParameterEnd (h : AgreeBelow n r r') (cs : Chars) (hcs : cs.length ≤ n) :
    Alike (Below cs.length) (typeParameterEnd r cs) (typeParameterEnd r' cs) := by
  unfold typeParameterEnd
  refine Alike.bind (P := Below cs.length) ?_ fun rest hrest => ?_
  · refine (alike_anyWord _).below (length_many_le fun rest => ?_)
    exact (alike_keywordAmong _ rest).bind fun rest' hrest' =>
      (alike_anyWord rest').map fun _ _ => ⟨rfl, hrest'⟩
  · obtain ⟨hextends, hle⟩ := optional_below rest fun rest' _ =>
      alike_keywordType h "extends" false rest' (by omega)
    dsimp only
    rw [← hextends]
    exact (alike_markType h _ (by decide) false _ (by omega)).lastOptional (by omega)

theorem alike_typeParametersEnd (h : AgreeBelow n r r') (cs : Chars) (hcs : cs.length ≤ n) :
    Alike (Below cs.length) (typeParametersEnd r cs) (typeParametersEnd r' cs) := by
  refine (alike_mark _ (by decide) cs).bind fun rest hrest => ?_
  refine (separatedEnd_alike fun rest' _ => alike_typeParameterEnd h rest' (by omega)).bind
    fun rest₂ hrest₂ => ?_
  have := length_optional_mark_le "," rest₂
  exact (alike_mark _ (by decide) _).below (by omega)

theorem alike_annotationEnd (h : AgreeBelow n r r') (lineEnds : Bool) (cs : Chars)
    (hcs : cs.length ≤ n) :
    Alike (Below cs.length) (annotationEnd r lineEnds cs) (annotationEnd r' lineEnds cs) :=
  alike_markType h _ (by decide) lineEnds cs hcs

theorem alike_predicateEnd (h : AgreeBelow n r r') (lineEnds : Bool) (cs : Chars)
    (hcs : cs.length ≤ n) :
    Alike (Below cs.length) (predicateEnd r lineEnds cs) (predicateEnd r' lineEnds cs) :=
  (alike_anyWord cs).bind fun rest _ =>
    (alike_keywordType h "is" lineEnds rest (by omega)).below (by omega)

theorem alike_resultTypeEnd (h : AgreeBelow n r r') (lineEnds : Bool) (cs : Chars)
    (hcs : cs.length < n) :
    Alike (Below cs.length) (resultTypeEnd r lineEnds cs) (resultTypeEnd r' lineEnds cs) := by
  refine (Alike.or ?_ (alike_predicateEnd h _ cs (by omega))).or (h.typeEnd lineEnds cs hcs)
  refine (alike_keyword "asserts" cs).bind fun rest _ => ?_
  refine ((alike_predicateEnd h _ rest (by omega)).or ?_).below (by omega)
  exact .ite (alike_anyWord rest) .none

theorem alike_resultEnd (h : AgreeBelow n r r') (lineEnds : Bool) (cs : Chars)
    (hcs : cs.length ≤ n) :
    Alike (Below cs.length) (resultEnd r lineEnds cs) (resultEnd r' lineEnds cs) :=
  (alike_mark _ (by decide) cs).bind fun rest _ =>
    (alike_resultTypeEnd h _ rest (by omega)).below (by omega)

/-! ### Parameters -/

theorem alike_decoratorEnd (h : AgreeBelow n r r') (cs : Chars) (hcs : cs.length ≤ n) :
    Alike (Below cs.length) (decoratorEnd r cs) (decoratorEnd r' cs) := by
  refine (alike_mark _ (by decide) cs).bind fun rest hrest => ?_
  split
  · next inner hskip =>
    have := length_lt_of_skip hskip
    refine (h.expression false inner (by omega)).bind fun x hx => ?_
    exact (alike_mark _ (by decide) _).below (by omega)
  · refine (alike_pathEnd rest).bind fun rest' hrest' => ?_
    dsimp only
    refine Alike.lastOptional ?_ (by omega)
    obtain ⟨htypes, hle⟩ := optional_below rest' fun args _ =>
      alike_typeArgumentsEnd h args (by omega)
    rw [← htypes]
    refine (alike_mark _ (by decide) _).bind fun args hargs => ?_
    refine (listEnd_alike true (by decide) fun arg _ => ?_).below (by omega)
    have := length_optional_mark_le "..." arg
    exact (h.expression false _ (by omega)).map fun x hx => ⟨rfl, by omega⟩

theorem alike_decorators (h : AgreeBelow n r r') (cs : Chars) (hcs : cs.length ≤ n) :
    many (decoratorEnd r) cs = many (decoratorEnd r') cs ∧
      (many (decoratorEnd r) cs).length ≤ cs.length :=
  many_alike fun rest _ => alike_decoratorEnd h rest (by omega)

theorem alike_initialEnd (h : AgreeBelow n r r') (cs : Chars) (hcs : cs.length < n) :
    Alike (Below cs.length) (initialEnd r cs) (initialEnd r' cs) := by
  unfold initialEnd
  split
  · next rest hskip =>
    have := length_lt_of_skip hskip
    refine .ite .none ((h.expression false rest (by omega)).map fun x hx => ⟨rfl, ?_⟩)
    omega
  · exact .none

theorem alike_parameterEnd (h : AgreeBelow n r r') (cs : Chars) (hcs : cs.length < n) :
    Alike (Below cs.length) (parameterEnd r cs) (parameterEnd r' cs) := by
  have hmodified (rest : Chars) (hrest : rest.length ≤ cs.length) : Alike (Below rest.length)
      ((keywordAmong parameterModifiers rest).bind fun rest =>
        (r.patternEnd rest).map fun _ => rest)
      ((keywordAmong parameterModifiers rest).bind fun rest =>
        (r'.patternEnd rest).map fun _ => rest) :=
    (alike_keywordAmong _ rest).bind fun rest' hlt =>
      (h.patternEnd rest' (by omega)).map fun _ _ => ⟨rfl, hlt⟩
  obtain ⟨hdecorators, hle⟩ := alike_decorators h cs (by omega)
  obtain ⟨hmodifiers, hle'⟩ := many_alike fun rest hrest => hmodified rest (hrest.trans hle)
  rw [parameterEnd, parameterEnd]
  dsimp only
  rw [← hdecorators, ← hmodifiers]
  have hstart := (length_optional_mark_le "..." _).trans (hle'.trans hle)
  refine ((h.patternEnd _ (by omega)).below hstart).bind fun rest hrest => ?_
  have := length_optional_mark_le "?" rest
  obtain ⟨hcolon, hle₂⟩ := optional_below (optional (mark "?") rest) fun rest' _ =>
    alike_annotationEnd h false rest' (by omega)
  rw [← hcolon]
  exact (alike_initialEnd h _ (by omega)).lastOptional (by omega)

theorem alike_parametersEnd (h : AgreeBelow n r r') (cs : Chars) (hcs : cs.length ≤ n) :
    Alike (Below cs.length) (parametersEnd r cs) (parametersEnd r' cs) :=
  (alike_mark _ (by decide) cs).bind fun rest hrest =>
    (listEnd_alike false (by decide) fun parameter _ =>
      alike_parameterEnd h parameter (by omega)).below (by omega)

theorem alike_signatureEnd (h : AgreeBelow n r r') (lineEnds : Bool) (cs : Chars)
    (hcs : cs.length ≤ n) :
    Alike (Below cs.length) (signatureEnd r lineEnds cs) (signatureEnd r' lineEnds cs) := by
  obtain ⟨htypes, hle⟩ := optional_below cs fun rest _ => alike_typeParametersEnd h rest (by omega)
  rw [signatureEnd, signatureEnd, ← htypes]
  exact ((alike_parametersEnd h _ (by omega)).below hle).mapOptional fun rest hrest =>
    alike_resultEnd h _ rest (hrest.le.trans hcs)

/-! ### Patterns -/

theorem alike_patternPartEnd (h : AgreeBelow n r r') (cs : Chars) (hcs : cs.length < n) :
    Alike (Below cs.length) (patternPartEnd r cs) (patternPartEnd r' cs) := by
  unfold patternPartEnd
  split
  · next rest hmark =>
    have := (alike_mark _ (by decide) cs).gives _ hmark
    exact (h.patternEnd rest (by omega)).below (by omega)
  · exact (h.patternEnd cs hcs).mapOptional fun rest _ => alike_initialEnd h rest (by omega)

theorem alike_patternMemberEnd (h : AgreeBelow n r r') (cs : Chars) (hcs : cs.length < n) :
    Alike (Below cs.length) (patternMemberEnd r cs) (patternMemberEnd r' cs) := by
  refine Alike.or ?_ ?_
  · refine (alike_propertyNameEnd h cs hcs).bind fun rest hrest => ?_
    exact (alike_mark _ (by decide) rest).bind fun rest' _ =>
      (alike_patternPartEnd h rest' (by omega)).below (by omega)
  · split
    · next rest hmark =>
      have := (alike_mark _ (by decide) cs).gives _ hmark
      exact (h.patternEnd rest (by omega)).below (by omega)
    · exact (alike_anyWord cs).mapOptional fun rest _ => alike_initialEnd h rest (by omega)

/-- **Patterns of variables.** -/
theorem alike_patternRule (h : AgreeBelow n r r') (cs : Chars) (hcs : cs.length ≤ n) :
    Alike (Below cs.length) (patternRule r cs) (patternRule r' cs) := by
  unfold patternRule
  split
  · next rest hskip =>
    have := length_lt_of_skip hskip
    exact (listEnd_alike true (by decide) fun member _ =>
      alike_patternMemberEnd h member (by omega)).below (by omega)
  · next rest hskip =>
    have := length_lt_of_skip hskip
    exact (listEnd_alike true (by decide) fun part _ =>
      alike_patternPartEnd h part (by omega)).below (by omega)
  · exact alike_anyWord cs

/-! ### Members of object types -/

theorem alike_indexEnd (h : AgreeBelow n r r') (cs : Chars) (hcs : cs.length ≤ n) :
    Alike (Below cs.length) (indexEnd r cs) (indexEnd r' cs) := by
  refine (alike_mark _ (by decide) cs).bind fun rest hrest => ?_
  refine (alike_anyWord rest).bind fun rest' hrest' => ?_
  have htyped := alike_markType h ":" (by decide) false rest' (by omega)
  rw [← htyped.eq]
  split
  · next behind hbehind =>
    have := htyped.gives _ hbehind
    exact (alike_mark _ (by decide) behind).below (by omega)
  · refine (alike_keyword "in" rest').bind fun range hrange => ?_
    refine (h.typeEnd false range (by omega)).bind fun behind hbehind => ?_
    obtain ⟨has, hle⟩ := optional_below behind fun rest _ =>
      alike_keywordType h "as" false rest (by omega)
    rw [← has]
    exact (alike_mark _ (by decide) _).below (by omega)

theorem length_optional_optionalMark_le (cs : Chars) :
    (optional optionalMark cs).length ≤ cs.length := by
  refine length_optional_le (Alike.mono ?_ fun _ => Nat.le_of_lt)
  exact ((alike_mark _ (by decide) cs).or (alike_mark _ (by decide) cs)).or
    (alike_mark _ (by decide) cs)

theorem alike_typeMemberEnd (h : AgreeBelow n r r') (cs : Chars) (hcs : cs.length < n) :
    Alike (Below cs.length) (typeMemberEnd r cs) (typeMemberEnd r' cs) := by
  unfold typeMemberEnd
  extract_lets isName modified created called start named isName' modified' created' called'
    start' named'
  have hmodified (rest : Chars) (hrest : rest.length ≤ cs.length) :
      Alike (Below rest.length) (modified rest) (modified' rest) := by
    have hmark := (alike_mark "-" (by decide) rest).or
      (alike_mark "+" (by decide) rest)
    refine ((alike_keywordAmong memberModifiers rest).or (hmark.bind fun rest' _ =>
      (alike_keyword "readonly" rest').below (by omega))).bind fun behind hbehind => ?_
    exact .someIf (alike_propertyNameEnd h behind (by omega)).isSome_eq hbehind
  refine ((Alike.or ?_ (alike_signatureEnd h true cs (by omega))).or ?_)
  · exact (alike_keyword "new" cs).bind fun rest _ =>
      (alike_signatureEnd h true rest (by omega)).below (by omega)
  · obtain ⟨hstart, hle⟩ := many_alike hmodified
    dsimp only [named, named', start, start']
    rw [← hstart]
    refine (((alike_indexEnd h _ (by omega)).or (alike_propertyNameEnd h _ (by omega))).below
      hle).map fun rest hrest => ?_
    have hmark := length_optional_optionalMark_le rest
    have hcalled := alike_signatureEnd h true (optional optionalMark rest) (by omega)
    rw [← hcalled.eq]
    split
    · next behind hbehind => exact ⟨rfl, (hcalled.gives _ hbehind).trans (by omega)⟩
    · obtain ⟨heq, hle⟩ := optional_below (optional optionalMark rest) fun rest' _ =>
        alike_annotationEnd h true rest' (by omega)
      exact ⟨heq, by omega⟩

theorem alike_separatedMemberEnd (h : AgreeBelow n r r') (cs : Chars) (hcs : cs.length < n) :
    Alike (Below cs.length) (separatedMemberEnd r cs) (separatedMemberEnd r' cs) := by
  unfold separatedMemberEnd
  split
  · next rest hmark =>
    exact .some (((alike_mark _ (by decide) cs).or (alike_mark _ (by decide) cs)).gives rest hmark)
  · refine (alike_typeMemberEnd h cs hcs).bind fun rest hrest => ?_
    refine Alike.or (Alike.or ((alike_mark _ (by decide) rest).below (by omega)) ?_) ?_
    · exact (alike_endStatement false rest).mono fun _ hle => Nat.lt_of_le_of_lt hle hrest
    · exact .ite (.some hrest) .none

theorem alike_objectTypeEnd (h : AgreeBelow n r r') (cs : Chars) (hcs : cs.length ≤ n) :
    Alike (Below cs.length) (objectTypeEnd r cs) (objectTypeEnd r' cs) := by
  refine (alike_mark _ (by decide) cs).bind fun rest hrest => ?_
  obtain ⟨hmembers, hle⟩ := many_alike fun rest' (hle : rest'.length ≤ rest.length) =>
    alike_separatedMemberEnd h rest' (by omega)
  rw [← hmembers]
  exact (alike_mark _ (by decide) _).below (by omega)

/-! ### Types without operators -/

theorem alike_tupleMemberEnd (h : AgreeBelow n r r') (cs : Chars) (hcs : cs.length < n) :
    Alike (Below cs.length) (tupleMemberEnd r cs) (tupleMemberEnd r' cs) := by
  have hle := length_optional_mark_le "..." cs
  refine Alike.or ?_ ?_
  · refine (alike_anyWord _).bind fun rest hrest => ?_
    have := length_optional_mark_le "?" rest
    exact (alike_annotationEnd h false _ (by omega)).below (by omega)
  · refine ((h.typeEnd false _ (by omega)).below hle).mapOptional fun rest _ => ?_
    exact alike_mark _ (by decide) rest

theorem alike_functionTypeEnd (h : AgreeBelow n r r') (lineEnds : Bool) (cs : Chars)
    (hcs : cs.length ≤ n) :
    Alike (Below cs.length) (functionTypeEnd r lineEnds cs) (functionTypeEnd r' lineEnds cs) := by
  obtain ⟨htypes, hle⟩ := optional_below cs fun rest _ => alike_typeParametersEnd h rest (by omega)
  rw [functionTypeEnd, functionTypeEnd, ← htypes]
  refine ((alike_parametersEnd h _ (by omega)).below hle).bind fun rest hrest => ?_
  exact (alike_mark _ (by decide) rest).bind fun rest' _ =>
    (alike_resultTypeEnd h lineEnds rest' (by omega)).below (by omega)

theorem alike_constructorTypeEnd (h : AgreeBelow n r r') (lineEnds : Bool) (cs : Chars)
    (hcs : cs.length ≤ n) : Alike (Below cs.length) (constructorTypeEnd r lineEnds cs)
      (constructorTypeEnd r' lineEnds cs) := by
  have hle := length_optional_keyword_le "abstract" cs
  exact ((alike_keyword "new" _).below hle).bind fun rest _ =>
    (alike_functionTypeEnd h lineEnds rest (by omega)).below (by omega)

theorem alike_importedText (cs : Chars) : Alike (Below cs.length)
    ((keyword "import" cs).bind fun rest => (mark "(" rest).bind fun rest =>
      (string rest).bind (mark ")"))
    ((keyword "import" cs).bind fun rest => (mark "(" rest).bind fun rest =>
      (string rest).bind (mark ")")) :=
  (alike_keyword "import" cs).bind fun _ h₁ => (alike_mark _ (by decide) _).bind fun _ h₂ =>
    (alike_string _).bind fun _ h₃ => (alike_mark _ (by decide) _).below (by omega)

theorem alike_typeQueryEnd (h : AgreeBelow n r r') (cs : Chars) (hcs : cs.length ≤ n) :
    Alike (Below cs.length) (typeQueryEnd r cs) (typeQueryEnd r' cs) := by
  refine (alike_keyword "typeof" cs).bind fun rest hrest => ?_
  refine ((alike_importedText rest).or (alike_anyWord rest)).bind fun rest' hrest' => ?_
  dsimp only
  have hle : (many (fun cs => (mark "." cs).bind fun rest => (anyWord rest).or (privateName rest))
      rest').length ≤ rest'.length := by
    refine length_many_le fun member => (alike_mark _ (by decide) member).bind fun name _ => ?_
    exact ((alike_anyWord name).or (alike_privateName name)).below (by omega)
  exact (alike_typeArgumentsEnd h _ (by omega)).lastOptional (by omega)

theorem alike_namedTypeEnd (h : AgreeBelow n r r') (cs : Chars) (hcs : cs.length ≤ n) :
    Alike (Below cs.length) (namedTypeEnd r cs) (namedTypeEnd r' cs) := by
  refine Alike.mapOptional (Alike.or ?_ (alike_pathEnd cs)) fun rest hrest =>
    alike_typeArgumentsEnd h rest (by omega)
  refine (alike_keyword "import" cs).bind fun _ h₁ => (alike_mark _ (by decide) _).bind fun _ h₂ =>
    (alike_string _).bind fun _ h₃ => ?_
  refine ((alike_mark _ (by decide) _).below (by omega)).mapMany fun rest _ => ?_
  exact (alike_mark _ (by decide) rest).bind fun _ hlt => (alike_anyWord _).below (Nat.le_of_lt hlt)

theorem alike_primaryTypeEnd (h : AgreeBelow n r r') (cs : Chars) (hcs : cs.length ≤ n) :
    Alike (Below cs.length) (primaryTypeEnd r cs) (primaryTypeEnd r' cs) := by
  have hle := length_skip_le cs
  unfold primaryTypeEnd
  split
  · exact .none
  · next c rest hskip =>
    have := length_lt_of_skip hskip
    rw [← hskip]
    refine .ite ?_ (.ite ?_ (.ite ?_ (.ite ?_ (.ite ?_ (.ite ?_ (.ite ?_ ?_))))))
    · exact (h.typeEnd false rest (by omega)).bind fun _ _ =>
        (alike_mark _ (by decide) _).below (by omega)
    · exact (alike_objectTypeEnd h _ (by omega)).below hle
    · exact (listEnd_alike false (by decide) fun member _ =>
        alike_tupleMemberEnd h member (by omega)).below (by omega)
    · exact (alike_stringHere _).below hle
    · exact (templateHere_alike fun hole _ => h.typeEnd false hole (by omega)).map fun x hx =>
        ⟨rfl, hx.1.trans_le hle⟩
    · have := length_skip_le rest
      exact (alike_numberHere _).below (by omega)
    · exact (alike_numberHere _).below hle
    · exact ((alike_typeQueryEnd h _ (by omega)).or (alike_namedTypeEnd h _ (by omega))).below hle

/-! ### Types -/

theorem alike_typeSuffixEnd (h : AgreeBelow n r r') (lineEnds : Bool) (cs : Chars)
    (hcs : cs.length ≤ n) :
    Alike (Below cs.length) (typeSuffixEnd r lineEnds cs) (typeSuffixEnd r' lineEnds cs) := by
  refine .ite ((alike_mark _ (by decide) cs).bind fun rest _ => ?_) .none
  refine Alike.or ((alike_mark _ (by decide) rest).below (by omega)) ?_
  exact (h.typeEnd false rest (by omega)).bind fun _ _ =>
    (alike_mark _ (by decide) _).below (by omega)

theorem alike_typeOperandFrom (h : AgreeBelow n r r') (lineEnds : Bool) (fuel : ℕ) (cs : Chars)
    (hcs : cs.length ≤ n) : Alike (Below cs.length) (typeOperandFrom r lineEnds fuel cs)
      (typeOperandFrom r' lineEnds fuel cs) := by
  induction fuel generalizing cs with
  | zero => exact .none
  | succ fuel ih =>
    refine Alike.or (Alike.or (Alike.or ?_ ?_) ?_) ?_
    · exact (alike_keywordAmong _ cs).bind fun rest _ => (ih rest (by omega)).below (by omega)
    · refine (alike_keyword "infer" cs).bind fun rest _ =>
        ((alike_anyWord rest).below (by omega)).mapOptional fun rest' _ => ?_
      exact (alike_keyword "extends" rest').bind fun rest₂ _ =>
        (ih rest₂ (by omega)).below (by omega)
    · exact (alike_functionTypeEnd h lineEnds cs hcs).or
        (alike_constructorTypeEnd h lineEnds cs hcs)
    · exact (alike_primaryTypeEnd h cs hcs).mapMany fun rest _ =>
        alike_typeSuffixEnd h lineEnds rest (by omega)

theorem alike_typeOperandEnd (h : AgreeBelow n r r') (lineEnds : Bool) (cs : Chars)
    (hcs : cs.length ≤ n) :
    Alike (Below cs.length) (typeOperandEnd r lineEnds cs) (typeOperandEnd r' lineEnds cs) :=
  alike_typeOperandFrom h lineEnds _ cs hcs

theorem alike_typeOperator (cs : Chars) :
    Alike (Below cs.length) (typeOperator cs) (typeOperator cs) :=
  (alike_mark _ (by decide) cs).or (alike_mark _ (by decide) cs)

theorem alike_conditionEnd (h : AgreeBelow n r r') (cs : Chars) (hcs : cs.length ≤ n) :
    Alike (Below cs.length) (conditionEnd r cs) (conditionEnd r' cs) := by
  refine (alike_keyword "extends" cs).bind fun rest _ => ?_
  refine (h.typeEnd false rest (by omega)).bind fun rest₂ _ => ?_
  refine (alike_mark _ (by decide) rest₂).bind fun rest₃ _ => ?_
  refine (h.typeEnd false rest₃ (by omega)).bind fun rest₄ _ => ?_
  exact (alike_markType h _ (by decide) false rest₄ (by omega)).below (by omega)

/-- **Types.** -/
theorem alike_typeRule (h : AgreeBelow n r r') (lineEnds : Bool) (cs : Chars)
    (hcs : cs.length ≤ n) :
    Alike (Below cs.length) (typeRule r lineEnds cs) (typeRule r' lineEnds cs) := by
  have hle : (optional typeOperator cs).length ≤ cs.length :=
    length_optional_le ((alike_typeOperator cs).mono fun _ => Nat.le_of_lt)
  refine ((alike_typeOperandEnd h lineEnds _ (by omega)).below hle).bind fun rest hrest => ?_
  obtain ⟨hmore, hle'⟩ := many_alike fun rest' (hle : rest'.length ≤ rest.length) =>
    (alike_typeOperator rest').bind fun behind _ =>
      (alike_typeOperandEnd h lineEnds behind (by omega)).below (by omega)
  rw [← hmore]
  dsimp only
  split
  · exact (alike_conditionEnd h _ (by omega)).lastOptional (by omega)
  · exact .some (by omega)

end Rules

end Source

end ModuleScaffold

import ModuleScaffold.Proofs.Scan.Tokens

/-!
# Types and the scan of variables

What a type, a pattern or a parameter leads the scan of variables over leaves as many brackets open
as there were, if the rules for what is nested in it do so (`ModuleScaffold.Source.Steady`).

Main statements:

* `ModuleScaffold.Source.goes_typeRule`, `ModuleScaffold.Source.goes_patternRule` – **types and
  patterns**.
-/

namespace ModuleScaffold

namespace Source

open Store.DeclaratorScan (isPlain)

/-- The rules of a reader close the brackets that they open; semicolons outside brackets stand in
statements only. -/
structure Steady (r : Reader) : Prop where
  /-- The reader is made from the rules. -/
  isReader : ∃ depth, r = reader depth
  /-- Expressions. -/
  expression : ∀ (lineEnds : Bool) (cs : Chars), Goes Passes cs (r.expression lineEnds cs)
  /-- Operands. -/
  operand : ∀ (lineEnds : Bool) (cs : Chars), Goes Passes cs (r.operand lineEnds cs)
  /-- Expressions without operators. -/
  primary : ∀ cs : Chars, Goes Passes cs (r.primary cs)
  /-- Types. -/
  typeEnd : ∀ (lineEnds : Bool) (cs : Chars), Goes Passes cs (r.typeEnd lineEnds cs)
  /-- Patterns. -/
  patternEnd : ∀ cs : Chars, Goes Passes cs (r.patternEnd cs)
  /-- Statements. -/
  statementEnd : ∀ cs : Chars, Goes Runs cs (r.statementEnd cs)

variable {r : Reader} {cs : Chars}

/-! ### Names and type arguments -/

theorem goes_propertyNameEnd (h : Steady r) (cs : Chars) :
    Goes Passes cs (propertyNameEnd r cs) := by
  unfold propertyNameEnd
  split
  · next rest hskip =>
    refine .enter (enters_of_skip hskip (by decide)) ?_
    exact (h.expression false rest).runs.leave fun _ => goes_bracket _
  · next rest hskip =>
    have hname : Passes cs rest :=
      Onward.trans (hskip ▸ passes_skip cs) (Moves.inert (by decide))
    exact .after hname ((goes_wordHere rest).map fun _ => rfl)
  · refine .after (passes_skip cs) ?_
    split
    · next rest hword => exact .some (goes_wordHere _ _ hword)
    · exact (goes_stringHere _).or (goes_numberHere _)

theorem goes_markType (h : Steady r) {text : String} (htext : text.toList.all isPlain = true)
    (lineEnds : Bool) (cs : Chars) : Goes Passes cs ((mark text cs).bind (r.typeEnd lineEnds)) :=
  (goes_mark htext cs).bind (h.typeEnd lineEnds)

theorem goes_keywordType (h : Steady r) (text : String) (lineEnds : Bool) (cs : Chars) :
    Goes Passes cs ((keyword text cs).bind (r.typeEnd lineEnds)) :=
  (goes_keyword text cs).bind (h.typeEnd lineEnds)

/-- Things between angle brackets, the last possibly followed by a comma. -/
theorem goes_angled {step : Chars → Option Chars} (h : ∀ rest, Goes Passes rest (step rest))
    (cs : Chars) : Goes Passes cs ((mark "<" cs).bind fun rest =>
      (separatedEnd step rest).bind fun rest => mark ">" (optional (mark ",") rest)) := by
  refine (goes_mark (by decide) cs).bind fun rest => ?_
  refine (goes_separatedEnd h rest).bind fun rest => ?_
  exact .after (onward_optional goes_comma) (goes_mark (by decide) _)

theorem goes_typeArgumentsEnd (h : Steady r) (cs : Chars) :
    Goes Passes cs (typeArgumentsEnd r cs) :=
  goes_angled (h.typeEnd false) cs

theorem goes_typeParameterEnd (h : Steady r) (cs : Chars) :
    Goes Passes cs (typeParameterEnd r cs) := by
  refine .after (onward_many fun rest => ?_) ((goes_anyWord _).bind fun rest => ?_)
  · refine (goes_keywordAmong _ rest).bind fun rest => ?_
    exact fun _ h => (Option.map_eq_some_iff.1 h).choose_spec.2 ▸ Onward.refl rest
  · have hextends : Passes rest
        (optional (fun cs => (keyword "extends" cs).bind (r.typeEnd false)) rest) :=
      onward_optional (goes_keywordType h "extends" false)
    exact .some (Onward.trans hextends (onward_optional (goes_markType h (by decide) false)))

theorem goes_typeParametersEnd (h : Steady r) (cs : Chars) :
    Goes Passes cs (typeParametersEnd r cs) :=
  goes_angled (goes_typeParameterEnd h) cs

theorem goes_annotationEnd (h : Steady r) (lineEnds : Bool) (cs : Chars) :
    Goes Passes cs (annotationEnd r lineEnds cs) :=
  goes_markType h (by decide) lineEnds cs

theorem goes_predicateEnd (h : Steady r) (lineEnds : Bool) (cs : Chars) :
    Goes Passes cs (predicateEnd r lineEnds cs) :=
  (goes_anyWord cs).bind fun rest => goes_keywordType h "is" lineEnds rest

theorem goes_resultTypeEnd (h : Steady r) (lineEnds : Bool) (cs : Chars) :
    Goes Passes cs (resultTypeEnd r lineEnds cs) := by
  refine (Goes.or ?_ (goes_predicateEnd h _ cs)).or (h.typeEnd lineEnds cs)
  refine (goes_keyword "asserts" cs).bind fun rest => ?_
  exact (goes_predicateEnd h _ rest).or (.ite (goes_anyWord rest) .none)

theorem goes_resultEnd (h : Steady r) (lineEnds : Bool) (cs : Chars) :
    Goes Passes cs (resultEnd r lineEnds cs) :=
  (goes_mark (by decide) cs).bind fun rest => goes_resultTypeEnd h lineEnds rest

/-! ### Parameters -/

theorem goes_decoratorEnd (h : Steady r) (cs : Chars) : Goes Passes cs (decoratorEnd r cs) := by
  refine (goes_mark (by decide) cs).bind fun rest => ?_
  split
  · next inner hskip =>
    refine .enter (enters_of_skip hskip (by decide)) ?_
    exact (h.expression false inner).runs.leave fun _ => goes_parenthesis _
  · refine (goes_pathEnd rest).bind fun rest => ?_
    have hargument (cs : Chars) : Goes Passes cs
        ((r.expression false (optional (mark "...") cs)).map (·.2)) :=
      .after (onward_optional (goes_mark (by decide))) ((h.expression false _).map fun _ => rfl)
    refine .some (onward_optional fun rest => ?_)
    refine .after (onward_optional (goes_typeArgumentsEnd h)) ?_
    exact (goes_opening "(" rfl (by decide) _).group fun _ =>
      goes_listEnd true hargument ")" rfl (by decide) _

theorem passes_decorators (h : Steady r) (cs : Chars) : Passes cs (many (decoratorEnd r) cs) :=
  onward_many (goes_decoratorEnd h)

theorem goes_initialEnd (h : Steady r) (cs : Chars) : Goes Passes cs (initialEnd r cs) := by
  unfold initialEnd
  split
  · next rest hskip =>
    have hmark : Passes cs rest := Onward.trans (hskip ▸ passes_skip cs) (Moves.plain (by decide))
    exact .ite .none (.after hmark ((h.expression false rest).map fun _ => rfl))
  · exact .none

theorem goes_parameterEnd (h : Steady r) (cs : Chars) : Goes Passes cs (parameterEnd r cs) := by
  -- a modifier is one only in front of a pattern, which is read again behind it
  have hmodified (cs : Chars) : Goes Passes cs ((keywordAmong parameterModifiers cs).bind
      fun rest => (r.patternEnd rest).map fun _ => rest) :=
    (goes_keywordAmong _ cs).bind fun rest _ h =>
      (Option.map_eq_some_iff.1 h).choose_spec.2 ▸ Onward.refl rest
  refine .after (Onward.trans (passes_decorators h cs) (onward_many hmodified)) ?_
  refine .after (onward_optional (goes_mark (by decide))) ((h.patternEnd _).bind fun rest => ?_)
  have hoptional : Passes rest (optional (mark "?") rest) :=
    onward_optional (goes_mark (by decide))
  have hcolon := Onward.trans hoptional (onward_optional (goes_annotationEnd h false))
  exact .some (Onward.trans hcolon (onward_optional (goes_initialEnd h)))

theorem goes_parametersEnd (h : Steady r) (cs : Chars) : Goes Passes cs (parametersEnd r cs) :=
  (goes_opening "(" rfl (by decide) cs).group fun _ =>
    goes_listEnd false (goes_parameterEnd h) ")" rfl (by decide) _

theorem goes_signatureEnd (h : Steady r) (lineEnds : Bool) (cs : Chars) :
    Goes Passes cs (signatureEnd r lineEnds cs) :=
  .after (onward_optional (goes_typeParametersEnd h)) ((goes_parametersEnd h _).mapOn
    fun _ => onward_optional (goes_resultEnd h lineEnds))

/-! ### Patterns -/

theorem goes_patternPartEnd (h : Steady r) (cs : Chars) : Goes Passes cs (patternPartEnd r cs) := by
  unfold patternPartEnd
  split
  · next rest hmark => exact .after (goes_mark (by decide) cs rest hmark) (h.patternEnd rest)
  · exact (h.patternEnd cs).mapOn fun _ => onward_optional (goes_initialEnd h)

theorem goes_patternMemberEnd (h : Steady r) (cs : Chars) :
    Goes Passes cs (patternMemberEnd r cs) := by
  refine Goes.or ?_ ?_
  · exact (goes_propertyNameEnd h cs).bind fun rest =>
      (goes_mark (by decide) rest).bind (goes_patternPartEnd h)
  · split
    · next rest hmark => exact .after (goes_mark (by decide) cs rest hmark) (h.patternEnd rest)
    · exact (goes_anyWord cs).mapOn fun _ => onward_optional (goes_initialEnd h)

/-- **Patterns of variables.** -/
theorem goes_patternRule (h : Steady r) (cs : Chars) : Goes Passes cs (patternRule r cs) := by
  unfold patternRule
  split
  · next rest hskip =>
    refine .enter (enters_of_skip hskip (by decide)) ?_
    exact goes_listEnd true (goes_patternMemberEnd h) "\x7d" rfl (by decide) rest
  · next rest hskip =>
    refine .enter (enters_of_skip hskip (by decide)) ?_
    exact goes_listEnd true (goes_patternPartEnd h) "]" rfl (by decide) rest
  · exact goes_anyWord cs

/-! ### Members of object types -/

theorem goes_indexEnd (h : Steady r) (cs : Chars) : Goes Passes cs (indexEnd r cs) := by
  refine (goes_opening "[" rfl (by decide) cs).group fun rest => ?_
  refine (goes_anyWord _).runs.leave fun rest => ?_
  split
  · next behind hbehind =>
    exact .leaveAfter (goes_markType h (by decide) false _ behind hbehind).runs
      (goes_bracket behind)
  · refine (goes_keyword "in" _).runs.leave fun rest => ?_
    refine (h.typeEnd false _).runs.leave fun rest => ?_
    have hrenamed : Passes rest
        (optional (fun cs => (keyword "as" cs).bind (r.typeEnd false)) rest) :=
      onward_optional (goes_keywordType h "as" false)
    exact .leaveAfter hrenamed.runs (goes_bracket _)

theorem goes_optionalMark (cs : Chars) : Goes Passes cs (optionalMark cs) :=
  ((goes_mark (by decide) cs).or (goes_mark (by decide) cs)).or (goes_mark (by decide) cs)

theorem goes_typeMemberEnd (h : Steady r) (cs : Chars) : Goes Passes cs (typeMemberEnd r cs) := by
  refine ((((goes_keyword "new" cs).bind fun rest => goes_signatureEnd h true rest).or
    (goes_signatureEnd h true cs)).or ?_)
  refine .after (onward_many fun rest => ?_)
    (((goes_indexEnd h _).or (goes_propertyNameEnd h _)).mapOn fun rest => ?_)
  · refine ((goes_keywordAmong _ rest).or ?_).bind fun rest => .ite (.some (Onward.refl rest)) .none
    exact ((goes_mark (by decide) rest).or (goes_mark (by decide) rest)).bind (goes_keyword _)
  · refine Onward.trans (onward_optional goes_optionalMark) ?_
    dsimp only
    split
    · next behind hbehind => exact goes_signatureEnd h true _ behind hbehind
    · exact onward_optional (goes_annotationEnd h true)

theorem goes_separatedMemberEnd (h : Steady r) (cs : Chars) :
    Goes Runs cs (separatedMemberEnd r cs) := by
  -- members may end with semicolons, since they stand in braces
  have hseparator (cs : Chars) : Goes Runs cs ((mark "," cs).or (mark ";" cs)) :=
    (goes_comma cs).runs.or (goes_semicolon cs)
  unfold separatedMemberEnd
  split
  · next rest hmark => exact .some (hseparator cs rest hmark)
  · refine (goes_typeMemberEnd h cs).runs.bind fun rest => ?_
    refine ((goes_comma rest).runs.or (goes_endStatement false rest)).or ?_
    exact .ite (.some (Onward.refl rest)) .none

theorem goes_objectTypeEnd (h : Steady r) (cs : Chars) : Goes Passes cs (objectTypeEnd r cs) :=
  (goes_opening "\x7b" rfl (by decide) cs).group fun _ =>
    .leaveAfter (onward_many (goes_separatedMemberEnd h)) (goes_brace _)

/-! ### Types -/

theorem goes_tupleMemberEnd (h : Steady r) (cs : Chars) :
    Goes Passes cs (tupleMemberEnd r cs) := by
  have hspread : Passes cs (optional (mark "...") cs) := onward_optional (goes_mark (by decide))
  have hquestion (cs : Chars) : Passes cs (optional (mark "?") cs) :=
    onward_optional (goes_mark (by decide))
  refine .after hspread (Goes.or ?_ ((h.typeEnd false _).mapOn hquestion))
  exact (goes_anyWord _).bind fun rest => .after (hquestion rest) (goes_annotationEnd h false _)

theorem goes_functionTypeEnd (h : Steady r) (lineEnds : Bool) (cs : Chars) :
    Goes Passes cs (functionTypeEnd r lineEnds cs) := by
  refine .after (onward_optional (goes_typeParametersEnd h)) ?_
  refine (goes_parametersEnd h _).bind fun rest => ?_
  exact (goes_mark (by decide) rest).bind (goes_resultTypeEnd h lineEnds)

theorem goes_constructorTypeEnd (h : Steady r) (lineEnds : Bool) (cs : Chars) :
    Goes Passes cs (constructorTypeEnd r lineEnds cs) :=
  .after (onward_optional (goes_keyword "abstract"))
    ((goes_keyword "new" _).bind (goes_functionTypeEnd h lineEnds))

/-- The source of an import in parentheses, and something behind it. -/
theorem goes_imported {f : Chars → Option Chars} (hf : ∀ rest, Goes Leaves rest (f rest))
    (cs : Chars) : Goes Passes cs ((keyword "import" cs).bind fun rest =>
      (mark "(" rest).bind fun rest => (string rest).bind f) :=
  (goes_keyword "import" cs).bind fun rest =>
    (goes_opening "(" rfl (by decide) rest).group fun _ => (goes_string _).runs.leave hf

theorem goes_typeQueryEnd (h : Steady r) (cs : Chars) : Goes Passes cs (typeQueryEnd r cs) := by
  refine (goes_keyword "typeof" cs).bind fun rest => ?_
  refine ((goes_imported goes_parenthesis rest).or (goes_anyWord rest)).bind fun rest => ?_
  refine .some (Onward.trans (onward_many fun rest => ?_)
    (onward_optional (goes_typeArgumentsEnd h)))
  exact (goes_mark (by decide) rest).bind fun rest => (goes_anyWord rest).or (goes_privateName rest)

theorem goes_namedTypeEnd (h : Steady r) (cs : Chars) : Goes Passes cs (namedTypeEnd r cs) := by
  have hmembers (rest : Chars) : Goes Leaves rest ((mark ")" rest).map
      (many fun rest => (mark "." rest).bind anyWord)) := by
    intro behind hbehind
    obtain ⟨inner, hinner, rfl⟩ := Option.map_eq_some_iff.1 hbehind
    refine (goes_parenthesis rest inner hinner).passes (onward_many fun rest => ?_)
    exact (goes_mark (by decide) rest).bind goes_anyWord
  exact ((goes_imported hmembers cs).or (goes_pathEnd cs)).mapOn fun _ =>
    onward_optional (goes_typeArgumentsEnd h)

theorem goes_primaryTypeEnd (h : Steady r) (cs : Chars) :
    Goes Passes cs (primaryTypeEnd r cs) := by
  unfold primaryTypeEnd
  split
  · exact .none
  · next c rest hskip =>
    have hstart : Passes cs (c :: rest) := hskip ▸ passes_skip cs
    split_ifs with hparenthesis _ hbracket _ _ hminus
    · subst hparenthesis
      refine .enter (enters_of_skip hskip (by decide)) ?_
      exact (h.typeEnd false rest).runs.leave goes_parenthesis
    · exact .after hstart (goes_objectTypeEnd h _)
    · subst hbracket
      refine .enter (enters_of_skip hskip (by decide)) ?_
      exact goes_listEnd false (goes_tupleMemberEnd h) "]" rfl (by decide) rest
    · exact .after hstart (goes_stringHere _)
    · obtain ⟨depth, rfl⟩ := h.isReader
      refine .after hstart ((goes_templateHere (h.typeEnd false) ?_ _).map fun _ => rfl)
      exact .typeTemplate
    · subst hminus
      have hsign : Passes ('-' :: rest) rest := Moves.inert (by decide)
      exact .after (Onward.trans hstart (Onward.trans hsign (passes_skip rest)))
        (goes_numberHere _)
    · exact .after hstart (goes_numberHere _)
    · exact .after hstart ((goes_typeQueryEnd h _).or (goes_namedTypeEnd h _))

theorem goes_typeSuffixEnd (h : Steady r) (lineEnds : Bool) (cs : Chars) :
    Goes Passes cs (typeSuffixEnd r lineEnds cs) := by
  refine .ite ((goes_opening "[" rfl (by decide) cs).group fun _ => ?_) .none
  exact (goes_bracket _).or ((h.typeEnd false _).runs.leave goes_bracket)

theorem goes_typeOperandFrom (h : Steady r) (lineEnds : Bool) (fuel : ℕ) (cs : Chars) :
    Goes Passes cs (typeOperandFrom r lineEnds fuel cs) := by
  induction fuel generalizing cs with
  | zero => exact .none
  | succ fuel ih =>
    refine ((((goes_keywordAmong _ cs).bind ih).or ?_).or ((goes_functionTypeEnd h lineEnds cs).or
      (goes_constructorTypeEnd h lineEnds cs))).or ?_
    · refine (goes_keyword "infer" cs).bind fun rest => (goes_anyWord rest).mapOn fun _ => ?_
      exact onward_optional fun rest => (goes_keyword "extends" rest).bind ih
    · exact (goes_primaryTypeEnd h cs).mapOn fun _ => onward_many (goes_typeSuffixEnd h lineEnds)

theorem goes_typeOperandEnd (h : Steady r) (lineEnds : Bool) (cs : Chars) :
    Goes Passes cs (typeOperandEnd r lineEnds cs) :=
  goes_typeOperandFrom h lineEnds _ cs

theorem goes_typeOperator (cs : Chars) : Goes Passes cs (typeOperator cs) :=
  (goes_mark (by decide) cs).or (goes_mark (by decide) cs)

theorem goes_conditionEnd (h : Steady r) (cs : Chars) : Goes Passes cs (conditionEnd r cs) := by
  refine (goes_keyword "extends" cs).bind fun rest => (h.typeEnd false rest).bind fun rest => ?_
  refine (goes_mark (by decide) rest).bind fun rest => (h.typeEnd false rest).bind fun rest => ?_
  exact goes_markType h (by decide) false rest

/-- **Types.** -/
theorem goes_typeRule (h : Steady r) (lineEnds : Bool) (cs : Chars) :
    Goes Passes cs (typeRule r lineEnds cs) := by
  refine .after (onward_optional goes_typeOperator) ?_
  refine (goes_typeOperandEnd h lineEnds _).bind fun rest => ?_
  have hmore : Passes rest
      (many (fun cs => (typeOperator cs).bind (typeOperandEnd r lineEnds)) rest) :=
    onward_many fun rest => (goes_typeOperator rest).bind (goes_typeOperandEnd h lineEnds)
  refine .some (Onward.trans hmore ?_)
  split
  · exact onward_optional (goes_conditionEnd h)
  · exact Onward.refl _

end Source

end ModuleScaffold

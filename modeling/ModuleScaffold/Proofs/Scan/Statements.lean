import ModuleScaffold.Proofs.Scan.Expressions

/-!
# Statements and the scan of variables

What a statement leads the scan of variables over leaves as many brackets open as there were, if
the statement stands in brackets: outside brackets, its semicolon ends the list. So each reader
keeps the brackets in order, whatever the number of times that the text is nested.

Main statements:

* `ModuleScaffold.Source.goes_statement` – **statements**;
* `ModuleScaffold.Source.steady_reader` – **every reader keeps the brackets in order**.
-/

namespace ModuleScaffold

namespace Source

variable {r : Reader} {cs rest : Chars}

theorem Goes.otherTo {R : Chars → Chars → Prop} {x : Option Chars} (h : Goes R cs x)
    (start : Chars) : Goes R cs (x.map (otherTo start)) :=
  h.map fun _ => rfl

/-! ### Imports -/

theorem goes_importedNameEnd (cs : Chars) : Goes Passes cs (importedNameEnd cs) :=
  (goes_anyWord cs).or (goes_string cs)

theorem goes_specifier (cs : Chars) : Goes Passes cs (specifier cs) := by
  have hrenamed (cs : Chars) : Goes Passes cs
      ((importedNameEnd cs).bind fun rest => (keyword "as" rest).bind importedNameEnd) :=
    (goes_importedNameEnd cs).bind fun rest => (goes_keyword "as" rest).bind goes_importedNameEnd
  have hmarked {named : Chars → Option Chars} (h : ∀ cs, Goes Passes cs (named cs)) :
      Goes Passes cs ((keywordAmong ["type", "typeof"] cs).bind named) :=
    (goes_keywordAmong _ cs).bind h
  refine Goes.map ((Goes.or ?_ ?_).or (Goes.or ?_ ?_)) fun _ => rfl
  · exact (hmarked hrenamed).filter
  · exact (hrenamed cs).filter
  · exact (hmarked goes_importedNameEnd).filter
  · exact (goes_importedNameEnd cs).filter

theorem goes_specifiers (rest : Chars) : Goes Leaves rest (list false specifier "\x7d" rest) :=
  goes_list false goes_specifier "\x7d" rfl (by decide) rest

theorem goes_importGroup (cs : Chars) : Goes Passes cs (importGroup cs) := by
  unfold importGroup
  split
  · next rest hskip =>
    have hstar : Passes cs rest := Onward.trans (hskip ▸ passes_skip cs) (Moves.inert (by decide))
    refine .after hstar (Goes.give (x := (keyword "as" rest).bind anyWord) ?_ fun _ => rfl)
    exact (goes_keyword "as" rest).bind goes_anyWord
  · next rest hskip =>
    exact .enter (enters_of_skip hskip (by decide)) ((goes_specifiers rest).map fun _ => rfl)
  · exact .none

theorem goes_importClause (cs : Chars) : Goes Passes cs (importClause cs) := by
  unfold importClause
  split
  · next part rest hgroup => exact .some (goes_importGroup cs _ hgroup)
  · refine (goes_anyWord cs).bind fun rest => ?_
    dsimp only
    split
    · next more behind hmore =>
      exact .some (((goes_comma rest).bind goes_importGroup) (more, behind) hmore)
    · exact .some (Onward.refl rest)

theorem goes_attributesEnd (h : Steady r) (cs : Chars) : Goes Passes cs (attributesEnd r cs) :=
  (goes_keyword "with" cs).bind fun rest => (h.primary rest).map fun _ => rfl

theorem goes_fromClause (h : Steady r) (cs : Chars) : Goes Passes cs (fromClause r cs) := by
  refine (goes_keyword "from" cs).bind fun rest => (goes_string rest).bind fun rest => ?_
  exact .some (onward_optional (goes_attributesEnd h))

theorem goes_importFrom (h : Steady r) (typesOnly : Bool) (cs : Chars) :
    Goes Passes cs (importFrom r typesOnly cs) :=
  (goes_importClause cs).bind fun ⟨_, rest⟩ => (goes_fromClause h rest).give fun _ => rfl

theorem goes_importEffects (h : Steady r) (cs : Chars) :
    Goes Passes cs (importEffects r cs) :=
  (goes_string cs).bind fun _ => .some (onward_optional (goes_attributesEnd h))

theorem goes_importRequired (cs : Chars) : Goes Passes cs (importRequired cs) := by
  refine Goes.bind (x := (anyWord cs).bind (operatorMark "=")) ?_ fun rest => ?_
  · exact (goes_anyWord cs).bind (goes_operatorMark "=")
  · refine Goes.group (x := (keyword "require" rest).bind (mark "(")) ?_ fun rest => ?_
    · exact (goes_keyword "require" rest).approach (goes_opening "(" rfl (by decide))
    · refine Goes.give (x := (string rest).bind (mark ")")) ?_ fun _ => rfl
      exact (goes_string rest).runs.leave goes_parenthesis

theorem goes_importAliasEnd (cs : Chars) : Goes Passes cs (importAliasEnd cs) :=
  ((goes_anyWord cs).bind (goes_operatorMark "=")).bind goes_pathEnd

theorem goes_importStatement (h : Steady r) (start rest : Chars) :
    Goes Runs rest (importStatement r start rest) := by
  unfold importStatement
  extract_lets typed unmarked form
  have hform : Goes Passes rest form := by
    refine (Goes.or ?_ (goes_importFrom h false rest)).or (Goes.or ?_ (goes_importEffects h rest))
    · exact (goes_keyword "type" rest).bind (goes_importFrom h true)
    · exact (goes_keyword "typeof" rest).bind (goes_importFrom h false)
  have hunmarked : Passes rest unmarked := (goes_keywordAmong _ rest).getD (Onward.refl rest)
  have hall : Goes Passes rest ((form.or (importRequired rest)).or (importRequired unmarked)) :=
    (hform.or (goes_importRequired rest)).or (.after hunmarked (goes_importRequired unmarked))
  split
  · next form behind hread =>
    exact .after (hall _ hread).runs ((goes_endStatement false behind).map fun _ => rfl)
  · refine Goes.otherTo ?_ start
    exact (goes_importAliasEnd rest).runs.bind (goes_endStatement false)

/-! ### Variables -/

theorem goes_declarator (h : Steady r) (cs : Chars) : Goes Passes cs (declarator r cs) := by
  refine .after (passes_skip cs) ((h.patternEnd _).bind fun rest => ?_)
  have hmark : Passes rest (optional (mark "!") rest) := onward_optional (goes_mark (by decide))
  have htype := Onward.trans hmark (onward_optional (goes_annotationEnd h true))
  refine .after htype ?_
  dsimp only
  split
  · next behind hvalue =>
    refine .after (goes_operatorMark "=" _ behind hvalue) ?_
    exact (h.expression true behind).give fun _ => rfl
  · exact .some (Onward.refl _)

theorem goes_moreDeclarators (h : Steady r) (before : List Declarator) (cs : Chars) :
    Goes Passes cs (moreDeclarators r before cs) :=
  (goes_comma cs).bind fun rest => (goes_declarator h rest).give fun _ => rfl

theorem goes_declarators (h : Steady r) (cs : Chars) : Goes Passes cs (declarators r cs) :=
  (goes_declarator h cs).bind fun ⟨first, _⟩ =>
    .some (onward_extend (goes_moreDeclarators h) [first])

theorem goes_declaring (h : Steady r) (exported : Bool) (start rest : Chars) :
    Goes Runs rest (declaring r exported start rest) :=
  (goes_declarators h rest).runs.bind fun ⟨_, rest⟩ =>
    (goes_endStatement _ rest).give fun _ => rfl

/-! ### Declarations -/

theorem goes_functionDeclarationEnd (h : Steady r) (cs : Chars) :
    Goes Runs cs (functionDeclarationEnd r cs) := by
  have hstar : Passes cs (optional (mark "*") cs) := onward_optional (goes_mark (by decide))
  refine .after hstar.runs ((goes_anyWord _).runs.bind fun rest => ?_)
  refine (goes_signatureEnd h true rest).runs.bind fun rest => Goes.or ?_ ?_
  · exact ((goes_blockEnd h rest).mapOn passes_endBlock).runs
  · exact goes_endStatement false rest

theorem goes_classDeclarationEnd (h : Steady r) (cs : Chars) :
    Goes Passes cs (classDeclarationEnd r cs) :=
  (goes_anyWord cs).bind (goes_classRestEnd h)

theorem goes_interfaceEnd (h : Steady r) (cs : Chars) : Goes Passes cs (interfaceEnd r cs) := by
  refine (goes_anyWord cs).bind fun rest => ?_
  have hextended (cs : Chars) : Goes Passes cs
      ((keyword "extends" cs).bind (separatedEnd (namedTypeEnd r))) :=
    (goes_keyword "extends" cs).bind (goes_separatedEnd (goes_namedTypeEnd h))
  exact .after (Onward.trans (onward_optional (goes_typeParametersEnd h))
    (onward_optional hextended)) (goes_objectTypeEnd h _)

theorem goes_typeAliasEnd (h : Steady r) (cs : Chars) : Goes Runs cs (typeAliasEnd r cs) := by
  refine (goes_anyWord cs).runs.bind fun rest => ?_
  refine .after (onward_optional (goes_typeParametersEnd h)).runs ?_
  exact (goes_markType h (by decide) true _).runs.bind (goes_endStatement false)

theorem goes_enumMemberEnd (h : Steady r) (cs : Chars) : Goes Passes cs (enumMemberEnd r cs) :=
  (goes_propertyNameEnd h cs).mapOn fun _ => onward_optional (goes_initialEnd h)

theorem goes_enumEnd (h : Steady r) (cs : Chars) : Goes Passes cs (enumEnd r cs) := by
  refine Goes.group (x := (anyWord cs).bind (mark "\x7b")) ?_ fun rest => ?_
  · exact (goes_anyWord cs).approach (goes_opening "\x7b" rfl (by decide))
  · exact goes_listEnd false (goes_enumMemberEnd h) "\x7d" rfl (by decide) rest

theorem goes_namespaceEnd (h : Steady r) (cs : Chars) : Goes Passes cs (namespaceEnd r cs) := by
  refine ((goes_string cs).or (goes_pathEnd cs)).mapOn fun rest => ?_
  split
  · next behind hblock =>
    exact Onward.trans (goes_blockEnd h rest behind hblock) (passes_endBlock _)
  · exact Onward.refl rest

theorem goes_ambientEnd (h : Steady r) (cs : Chars) : Goes Runs cs (ambientEnd r cs) := by
  unfold ambientEnd
  split
  · next rest hkeyword =>
    exact (Goes.after (goes_keyword _ cs rest hkeyword)
      ((goes_blockEnd h rest).mapOn passes_endBlock)).runs
  · intro rest hrest
    obtain ⟨_, -, hstatement⟩ := Option.bind_eq_some_iff.1 hrest
    exact h.statementEnd cs rest hstatement

theorem goes_declarationEnd (h : Steady r) (text : String) (rest : Chars) :
    Goes Runs rest (declarationEnd r text rest) := by
  unfold declarationEnd
  refine .ite .none ?_
  split
  · exact goes_functionDeclarationEnd h rest
  · exact (goes_keyword "function" rest).runs.bind (goes_functionDeclarationEnd h)
  · exact ((goes_classDeclarationEnd h rest).mapOn passes_endBlock).runs
  · exact ((goes_keyword "class" rest).bind (goes_classDeclarationEnd h)).runs
  · exact (goes_interfaceEnd h rest).runs
  · exact goes_typeAliasEnd h rest
  · exact (goes_enumEnd h rest).runs
  · exact ((goes_keyword "enum" rest).bind (goes_enumEnd h)).runs
  · exact ((goes_namespaceEnd h rest).mapOn passes_endBlock).runs
  · exact (goes_namespaceEnd h rest).runs
  · exact goes_ambientEnd h rest
  · exact .none

/-! ### Exports -/

theorem goes_exportListEnd (h : Steady r) (cs : Chars) : Goes Runs cs (exportListEnd r cs) := by
  unfold exportListEnd
  extract_lets start
  have hstart : Passes cs start := onward_optional (goes_keyword "type")
  refine .after hstart.runs ?_
  split
  · next rest hskip =>
    have hstar : Passes _ rest := Onward.trans (hskip ▸ passes_skip _) (Moves.inert (by decide))
    have hrenamed (cs : Chars) : Goes Passes cs ((keyword "as" cs).bind importedNameEnd) :=
      (goes_keyword "as" cs).bind goes_importedNameEnd
    refine .after (Onward.trans hstar (onward_optional hrenamed)).runs ?_
    exact (goes_fromClause h _).runs.bind fun _ => goes_endStatement false _
  · next rest hskip =>
    intro behind hbehind
    obtain ⟨x, hlist, hbehind⟩ := Option.bind_eq_some_iff.1 hbehind
    have hpassed : Passes _ x.2 :=
      (enters_of_skip hskip (by decide)).leaves (goes_specifiers rest x hlist)
    have hfrom : Passes x.2 (optional (fun cs => (fromClause r cs).map (·.2)) x.2) :=
      onward_optional fun rest => (goes_fromClause h rest).map fun _ => rfl
    exact Onward.trans (Onward.trans hpassed hfrom).runs (goes_endStatement false _ behind hbehind)
  · exact .none

theorem goes_exportedValue (h : Steady r) (start rest : Chars) :
    Goes Runs rest (exportedValue r start rest) :=
  (h.expression true rest).runs.bind fun ⟨_, rest⟩ =>
    (goes_endStatement true rest).give fun _ => rfl

theorem goes_exportDefault (h : Steady r) (start rest : Chars) :
    Goes Runs rest (exportDefault r start rest) := by
  refine Goes.or (Goes.otherTo ?_ start) (goes_exportedValue h start rest)
  split
  · next w behind hword =>
    have hpassed : Passes rest behind :=
      Onward.trans (passes_decorators h rest) (goes_word _ _ hword)
    exact .ite (.after hpassed.runs (goes_declarationEnd h _ behind)) .none
  · exact .none

theorem goes_exportNamespaceEnd (cs : Chars) : Goes Runs cs (exportNamespaceEnd cs) :=
  ((goes_keyword "as" cs).bind (goes_keyword "namespace")).runs.bind fun rest =>
    (goes_anyWord rest).runs.bind (goes_endStatement false)

theorem goes_exportStatement (h : Steady r) (start rest : Chars) :
    Goes Runs rest (exportStatement r start rest) := by
  have hlisted : Goes Runs rest (((exportListEnd r rest).or (exportNamespaceEnd rest)).or
      ((keyword "import" rest).bind fun rest =>
        (importAliasEnd rest).bind (endStatement false))) := by
    refine ((goes_exportListEnd h rest).or (goes_exportNamespaceEnd rest)).or ?_
    exact (goes_keyword "import" rest).runs.bind fun rest =>
      (goes_importAliasEnd rest).runs.bind (goes_endStatement false)
  unfold exportStatement
  split
  · next behind hmark =>
    exact .after (goes_operatorMark "=" rest behind hmark).runs (goes_exportedValue h start behind)
  · split
    · next behind hbehind => exact .some (hlisted behind hbehind)
    · split
      · exact .none
      · next w behind hword =>
        have hpassed : Runs rest behind :=
          (Onward.trans (passes_decorators h rest) (goes_word _ _ hword)).runs
        refine .ite (.after hpassed (goes_exportDefault h start behind)) ?_
        split
        · next last hlast =>
          exact .some (Onward.trans hpassed (goes_declarationEnd h _ behind last hlast))
        · exact .ite (.after hpassed (goes_declaring h true start behind)) .none

/-! ### Control -/

theorem goes_conditionInParenthesesEnd (h : Steady r) (cs : Chars) :
    Goes Passes cs (conditionInParenthesesEnd r cs) := by
  refine (goes_opening "(" rfl (by decide) cs).group fun rest => ?_
  refine (goes_sequence h false rest).runs.leave fun ⟨_, rest⟩ => ?_
  exact .leaveAfter (onward_optional (goes_annotationEnd h false)).runs (goes_parenthesis _)

theorem goes_ifEnd (h : Steady r) (cs : Chars) : Goes Runs cs (ifEnd r cs) := by
  refine (goes_conditionInParenthesesEnd h cs).runs.bind fun rest => ?_
  refine (h.statementEnd rest).bind fun rest => .some (onward_optional fun rest => ?_)
  exact (goes_keyword "else" rest).runs.bind h.statementEnd

theorem goes_loopOverEnd (h : Steady r) (cs : Chars) : Goes Leaves cs (loopOverEnd r cs) := by
  have hbound : Goes Passes cs (((keywordAmong ["const", "let", "var"] cs).bind r.patternEnd).or
      ((r.operand false cs).map (·.2))) :=
    ((goes_keywordAmong _ cs).bind h.patternEnd).or ((h.operand false cs).map fun _ => rfl)
  refine hbound.runs.leave fun rest => (goes_keywordAmong _ rest).runs.leave fun rest => ?_
  exact (goes_sequence h false rest).runs.leave fun _ => goes_parenthesis _

theorem goes_loopWhileEnd (h : Steady r) (cs : Chars) : Goes Leaves cs (loopWhileEnd r cs) := by
  have hexpressions (cs : Chars) : Passes cs
      (optional (fun cs => (sequence r false cs).map (·.2)) cs) :=
    onward_optional fun rest => (goes_sequence h false rest).map fun _ => rfl
  have hbound : Goes Passes cs
      (((keywordAmong ["const", "let", "var"] cs).bind (declarators r)).map (·.2)) :=
    ((goes_keywordAmong _ cs).bind (goes_declarators h)).map fun _ => rfl
  have hstart : Passes cs ((((keywordAmong ["const", "let", "var"] cs).bind
      (declarators r)).map (·.2)).getD (optional (fun cs => (sequence r false cs).map (·.2)) cs)) :=
    hbound.getD (hexpressions cs)
  -- the semicolons of the head stand in its parentheses
  refine .leaveAfter hstart.runs ((goes_semicolon _).leave fun rest => ?_)
  refine .leaveAfter (hexpressions rest).runs ((goes_semicolon _).leave fun rest => ?_)
  exact .leaveAfter (hexpressions rest).runs (goes_parenthesis _)

theorem goes_forEnd (h : Steady r) (cs : Chars) : Goes Runs cs (forEnd r cs) := by
  refine .after (onward_optional (goes_keyword "await")).runs fun rest hrest => ?_
  obtain ⟨inner, hopen, hrest⟩ := Option.bind_eq_some_iff.1 hrest
  obtain ⟨behind, hhead, hrest⟩ := Option.bind_eq_some_iff.1 hrest
  have hpassed : Passes _ behind := (goes_opening "(" rfl (by decide) _ inner hopen).leaves
    (((goes_loopOverEnd h inner).or (goes_loopWhileEnd h inner)) behind hhead)
  have hbody : Runs behind rest := h.statementEnd behind rest hrest
  exact Onward.trans hpassed.runs hbody

theorem goes_doEnd (h : Steady r) (cs : Chars) : Goes Runs cs (doEnd r cs) := by
  refine (h.statementEnd cs).bind fun rest => ?_
  refine Goes.bind (x := (keyword "while" rest).bind (conditionInParenthesesEnd r)) ?_
    fun _ => .some (onward_optional (goes_endStatement false))
  exact ((goes_keyword "while" rest).bind (goes_conditionInParenthesesEnd h)).runs

theorem goes_caseEnd (h : Steady r) (cs : Chars) : Goes Runs cs (caseEnd r cs) := by
  have hlabel : Goes Passes cs (((keyword "case" cs).bind fun rest =>
      (sequence r false rest).map (·.2)).or (keyword "default" cs)) := by
    refine Goes.or ?_ (goes_keyword "default" cs)
    exact (goes_keyword "case" cs).bind fun rest => (goes_sequence h false rest).map fun _ => rfl
  have hcolon : Goes Passes cs ((((keyword "case" cs).bind fun rest =>
      (sequence r false rest).map (·.2)).or (keyword "default" cs)).bind (mark ":")) :=
    hlabel.bind fun rest => goes_mark (by decide) rest
  have hplain (rest : Chars) : Goes Runs rest
      (if (keywordAmong ["case", "default"] rest).isSome then none else r.statementEnd rest) :=
    .ite .none (h.statementEnd rest)
  exact hcolon.runs.bind fun _ => .some (onward_many hplain)

theorem goes_switchEnd (h : Steady r) (cs : Chars) : Goes Passes cs (switchEnd r cs) := by
  refine (goes_conditionInParenthesesEnd h cs).bind fun rest => ?_
  exact (goes_opening "\x7b" rfl (by decide) rest).group fun _ =>
    .leaveAfter (onward_many (goes_caseEnd h)) (goes_brace _)

theorem goes_tryEnd (h : Steady r) (cs : Chars) : Goes Passes cs (tryEnd r cs) := by
  unfold tryEnd
  extract_lets parameter caught
  have hparameter (rest : Chars) : Goes Passes rest (parameter rest) := by
    intro behind hbehind
    obtain ⟨named, hnamed, hbehind⟩ := Option.bind_eq_some_iff.1 hbehind
    obtain ⟨inner, hopen, hpattern⟩ := Option.bind_eq_some_iff.1 hnamed
    have hopened : Enters rest inner := goes_opening "(" rfl (by decide) rest inner hopen
    have hname : Passes inner named := h.patternEnd inner named hpattern
    have hcolon : Passes named (optional (annotationEnd r false) named) :=
      onward_optional (goes_annotationEnd h false)
    have hclosed : Leaves _ behind := goes_parenthesis _ behind hbehind
    exact hopened.leaves ((Onward.trans hname hcolon).runs.leaves hclosed)
  have hcaught (rest : Chars) : Goes Passes rest (caught rest) :=
    (goes_keyword "catch" rest).bind fun _ =>
      .after (onward_optional hparameter) (goes_blockEnd h _)
  refine (goes_blockEnd h cs).bind fun rest => ?_
  refine .some (Onward.trans (onward_optional hcaught) (onward_optional fun rest => ?_))
  exact (goes_keyword "finally" rest).bind (goes_blockEnd h)

theorem goes_returnEnd (h : Steady r) (cs : Chars) : Goes Runs cs (returnEnd r cs) := by
  unfold returnEnd
  split
  · next e rest hvalue =>
    have hpassed : Passes cs rest := Goes.ite (goes_sequence h true cs) .none (e, rest) hvalue
    exact .after hpassed.runs (goes_endStatement true rest)
  · exact goes_endStatement false cs

theorem goes_jumpEnd (cs : Chars) : Goes Runs cs (jumpEnd cs) := by
  unfold jumpEnd
  split
  · exact .after (onward_optional goes_anyWord).runs (goes_endStatement false _)
  · exact goes_endStatement false cs

theorem goes_controlEnd (h : Steady r) (text : String) (rest : Chars) :
    Goes Runs rest (controlEnd r text rest) := by
  have hloop : Goes Runs rest ((conditionInParenthesesEnd r rest).bind r.statementEnd) :=
    (goes_conditionInParenthesesEnd h rest).runs.bind h.statementEnd
  unfold controlEnd
  split
  · exact goes_ifEnd h rest
  · exact goes_forEnd h rest
  · exact hloop
  · exact hloop
  · exact goes_doEnd h rest
  · exact (goes_switchEnd h rest).runs
  · exact (goes_tryEnd h rest).runs
  · exact goes_returnEnd h rest
  · exact (goes_sequence h true rest).runs.bind fun _ => goes_endStatement true _
  · exact goes_jumpEnd rest
  · exact goes_jumpEnd rest
  · exact goes_endStatement false rest
  · exact .none

/-! ### Statements -/

theorem goes_expressionStatement (h : Steady r) (start : Chars) :
    Goes Runs start (expressionStatement r start) :=
  (goes_sequence h true start).runs.bind fun ⟨_, rest⟩ =>
    (goes_endStatement true rest).give fun _ => rfl

theorem goes_labelledEnd (h : Steady r) (rest : Chars) : Goes Runs rest (labelledEnd r rest) :=
  (goes_operatorMark ":" rest).runs.bind h.statementEnd

theorem goes_wordStatement (h : Steady r) (start : Chars) (text : String)
    (hrest : Runs start rest) : Goes Runs start (wordStatement r start text rest) := by
  have hexpression := goes_expressionStatement h start
  unfold wordStatement
  refine .ite (Goes.or (.after hrest (goes_importStatement h start rest)) hexpression)
    (.ite ?_ (.ite ?_ ?_))
  · exact .after hrest (goes_exportStatement h start rest)
  · exact .after hrest ((goes_controlEnd h text rest).otherTo start)
  · split
    · next behind hbehind =>
      exact .some (Onward.trans hrest (goes_declarationEnd h text rest behind hbehind))
    · refine .ite .none (.ite (Goes.or ?_ (.ite hexpression .none)) (Goes.or ?_ hexpression))
      · exact .after hrest (goes_declaring h false start rest)
      · exact .after hrest ((goes_labelledEnd h rest).otherTo start)

/-- **Statements.** -/
theorem goes_statement (h : Steady r) (cs : Chars) : Goes Runs cs (statement r cs) := by
  refine .after (passes_skip cs).runs ?_
  unfold statement
  dsimp only
  split
  · exact .none
  · next rest hskip =>
    have hsemicolon : Runs (skip cs) rest := hskip ▸ runs_semicolon rest
    exact .some hsemicolon
  · exact ((goes_blockEnd h (skip cs)).mapOn passes_endBlock).runs
  · split
    · next w rest hword =>
      have hpassed := Onward.trans (passes_decorators h (skip cs)) (goes_word _ _ hword)
      exact goes_wordStatement h (skip cs) _ hpassed.runs
    · exact .none
  · split
    · next w rest hword =>
      exact goes_wordStatement h (skip cs) _ (goes_wordHere _ _ hword).runs
    · exact goes_expressionStatement h (skip cs)

/-! ### Readers -/

theorem steady_none : Steady .none where
  isReader := ⟨0, rfl⟩
  expression _ _ := .none
  operand _ _ := .none
  primary _ := .none
  typeEnd _ _ := .none
  patternEnd _ := .none
  statementEnd _ := .none

/-- **One level more.** -/
theorem Steady.rules (h : Steady r) : Steady (rules r) where
  isReader := h.isReader.imp' Nat.succ fun _ hr => congrArg Source.rules hr
  expression := goes_expressionRule h
  operand := goes_operandRule h
  primary := goes_primaryRule h
  typeEnd := goes_typeRule h
  patternEnd := goes_patternRule h
  statementEnd cs := (goes_statement h cs).map fun _ => rfl

/-- **Every reader keeps the brackets in order.** -/
theorem steady_reader (depth : ℕ) : Steady (reader depth) := by
  induction depth with
  | zero => exact steady_none
  | succ depth ih => exact ih.rules

end Source

end ModuleScaffold

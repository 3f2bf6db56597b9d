import ModuleScaffold.Proofs.Depth.Expressions

/-!
# Statements for readers that agree

The rules for statements complete what one level of nesting adds: readers made from readers that
agree on shorter texts agree on texts of one character more. So the readers for two depths agree on
all texts that are shorter than both depths, since a text never needs more levels than it has
characters: how deep the rest of a source is nested does not change how a part of it is read.

Main statements:

* `ModuleScaffold.Source.agreeBelow_rules` – **one level more**;
* `ModuleScaffold.Source.agreeBelow_reader` – **the readers for two depths**.
-/

namespace ModuleScaffold

namespace Source

section Rules

variable {n : ℕ} {r r' : Reader}

theorem Alike.otherTo {m : ℕ} {x y : Option Chars} (h : Alike (Below m) x y) (start : Chars) :
    Alike (Gives Anything m) (x.map (otherTo start)) (y.map (otherTo start)) :=
  h.map fun _ hrest => ⟨rfl, hrest, trivial⟩

/-- A step and the end of the statement behind it. -/
theorem Alike.ended {m : ℕ} {x y : Option Chars} (h : Alike (Below m) x y)
    (afterExpression : Bool) :
    Alike (Below m) (x.bind (endStatement afterExpression))
      (y.bind (endStatement afterExpression)) :=
  h.bind fun rest hrest =>
    (alike_endStatement _ rest).mono fun _ hle => Nat.lt_of_le_of_lt hle hrest

/-! ### Imports -/

theorem alike_importedNameEnd (cs : Chars) :
    Alike (Below cs.length) (importedNameEnd cs) (importedNameEnd cs) :=
  (alike_anyWord cs).or (alike_string cs)

theorem alike_specifier (cs : Chars) :
    Alike (Gives Anything cs.length) (specifier cs) (specifier cs) := by
  have hrenamed (rest : Chars) : Alike (Below rest.length)
      ((importedNameEnd rest).bind fun rest => (keyword "as" rest).bind importedNameEnd)
      ((importedNameEnd rest).bind fun rest => (keyword "as" rest).bind importedNameEnd) :=
    (alike_importedNameEnd rest).bind fun _ h₁ => (alike_keyword "as" _).bind fun _ h₂ =>
      (alike_importedNameEnd _).below (by omega)
  have hmarked (named : Chars → Option Chars)
      (h : ∀ rest, Alike (Below rest.length) (named rest) (named rest)) : Alike (Below cs.length)
      ((keywordAmong ["type", "typeof"] cs).bind named)
      ((keywordAmong ["type", "typeof"] cs).bind named) :=
    (alike_keywordAmong _ cs).bind fun rest hlt => (h rest).below (Nat.le_of_lt hlt)
  refine Alike.map (P := Below cs.length) ?_ fun _ hlt => ⟨rfl, hlt, trivial⟩
  exact ((hmarked _ hrenamed).filter.or (hrenamed cs).filter).or
    ((hmarked _ alike_importedNameEnd).filter.or (alike_importedNameEnd cs).filter)

theorem alike_importGroup (cs : Chars) :
    Alike (Gives Anything cs.length) (importGroup cs) (importGroup cs) := by
  unfold importGroup
  split
  · next rest hskip =>
    have := length_lt_of_skip hskip
    refine Alike.bind (P := Below cs.length) ?_ fun _ hlt => .some ⟨hlt, trivial⟩
    exact (alike_keyword "as" rest).bind fun rest' _ => (alike_anyWord rest').below (by omega)
  · next rest hskip =>
    have := length_lt_of_skip hskip
    exact (list_alike false (by decide) fun rest' _ => alike_specifier rest').map
      fun x hx => ⟨rfl, hx.1.trans this, trivial⟩
  · exact .none

theorem alike_importClause (cs : Chars) :
    Alike (Gives Anything cs.length) (importClause cs) (importClause cs) := by
  unfold importClause
  split
  · next part rest hgroup => exact .some ⟨((alike_importGroup cs).gives _ hgroup).1, trivial⟩
  · refine (alike_anyWord cs).bind fun rest hrest => ?_
    split
    · next more behind hmore =>
      have hgroup := (alike_mark "," (by decide) rest).bind fun rest' hlt =>
        (alike_importGroup rest').within (Nat.le_of_lt hlt)
      exact .some ⟨(hgroup.gives _ hmore).1.trans hrest, trivial⟩
    · exact .some ⟨hrest, trivial⟩

theorem alike_attributesEnd (h : AgreeBelow n r r') (cs : Chars) (hcs : cs.length < n) :
    Alike (Below cs.length) (attributesEnd r cs) (attributesEnd r' cs) :=
  (alike_keyword "with" cs).bind fun rest hlt =>
    (h.primary rest (by omega)).map fun _ hx => ⟨rfl, hx.1.trans hlt⟩

theorem alike_fromClause (h : AgreeBelow n r r') (cs : Chars) (hcs : cs.length < n) :
    Alike (Gives Anything cs.length) (fromClause r cs) (fromClause r' cs) := by
  refine (alike_keyword "from" cs).bind fun rest hrest => ?_
  refine (alike_string rest).bind fun behind hbehind => ?_
  obtain ⟨hattributes, hle⟩ := optional_below behind fun rest' _ =>
    alike_attributesEnd h rest' (by omega)
  rw [← hattributes]
  exact .some ⟨by dsimp only; omega, trivial⟩

theorem alike_importFrom (h : AgreeBelow n r r') (typesOnly : Bool) (cs : Chars)
    (hcs : cs.length < n) :
    Alike (Gives Anything cs.length) (importFrom r typesOnly cs) (importFrom r' typesOnly cs) := by
  refine (alike_importClause cs).bind fun ⟨parts, rest⟩ ⟨hlt, _⟩ => ?_
  dsimp only at hlt ⊢
  exact (alike_fromClause h rest (by omega)).bind fun x hx => .some ⟨hx.1.trans hlt, trivial⟩

theorem alike_importEffects (h : AgreeBelow n r r') (cs : Chars) (hcs : cs.length < n) :
    Alike (Gives Anything cs.length) (importEffects r cs) (importEffects r' cs) := by
  refine (alike_string cs).bind fun behind hbehind => ?_
  obtain ⟨hattributes, hle⟩ := optional_below behind fun rest' _ =>
    alike_attributesEnd h rest' (by omega)
  rw [← hattributes]
  exact .some ⟨Nat.lt_of_le_of_lt hle hbehind, trivial⟩

theorem alike_importRequired (cs : Chars) :
    Alike (Gives Anything cs.length) (importRequired cs) (importRequired cs) := by
  refine Alike.bind (P := Below cs.length) ?_ fun rest hrest => ?_
  · exact (alike_anyWord cs).bind fun rest hlt =>
      (alike_operatorMark "=" rest).below (Nat.le_of_lt hlt)
  refine Alike.bind (P := Below rest.length) ?_ fun rest₂ hrest₂ => ?_
  · exact (alike_keyword "require" rest).bind fun rest' hlt =>
      (alike_mark _ (by decide) rest').below (Nat.le_of_lt hlt)
  refine Alike.bind (P := Below rest₂.length) ?_ fun rest₃ hrest₃ => ?_
  · exact (alike_string rest₂).bind fun rest' hlt =>
      (alike_mark _ (by decide) rest').below (Nat.le_of_lt hlt)
  exact .some ⟨by dsimp only; omega, trivial⟩

theorem alike_importAliasEnd (cs : Chars) :
    Alike (Below cs.length) (importAliasEnd cs) (importAliasEnd cs) := by
  refine Alike.bind (P := Below cs.length) ?_ fun rest hrest =>
    (alike_pathEnd rest).below (Nat.le_of_lt hrest)
  exact (alike_anyWord cs).bind fun rest hlt =>
    (alike_operatorMark "=" rest).below (Nat.le_of_lt hlt)

theorem alike_importStatement (h : AgreeBelow n r r') (start rest : Chars)
    (hrest : rest.length < n) :
    Alike (Gives Anything rest.length) (importStatement r start rest)
      (importStatement r' start rest) := by
  have hform := (((alike_keyword "type" rest).bind fun rest' hlt =>
      (alike_importFrom h true rest' (by omega)).within (Nat.le_of_lt hlt)).or
      (alike_importFrom h false rest hrest)).or
    (((alike_keyword "typeof" rest).bind fun rest' hlt =>
      (alike_importFrom h false rest' (by omega)).within (Nat.le_of_lt hlt)).or
      (alike_importEffects h rest hrest))
  have hunmarked : ((keywordAmong ["type", "typeof"] rest).getD rest).length ≤ rest.length :=
    length_optional_le ((alike_keywordAmong _ rest).mono fun _ => Nat.le_of_lt)
  have hread := (hform.or (alike_importRequired rest)).or
    ((alike_importRequired _).within hunmarked)
  unfold importStatement
  dsimp only
  rw [← hread.eq]
  split
  · next form behind hbehind =>
    have hlt : behind.length < rest.length := (hread.gives _ hbehind).1
    exact (alike_endStatement false behind).map fun _ hle =>
      ⟨rfl, Nat.lt_of_le_of_lt hle hlt, trivial⟩
  · exact ((alike_importAliasEnd rest).ended false).otherTo start

/-! ### Variables -/

theorem alike_declarator (h : AgreeBelow n r r') (cs : Chars) (hcs : cs.length < n) :
    Alike (Gives Anything cs.length) (declarator r cs) (declarator r' cs) := by
  have hle := length_skip_le cs
  refine (h.patternEnd (skip cs) (by omega)).bind fun behind hbehind => ?_
  have hmark := length_optional_mark_le "!" behind
  obtain ⟨hcolon, hle'⟩ := optional_below (optional (mark "!") behind) fun rest _ =>
    alike_annotationEnd h true rest (by omega)
  dsimp only
  rw [← hcolon]
  split
  · next rest hoperator =>
    have := (alike_operatorMark "=" _).gives _ hoperator
    refine (h.expression true rest (by omega)).bind fun x hx => ?_
    exact .some ⟨by have := hx.1; dsimp only; omega, trivial⟩
  · exact .some ⟨by dsimp only; omega, trivial⟩

theorem alike_moreDeclarators (h : AgreeBelow n r r') (before : List Declarator) (cs : Chars)
    (hcs : cs.length ≤ n) :
    Alike (Gives Anything cs.length) (moreDeclarators r before cs)
      (moreDeclarators r' before cs) := by
  refine (alike_mark _ (by decide) cs).bind fun rest hrest => ?_
  exact (alike_declarator h rest (by omega)).bind fun x hx => .some ⟨hx.1.trans hrest, trivial⟩

theorem alike_declarators (h : AgreeBelow n r r') (cs : Chars) (hcs : cs.length < n) :
    Alike (Gives Anything cs.length) (declarators r cs) (declarators r' cs) := by
  refine (alike_declarator h cs hcs).bind fun ⟨first, rest⟩ ⟨hlt, _⟩ => ?_
  dsimp only at hlt ⊢
  obtain ⟨heq, hle, -⟩ := extend_alike (P := Anything) (a := [first])
    (fun ds rest' (hle : rest'.length ≤ rest.length) _ =>
      alike_moreDeclarators h ds rest' (by omega)) trivial
  rw [← heq]
  exact .some ⟨Nat.lt_of_le_of_lt hle hlt, trivial⟩

theorem alike_declaring (h : AgreeBelow n r r') (exported : Bool) (start rest : Chars)
    (hrest : rest.length < n) :
    Alike (Gives Anything rest.length) (declaring r exported start rest)
      (declaring r' exported start rest) := by
  refine (alike_declarators h rest hrest).bind fun ⟨ds, behind⟩ ⟨hlt, _⟩ => ?_
  dsimp only at hlt ⊢
  exact (alike_endStatement _ behind).bind fun _ hle =>
    .some ⟨Nat.lt_of_le_of_lt hle hlt, trivial⟩

/-! ### Declarations -/

theorem alike_endedBlock (h : AgreeBelow n r r') (cs : Chars) (hcs : cs.length + 1 < n) :
    Alike (Below cs.length) ((blockEnd r cs).map endBlock) ((blockEnd r' cs).map endBlock) :=
  (alike_blockEnd h cs hcs).map fun rest hrest =>
    ⟨rfl, Nat.lt_of_le_of_lt (length_endBlock_le rest) hrest⟩

theorem alike_functionDeclarationEnd (h : AgreeBelow n r r') (cs : Chars) (hcs : cs.length < n) :
    Alike (Below cs.length) (functionDeclarationEnd r cs) (functionDeclarationEnd r' cs) := by
  have hle := length_optional_mark_le "*" cs
  refine ((alike_anyWord _).below hle).bind fun rest hrest => ?_
  refine (alike_signatureEnd h true rest (by omega)).bind fun rest' hrest' => ?_
  refine Alike.or ((alike_endedBlock h rest' (by omega)).below (by omega)) ?_
  exact (alike_endStatement false rest').mono fun _ _ => by omega

theorem alike_classDeclarationEnd (h : AgreeBelow n r r') (cs : Chars) (hcs : cs.length ≤ n) :
    Alike (Below cs.length) (classDeclarationEnd r cs) (classDeclarationEnd r' cs) :=
  (alike_anyWord cs).bind fun rest hlt =>
    (alike_classRestEnd h rest (by omega)).below (Nat.le_of_lt hlt)

theorem alike_interfaceEnd (h : AgreeBelow n r r') (cs : Chars) (hcs : cs.length ≤ n) :
    Alike (Below cs.length) (interfaceEnd r cs) (interfaceEnd r' cs) := by
  refine (alike_anyWord cs).bind fun rest hrest => ?_
  obtain ⟨htypes, hle⟩ := optional_below rest fun rest' _ =>
    alike_typeParametersEnd h rest' (by omega)
  dsimp only
  rw [← htypes]
  obtain ⟨hextends, hle'⟩ := optional_below (optional (typeParametersEnd r) rest) fun rest' _ =>
    (alike_keyword "extends" rest').bind fun behind hlt =>
      (separatedEnd_alike fun parent (hle : parent.length ≤ behind.length) =>
        alike_namedTypeEnd h parent (by omega)).below (Nat.le_of_lt hlt)
  rw [← hextends]
  exact (alike_objectTypeEnd h _ (by omega)).below (by omega)

theorem alike_typeAliasEnd (h : AgreeBelow n r r') (cs : Chars) (hcs : cs.length ≤ n) :
    Alike (Below cs.length) (typeAliasEnd r cs) (typeAliasEnd r' cs) := by
  refine (alike_anyWord cs).bind fun rest hrest => ?_
  obtain ⟨htypes, hle⟩ := optional_below rest fun rest' _ =>
    alike_typeParametersEnd h rest' (by omega)
  dsimp only
  rw [← htypes]
  exact ((alike_markType h _ (by decide) true _ (by omega)).below (by omega)).ended false

theorem alike_enumEnd (h : AgreeBelow n r r') (cs : Chars) (hcs : cs.length ≤ n) :
    Alike (Below cs.length) (enumEnd r cs) (enumEnd r' cs) := by
  refine Alike.bind (P := Below cs.length) ?_ fun rest hrest => ?_
  · exact (alike_anyWord cs).bind fun rest hlt =>
      (alike_mark _ (by decide) rest).below (Nat.le_of_lt hlt)
  · refine (listEnd_alike false (by decide) fun member _ => ?_).below (Nat.le_of_lt hrest)
    exact (alike_propertyNameEnd h member (by omega)).mapOptional fun rest' _ =>
      alike_initialEnd h rest' (by omega)

theorem alike_namespaceEnd (h : AgreeBelow n r r') (cs : Chars) (hcs : cs.length < n) :
    Alike (Below cs.length) (namespaceEnd r cs) (namespaceEnd r' cs) := by
  refine ((alike_string cs).or (alike_pathEnd cs)).map fun rest hrest => ?_
  have hblock := alike_blockEnd h rest (by omega)
  rw [← hblock.eq]
  split
  · next behind hbehind =>
    have := length_endBlock_le behind
    exact ⟨rfl, Nat.lt_of_le_of_lt this ((hblock.gives _ hbehind).trans hrest)⟩
  · exact ⟨rfl, hrest⟩

theorem alike_ambientEnd (h : AgreeBelow n r r') (cs : Chars) (hcs : cs.length + 2 < n) :
    Alike (Below cs.length) (ambientEnd r cs) (ambientEnd r' cs) := by
  unfold ambientEnd
  split
  · next rest hkeyword =>
    have hlt := (alike_keyword "global" cs).gives _ hkeyword
    exact (alike_endedBlock h rest (by omega)).below (Nat.le_of_lt hlt)
  · exact (alike_keywordAmong _ cs).bind fun _ _ => h.statementEnd cs hcs

theorem alike_declarationEnd (h : AgreeBelow n r r') (text : String) (rest : Chars)
    (hrest : rest.length + 2 < n) :
    Alike (Below rest.length) (declarationEnd r text rest) (declarationEnd r' text rest) := by
  have hblock {x y : Option Chars} (hx : Alike (Below rest.length) x y) :
      Alike (Below rest.length) (x.map endBlock) (y.map endBlock) :=
    hx.map fun rest' hlt => ⟨rfl, Nat.lt_of_le_of_lt (length_endBlock_le rest') hlt⟩
  refine .ite .none ?_
  split
  · exact alike_functionDeclarationEnd h rest (by omega)
  · exact (alike_keyword "function" rest).bind fun rest' hlt =>
      (alike_functionDeclarationEnd h rest' (by omega)).below (Nat.le_of_lt hlt)
  · exact hblock (alike_classDeclarationEnd h rest (by omega))
  · exact (alike_keyword "class" rest).bind fun rest' hlt =>
      (alike_classDeclarationEnd h rest' (by omega)).below (Nat.le_of_lt hlt)
  · exact alike_interfaceEnd h rest (by omega)
  · exact alike_typeAliasEnd h rest (by omega)
  · exact alike_enumEnd h rest (by omega)
  · exact (alike_keyword "enum" rest).bind fun rest' hlt =>
      (alike_enumEnd h rest' (by omega)).below (Nat.le_of_lt hlt)
  · exact hblock (alike_namespaceEnd h rest (by omega))
  · exact alike_namespaceEnd h rest (by omega)
  · exact alike_ambientEnd h rest hrest
  · exact .none

/-! ### Exports -/

theorem alike_exportListEnd (h : AgreeBelow n r r') (cs : Chars) (hcs : cs.length < n) :
    Alike (Below cs.length) (exportListEnd r cs) (exportListEnd r' cs) := by
  have hle := length_optional_keyword_le "type" cs
  unfold exportListEnd
  dsimp only
  split
  · next rest hskip =>
    have := length_lt_of_skip hskip
    have hrenamed : (optional (fun cs => (keyword "as" cs).bind importedNameEnd) rest).length ≤
        rest.length := by
      refine length_optional_le (Alike.mono ?_ fun _ => Nat.le_of_lt)
      exact (alike_keyword "as" rest).bind fun rest' hlt =>
        (alike_importedNameEnd rest').below (Nat.le_of_lt hlt)
    refine (alike_fromClause h _ (by omega)).bind fun x hx => ?_
    exact (alike_endStatement false x.2).mono fun _ hle => by have := hx.1; omega
  · next rest hskip =>
    have := length_lt_of_skip hskip
    refine (list_alike false (by decide) fun rest' _ => alike_specifier rest').bind
      fun ⟨specifiers, behind⟩ ⟨hlt, _⟩ => ?_
    dsimp only at hlt ⊢
    obtain ⟨hsource, hle'⟩ := optional_below behind fun rest' _ =>
      (alike_fromClause h rest' (by omega)).map fun x hx => ⟨rfl, hx.1⟩
    rw [← hsource]
    refine (alike_endStatement false _).mono fun _ hle'' => ?_
    exact Nat.lt_of_le_of_lt (hle''.trans hle') (by omega)
  · exact .none

theorem alike_exportedValue (h : AgreeBelow n r r') (start rest : Chars)
    (hrest : rest.length + 1 < n) :
    Alike (Gives Anything rest.length) (exportedValue r start rest)
      (exportedValue r' start rest) := by
  refine (h.expression true rest hrest).bind fun ⟨value, behind⟩ ⟨hlt, _⟩ => ?_
  dsimp only at hlt ⊢
  exact (alike_endStatement true behind).bind fun _ hle =>
    .some ⟨Nat.lt_of_le_of_lt hle hlt, trivial⟩

theorem alike_exportDefault (h : AgreeBelow n r r') (start rest : Chars)
    (hrest : rest.length + 1 < n) :
    Alike (Gives Anything rest.length) (exportDefault r start rest)
      (exportDefault r' start rest) := by
  refine Alike.or (Alike.otherTo ?_ start) (alike_exportedValue h start rest hrest)
  obtain ⟨hdecorators, hle⟩ := alike_decorators h rest (by omega)
  rw [← hdecorators]
  split
  · next w behind hword =>
    have : behind.length < (many (decoratorEnd r) rest).length := (alike_word _).gives _ hword
    exact .ite ((alike_declarationEnd h _ behind (by omega)).below (by omega)) .none
  · exact .none

theorem alike_exportNamespaceEnd (cs : Chars) :
    Alike (Below cs.length) (exportNamespaceEnd cs) (exportNamespaceEnd cs) := by
  refine Alike.bind (P := Below cs.length) ?_ fun rest hrest =>
    ((alike_anyWord rest).ended false).below (Nat.le_of_lt hrest)
  exact (alike_keyword "as" cs).bind fun rest hlt =>
    (alike_keyword "namespace" rest).below (Nat.le_of_lt hlt)

theorem alike_exportStatement (h : AgreeBelow n r r') (start rest : Chars)
    (hrest : rest.length + 2 < n) :
    Alike (Gives Anything rest.length) (exportStatement r start rest)
      (exportStatement r' start rest) := by
  have hlisted := ((alike_exportListEnd h rest (by omega)).or (alike_exportNamespaceEnd rest)).or
    ((alike_keyword "import" rest).bind fun rest' hlt =>
      ((alike_importAliasEnd rest').ended false).below (Nat.le_of_lt hlt))
  obtain ⟨hdecorators, hle⟩ := alike_decorators h rest (by omega)
  unfold exportStatement
  rw [← hlisted.eq, ← hdecorators]
  split
  · next behind hbehind =>
    have := (alike_operatorMark "=" rest).gives _ hbehind
    exact (alike_exportedValue h start behind (by omega)).within (by omega)
  · split
    · next behind hbehind => exact .some ⟨hlisted.gives behind hbehind, trivial⟩
    · split
      · exact .none
      · next w behind hword =>
        have : behind.length < (many (decoratorEnd r) rest).length := (alike_word _).gives _ hword
        refine .ite ((alike_exportDefault h start behind (by omega)).within (by omega)) ?_
        have hdeclared := alike_declarationEnd h (String.ofList w) behind (by omega)
        rw [← hdeclared.eq]
        split
        · next last hlast => exact .some ⟨(hdeclared.gives last hlast).trans (by omega), trivial⟩
        · exact .ite ((alike_declaring h true start behind (by omega)).within (by omega)) .none

/-! ### Control -/

theorem alike_conditionInParenthesesEnd (h : AgreeBelow n r r') (cs : Chars)
    (hcs : cs.length < n) : Alike (Below cs.length) (conditionInParenthesesEnd r cs)
      (conditionInParenthesesEnd r' cs) := by
  refine (alike_mark _ (by decide) cs).bind fun rest hrest => ?_
  refine (alike_sequence h false rest (by omega)).bind fun ⟨e, behind⟩ ⟨hlt, _⟩ => ?_
  dsimp only at hlt ⊢
  obtain ⟨hcolon, hle⟩ := optional_below behind fun rest' _ =>
    alike_annotationEnd h false rest' (by omega)
  rw [← hcolon]
  exact (alike_mark _ (by decide) _).below (by omega)

theorem alike_ifEnd (h : AgreeBelow n r r') (cs : Chars) (hcs : cs.length + 1 < n) :
    Alike (Below cs.length) (ifEnd r cs) (ifEnd r' cs) := by
  refine (alike_conditionInParenthesesEnd h cs (by omega)).bind fun rest hrest => ?_
  refine (h.statementEnd rest (by omega)).bind fun rest' hrest' => ?_
  refine Alike.lastOptional ?_ (hrest'.trans hrest)
  exact (alike_keyword "else" rest').bind fun behind hlt =>
    (h.statementEnd behind (by omega)).below (Nat.le_of_lt hlt)

theorem alike_loopOverEnd (h : AgreeBelow n r r') (cs : Chars) (hcs : cs.length + 1 < n) :
    Alike (Below cs.length) (loopOverEnd r cs) (loopOverEnd r' cs) := by
  refine Alike.bind (P := Below cs.length) (Alike.or ?_ ?_) fun rest hrest => ?_
  · exact (alike_keywordAmong _ cs).bind fun rest hlt =>
      (h.patternEnd rest (by omega)).below (Nat.le_of_lt hlt)
  · exact (h.operand false cs hcs).map fun _ hx => ⟨rfl, hx.1⟩
  · refine (alike_keywordAmong _ rest).bind fun rest' hrest' => ?_
    refine (alike_sequence h false rest' (by omega)).bind fun x hx => ?_
    exact (alike_mark _ (by decide) x.2).below (by have := hx.1; omega)

theorem alike_loopWhileEnd (h : AgreeBelow n r r') (cs : Chars) (hcs : cs.length + 1 < n) :
    Alike (Below cs.length) (loopWhileEnd r cs) (loopWhileEnd r' cs) := by
  have hexpressions (rest : Chars) (hrest : rest.length ≤ cs.length) :
      optional (fun cs => (sequence r false cs).map (·.2)) rest =
        optional (fun cs => (sequence r' false cs).map (·.2)) rest ∧
      (optional (fun cs => (sequence r false cs).map (·.2)) rest).length ≤ rest.length :=
    optional_below rest fun rest' _ =>
      (alike_sequence h false rest' (by omega)).map fun _ hx => ⟨rfl, hx.1⟩
  obtain ⟨hstart, hle⟩ := hexpressions cs (Nat.le_refl _)
  have hbound : Alike (·.length ≤ cs.length)
      (((keywordAmong ["const", "let", "var"] cs).bind (declarators r)).map (·.2))
      (((keywordAmong ["const", "let", "var"] cs).bind (declarators r')).map (·.2)) := by
    refine Alike.map (P := Gives Anything cs.length) ?_ fun x hx => ⟨rfl, Nat.le_of_lt hx.1⟩
    exact (alike_keywordAmong _ cs).bind fun rest hlt =>
      (alike_declarators h rest (by omega)).within (Nat.le_of_lt hlt)
  obtain ⟨heq, hle'⟩ := hbound.getD hle
  unfold loopWhileEnd
  dsimp only
  rw [← hstart, ← heq]
  refine ((alike_mark _ (by decide) _).below hle').bind fun rest hrest => ?_
  obtain ⟨hcondition, hle₂⟩ := hexpressions rest (Nat.le_of_lt hrest)
  rw [← hcondition]
  refine ((alike_mark _ (by decide) _).below hle₂).bind fun rest' hrest' => ?_
  obtain ⟨hstep, hle₃⟩ := hexpressions rest' (by omega)
  rw [← hstep]
  exact (alike_mark _ (by decide) _).below (by omega)

theorem alike_forEnd (h : AgreeBelow n r r') (cs : Chars) (hcs : cs.length + 1 < n) :
    Alike (Below cs.length) (forEnd r cs) (forEnd r' cs) := by
  have hle := length_optional_keyword_le "await" cs
  refine ((alike_mark _ (by decide) _).below hle).bind fun rest hrest => ?_
  refine ((alike_loopOverEnd h rest (by omega)).or (alike_loopWhileEnd h rest (by omega))).bind
    fun rest' hrest' => ?_
  exact (h.statementEnd rest' (by omega)).below (by omega)

theorem alike_doEnd (h : AgreeBelow n r r') (cs : Chars) (hcs : cs.length + 2 < n) :
    Alike (Below cs.length) (doEnd r cs) (doEnd r' cs) := by
  refine (h.statementEnd cs hcs).bind fun rest hrest => ?_
  refine Alike.bind (P := Below rest.length) ?_ fun rest' hrest' => ?_
  · exact (alike_keyword "while" rest).bind fun rest' hlt =>
      (alike_conditionInParenthesesEnd h rest' (by omega)).below (Nat.le_of_lt hlt)
  · have hle := length_optional_le (alike_endStatement false rest')
    exact .some (by omega)

theorem alike_caseEnd (h : AgreeBelow n r r') (cs : Chars) (hcs : cs.length + 1 < n) :
    Alike (Below cs.length) (caseEnd r cs) (caseEnd r' cs) := by
  refine Alike.bind (P := Below cs.length) ?_ fun rest hrest => ?_
  · refine Alike.bind (P := Below cs.length) (Alike.or ?_ (alike_keyword "default" cs))
      fun rest hrest => (alike_mark _ (by decide) rest).below (Nat.le_of_lt hrest)
    exact (alike_keyword "case" cs).bind fun rest hlt =>
      (alike_sequence h false rest (by omega)).map fun _ hx => ⟨rfl, hx.1.trans hlt⟩
  · obtain ⟨hstatements, hle⟩ := many_alike fun rest' (hle : rest'.length ≤ rest.length) =>
      Alike.ite (c := (keywordAmong ["case", "default"] rest').isSome) .none
        (h.statementEnd rest' (by omega))
    dsimp only
    rw [← hstatements]
    exact .some (Nat.lt_of_le_of_lt hle hrest)

theorem alike_switchEnd (h : AgreeBelow n r r') (cs : Chars) (hcs : cs.length < n) :
    Alike (Below cs.length) (switchEnd r cs) (switchEnd r' cs) := by
  refine (alike_conditionInParenthesesEnd h cs hcs).bind fun rest hrest => ?_
  refine (alike_mark _ (by decide) rest).bind fun rest' hrest' => ?_
  obtain ⟨hcases, hle⟩ := many_alike fun rest₂ (hle : rest₂.length ≤ rest'.length) =>
    alike_caseEnd h rest₂ (by omega)
  rw [← hcases]
  exact (alike_mark _ (by decide) _).below (by omega)

theorem alike_tryEnd (h : AgreeBelow n r r') (cs : Chars) (hcs : cs.length + 1 < n) :
    Alike (Below cs.length) (tryEnd r cs) (tryEnd r' cs) := by
  unfold tryEnd
  extract_lets parameter caught parameter' caught'
  have hparameter (rest : Chars) (hrest : rest.length ≤ cs.length) :
      Alike (Below rest.length) (parameter rest) (parameter' rest) := by
    refine Alike.bind (P := Below rest.length) ?_ fun rest' hrest' => ?_
    · exact (alike_mark _ (by decide) rest).bind fun rest' hlt =>
        (h.patternEnd rest' (by omega)).below (Nat.le_of_lt hlt)
    · obtain ⟨hcolon, hle⟩ := optional_below rest' fun rest₂ _ =>
        alike_annotationEnd h false rest₂ (by omega)
      rw [← hcolon]
      exact (alike_mark _ (by decide) _).below (by omega)
  have hcaught (rest : Chars) (hrest : rest.length ≤ cs.length) :
      Alike (Below rest.length) (caught rest) (caught' rest) := by
    refine (alike_keyword "catch" rest).bind fun rest' hrest' => ?_
    obtain ⟨hhead, hle⟩ := optional_below rest' fun rest₂ _ => hparameter rest₂ (by omega)
    rw [← hhead]
    exact (alike_blockEnd h _ (by omega)).below (by omega)
  refine (alike_blockEnd h cs hcs).bind fun rest hrest => ?_
  obtain ⟨hguarded, hle⟩ := optional_below rest fun rest' _ => hcaught rest' (by omega)
  rw [← hguarded]
  refine Alike.lastOptional ?_ (Nat.lt_of_le_of_lt hle hrest)
  exact (alike_keyword "finally" _).bind fun rest' _ =>
    (alike_blockEnd h rest' (by omega)).below (by omega)

theorem alike_returnEnd (h : AgreeBelow n r r') (cs : Chars) (hcs : cs.length + 1 < n) :
    Alike (·.length ≤ cs.length) (returnEnd r cs) (returnEnd r' cs) := by
  have hvalue := (alike_sequence h true cs hcs).ite .none (c := continues true cs)
  unfold returnEnd
  rw [← hvalue.eq]
  split
  · next e rest hrest =>
    have : rest.length < cs.length := (hvalue.gives _ hrest).1
    exact (alike_endStatement true rest).mono fun _ hle => hle.trans this.le
  · exact alike_endStatement false cs

theorem alike_jumpEnd (cs : Chars) : Alike (·.length ≤ cs.length) (jumpEnd cs) (jumpEnd cs) := by
  unfold jumpEnd
  refine (alike_endStatement false _).mono fun _ hle => hle.trans ?_
  split
  · exact length_optional_anyWord_le cs
  · exact Nat.le_refl _

theorem alike_controlEnd (h : AgreeBelow n r r') (text : String) (rest : Chars)
    (hrest : rest.length + 2 < n) :
    Alike (·.length ≤ rest.length) (controlEnd r text rest) (controlEnd r' text rest) := by
  have hloop : Alike (Below rest.length)
      ((conditionInParenthesesEnd r rest).bind r.statementEnd)
      ((conditionInParenthesesEnd r' rest).bind r'.statementEnd) :=
    (alike_conditionInParenthesesEnd h rest (by omega)).bind fun rest' hlt =>
      (h.statementEnd rest' (by omega)).below (Nat.le_of_lt hlt)
  unfold controlEnd
  split
  · exact (alike_ifEnd h rest (by omega)).mono fun _ => Nat.le_of_lt
  · exact (alike_forEnd h rest (by omega)).mono fun _ => Nat.le_of_lt
  · exact hloop.mono fun _ => Nat.le_of_lt
  · exact hloop.mono fun _ => Nat.le_of_lt
  · exact (alike_doEnd h rest hrest).mono fun _ => Nat.le_of_lt
  · exact (alike_switchEnd h rest (by omega)).mono fun _ => Nat.le_of_lt
  · exact (alike_tryEnd h rest (by omega)).mono fun _ => Nat.le_of_lt
  · exact alike_returnEnd h rest (by omega)
  · refine (alike_sequence h true rest (by omega)).bind fun x hx => ?_
    exact (alike_endStatement true x.2).mono fun _ hle => hle.trans hx.1.le
  · exact alike_jumpEnd rest
  · exact alike_jumpEnd rest
  · exact alike_endStatement false rest
  · exact .none

/-! ### Statements -/

theorem alike_expressionStatement (h : AgreeBelow n r r') (start : Chars)
    (hstart : start.length + 1 < n) :
    Alike (Gives Anything start.length) (expressionStatement r start)
      (expressionStatement r' start) := by
  refine (alike_sequence h true start hstart).bind fun ⟨value, rest⟩ ⟨hlt, _⟩ => ?_
  dsimp only at hlt ⊢
  exact (alike_endStatement true rest).bind fun _ hle =>
    .some ⟨Nat.lt_of_le_of_lt hle hlt, trivial⟩

theorem alike_labelledEnd (h : AgreeBelow n r r') (rest : Chars) (hrest : rest.length + 1 < n) :
    Alike (Below rest.length) (labelledEnd r rest) (labelledEnd r' rest) :=
  (alike_operatorMark ":" rest).bind fun rest' hlt =>
    (h.statementEnd rest' (by omega)).below (Nat.le_of_lt hlt)

theorem alike_wordStatement (h : AgreeBelow n r r') (start : Chars) (text : String)
    {rest : Chars} (hrest : rest.length < start.length) (hstart : start.length + 1 < n) :
    Alike (Gives Anything start.length) (wordStatement r start text rest)
      (wordStatement r' start text rest) := by
  have hexpression := alike_expressionStatement h start hstart
  have hdeclared := alike_declarationEnd h text rest (by omega)
  unfold wordStatement
  rw [← hdeclared.eq]
  refine .ite (Alike.or ?_ hexpression) (.ite ?_ (.ite ?_ ?_))
  · exact (alike_importStatement h start rest (by omega)).within hrest.le
  · exact (alike_exportStatement h start rest (by omega)).within hrest.le
  · refine Alike.otherTo ?_ start
    exact (alike_controlEnd h text rest (by omega)).mono fun _ hle => Nat.lt_of_le_of_lt hle hrest
  · split
    · next behind hbehind => exact .some ⟨(hdeclared.gives behind hbehind).trans hrest, trivial⟩
    · refine .ite .none (.ite (Alike.or ?_ (.ite hexpression .none)) (Alike.or ?_ hexpression))
      · exact (alike_declaring h false start rest (by omega)).within hrest.le
      · exact Alike.otherTo ((alike_labelledEnd h rest (by omega)).below hrest.le) start

/-- **Statements.** -/
theorem alike_statement (h : AgreeBelow n r r') (cs : Chars) (hcs : cs.length + 1 < n) :
    Alike (Gives Anything cs.length) (statement r cs) (statement r' cs) := by
  have hle := length_skip_le cs
  unfold statement
  dsimp only
  split
  · exact .none
  · next rest hskip => exact .some ⟨length_lt_of_skip hskip, trivial⟩
  · refine (alike_blockEnd h (skip cs) (by omega)).map fun rest hrest => ⟨rfl, ?_, trivial⟩
    exact Nat.lt_of_le_of_lt (length_endBlock_le rest) (hrest.trans_le hle)
  · obtain ⟨hdecorators, hle'⟩ := alike_decorators h (skip cs) (by omega)
    rw [← hdecorators]
    split
    · next w rest hword =>
      have : rest.length < (many (decoratorEnd r) (skip cs)).length := (alike_word _).gives _ hword
      exact (alike_wordStatement h (skip cs) _ (by omega) (by omega)).within hle
    · exact .none
  · split
    · next w rest hword =>
      have : rest.length < (skip cs).length := (alike_wordHere _).gives _ hword
      exact (alike_wordStatement h (skip cs) _ this (by omega)).within hle
    · exact (alike_expressionStatement h (skip cs) (by omega)).within hle

/-! ### Levels -/

/-- **One level more.** The rules made from readers that agree on shorter texts agree on texts of
one character more. -/
theorem agreeBelow_rules (h : AgreeBelow n r r') : AgreeBelow (n + 1) (rules r) (rules r') where
  expression lineEnds cs hcs := alike_expressionRule h lineEnds cs (by omega)
  operand lineEnds cs hcs := alike_operandRule h lineEnds cs (by omega)
  primary cs hcs := alike_primaryRule h cs (by omega)
  typeEnd lineEnds cs hcs := alike_typeRule h lineEnds cs (by omega)
  patternEnd cs hcs := alike_patternRule h cs (by omega)
  statementEnd cs hcs := (alike_statement h cs (by omega)).map fun _ hx => ⟨rfl, hx.1⟩

end Rules

/-- Any two readers agree where nothing is asked of them. -/
theorem agreeBelow_zero (r r' : Reader) : AgreeBelow 0 r r' where
  expression _ _ hcs := absurd hcs (Nat.not_lt_zero _)
  operand _ _ hcs := absurd hcs (Nat.not_lt_zero _)
  primary _ hcs := absurd hcs (Nat.not_lt_zero _)
  typeEnd _ _ hcs := absurd hcs (Nat.not_lt_zero _)
  patternEnd _ hcs := absurd hcs (Nat.not_lt_zero _)
  statementEnd _ hcs := absurd hcs (Nat.not_lt_zero _)

/-- Nothing is read where every rule gives nothing. -/
theorem agreeBelow_none (n : ℕ) : AgreeBelow n .none .none where
  expression _ _ _ := .none
  operand _ _ _ := .none
  primary _ _ := .none
  typeEnd _ _ _ := .none
  patternEnd _ _ := .none
  statementEnd _ _ := .none

/-- A reader agrees with itself on all texts: whatever remains is shorter than what it is given, and
what it reads follows the grammar. -/
theorem agreeBelow_reader_self (n depth : ℕ) : AgreeBelow n (reader depth) (reader depth) := by
  induction depth generalizing n with
  | zero => exact agreeBelow_none n
  | succ depth ih =>
    cases n with
    | zero => exact agreeBelow_zero _ _
    | succ n => exact agreeBelow_rules (ih n)

/-- **The readers for two depths** agree on the texts that are shorter than both. -/
theorem agreeBelow_reader (n k k' : ℕ) : AgreeBelow n (reader (n + k)) (reader (n + k')) := by
  induction n with
  | zero => exact agreeBelow_zero _ _
  | succ n ih =>
    rw [Nat.add_right_comm n 1 k, Nat.add_right_comm n 1 k']
    exact agreeBelow_rules ih

end Source

end ModuleScaffold

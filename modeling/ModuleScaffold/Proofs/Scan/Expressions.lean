import ModuleScaffold.Proofs.Scan.Types

/-!
# Expressions and the scan of variables

What an expression, a function or a class leads the scan of variables over leaves as many brackets
open as there were, if the rules for what is nested in it do so. The statements of a block stand in
its braces, so their semicolons do not end the list of variables.

Main statements:

* `ModuleScaffold.Source.goes_blockEnd` – blocks of statements;
* `ModuleScaffold.Source.goes_primaryRule`, `ModuleScaffold.Source.goes_operandRule`,
  `ModuleScaffold.Source.goes_expressionRule` – **expressions and their operands**.
-/

namespace ModuleScaffold

namespace Source

variable {r : Reader} {cs rest : Chars}

theorem Goes.leafTo {R : Chars → Chars → Prop} {x : Option Chars} (h : Goes R cs x) (kind : Kind)
    (start : Chars) : Goes R cs (x.map (leafTo kind start)) :=
  h.map fun _ => rfl

/-! ### Functions and classes -/

/-- **Blocks of statements.** -/
theorem goes_blockEnd (h : Steady r) (cs : Chars) : Goes Passes cs (blockEnd r cs) :=
  (goes_opening "\x7b" rfl (by decide) cs).group fun _ =>
    .leaveAfter (onward_many h.statementEnd) (goes_brace _)

theorem goes_functionBodyEnd (h : Steady r) (cs : Chars) : Goes Passes cs (functionBodyEnd r cs) :=
  (goes_signatureEnd h false cs).bind (goes_blockEnd h)

theorem goes_functionExpression (h : Steady r) (start rest : Chars) :
    Goes Passes rest (functionExpression r start rest) := by
  have hname : Passes rest (optional anyWord (optional (mark "*") rest)) :=
    Onward.trans (onward_optional (goes_mark (by decide))) (onward_optional goes_anyWord)
  exact (Goes.after hname (goes_functionBodyEnd h _)).leafTo _ _

theorem goes_fieldEnd (h : Steady r) (cs : Chars) : Goes Runs cs (fieldEnd r cs) := by
  refine .after (onward_optional (goes_annotationEnd h true)).runs (Goes.bind ?_ fun rest => ?_)
  · split
    · next behind hbehind =>
      have hvalue : Goes Passes behind ((r.expression true behind).map (·.2)) :=
        (h.expression true behind).map fun _ => rfl
      exact (Goes.after (goes_operatorMark "=" _ behind hbehind) hvalue).runs
    · exact .some (Onward.refl _)
  · exact (goes_endStatement true rest).or (.ite (.some (Onward.refl rest)) .none)

/-- The words and the star before the name of a member. -/
theorem passes_memberStart (p : Chars → Bool) (cs : Chars) :
    Passes cs (optional (mark "*") (many (fun cs => (keywordAmong classModifiers cs).bind
      fun rest => if p rest then some rest else none) cs)) := by
  refine Onward.trans (onward_many fun rest => ?_) (onward_optional (goes_mark (by decide)))
  exact (goes_keywordAmong _ rest).bind fun behind => .ite (.some (Onward.refl behind)) .none

theorem goes_namedMemberEnd (h : Steady r) (cs : Chars) :
    Goes Runs cs (namedMemberEnd r cs) := by
  have hstart := passes_memberStart
    (fun rest => (propertyNameEnd r rest).isSome || (operatorMark "*" rest).isSome) cs
  refine .after hstart.runs ?_
  refine ((goes_indexEnd h _).or (goes_propertyNameEnd h _)).runs.bind fun rest => ?_
  have hquestion : Passes rest (optional (mark "?" ·) rest) :=
    onward_optional (goes_mark (by decide))
  refine .after hquestion.runs ?_
  dsimp only
  split
  · next behind hbehind =>
    refine .after (goes_signatureEnd h true _ behind hbehind).runs (Goes.or ?_ ?_)
    · exact ((goes_blockEnd h behind).mapOn passes_endBlock).runs
    · exact goes_endStatement false behind
  · have hmark : Passes _ (optional (mark "!") (optional (mark "?" ·) rest)) :=
      onward_optional (goes_mark (by decide))
    exact .after hmark.runs (goes_fieldEnd h _)

theorem goes_classMemberEnd (h : Steady r) (cs : Chars) :
    Goes Runs cs (classMemberEnd r cs) := by
  unfold classMemberEnd
  split
  · next rest hmark => exact .some (goes_semicolon cs rest hmark)
  · refine .after (passes_decorators h cs).runs (Goes.or ?_ (goes_namedMemberEnd h _))
    exact ((goes_keyword "static" _).bind (goes_blockEnd h)).runs

theorem goes_classBodyEnd (h : Steady r) (cs : Chars) : Goes Passes cs (classBodyEnd r cs) :=
  (goes_opening "\x7b" rfl (by decide) cs).group fun _ =>
    .leaveAfter (onward_many (goes_classMemberEnd h)) (goes_brace _)

theorem passes_heritageEnd (h : Steady r) (cs : Chars) : Passes cs (heritageEnd r cs) := by
  unfold heritageEnd
  extract_lets parent extended
  have hparent (rest : Chars) : Goes Passes rest (parent rest) :=
    (h.operand false rest).mapOn fun _ => onward_optional (goes_typeArgumentsEnd h)
  have hextended : Passes cs extended := onward_optional fun rest =>
    (goes_keyword "extends" rest).bind (goes_separatedEnd hparent)
  exact Onward.trans hextended (onward_optional fun rest =>
    (goes_keyword "implements" rest).bind (goes_separatedEnd (h.typeEnd false)))

theorem goes_classRestEnd (h : Steady r) (cs : Chars) : Goes Passes cs (classRestEnd r cs) :=
  .after (Onward.trans (onward_optional (goes_typeParametersEnd h)) (passes_heritageEnd h _))
    (goes_classBodyEnd h _)

theorem goes_classExpression (h : Steady r) (start rest : Chars) :
    Goes Passes rest (classExpression r start rest) := by
  refine Goes.leafTo (Goes.or ?_ (goes_classRestEnd h rest)) _ _
  exact (goes_anyWord rest).bind fun behind => .ite .none (goes_classRestEnd h behind)

/-! ### Arrays and objects -/

theorem goes_item (h : Steady r) (cs : Chars) : Goes Passes cs (item r cs) := by
  unfold item
  split
  · next rest hmark =>
    exact .after (goes_mark (by decide) cs rest hmark) ((h.expression false rest).map fun _ => rfl)
  · exact h.expression false cs

theorem goes_objectMethod (h : Steady r) (start cs : Chars) :
    Goes Passes cs (objectMethod r start cs) := by
  have hstart := passes_memberStart
    (fun rest => (propertyNameEnd r rest).isSome || (operatorMark "*" rest).isSome) cs
  refine .after hstart ((goes_propertyNameEnd h _).bind fun rest => ?_)
  have hquestion : Passes rest (optional (mark "?") rest) := onward_optional (goes_mark (by decide))
  exact .after hquestion ((goes_functionBodyEnd h _).give fun _ => rfl)

theorem goes_objectPair (h : Steady r) (start : Chars) :
    Goes Passes start (objectPair r start) := by
  refine (goes_propertyNameEnd h start).bind fun rest => ?_
  refine Goes.bind (x := (mark ":" rest).bind (r.expression false)) ?_ fun _ =>
    .some (Onward.refl _)
  exact (goes_mark (by decide) rest).bind (h.expression false)

theorem goes_objectMember (h : Steady r) (cs : Chars) : Goes Passes cs (objectMember r cs) := by
  have hmember : Goes Passes cs
      ((objectPair r (skip cs)).or (objectMethod r (skip cs) (skip cs))) :=
    .after (passes_skip cs) ((goes_objectPair h _).or (goes_objectMethod h _ _))
  unfold objectMember
  dsimp only
  split
  · next rest hmark =>
    exact .after (goes_mark (by decide) cs rest hmark) ((h.expression false rest).map fun _ => rfl)
  · split
    · next w rest hword =>
      have hname : Passes cs rest := Onward.trans (passes_skip cs) (goes_wordHere _ _ hword)
      exact .ite (.some hname) hmember
    · exact hmember

/-! ### Members, calls and other things behind an expression -/

theorem goes_sequence (h : Steady r) (lineEnds : Bool) (cs : Chars) :
    Goes Passes cs (sequence r lineEnds cs) := by
  have hmore (rest : Chars) : Goes Passes rest
      ((mark "," rest).bind fun rest => (r.expression lineEnds rest).map (·.2)) :=
    (goes_comma rest).bind fun rest => (h.expression lineEnds rest).map fun _ => rfl
  refine (h.expression lineEnds cs).bind fun ⟨first, rest⟩ => ?_
  dsimp only
  split
  · exact .some (Onward.refl rest)
  · next behind hbehind =>
    exact .some (Onward.trans (hmore rest behind hbehind) (onward_many hmore))

theorem goes_memberName (cs : Chars) : Goes Passes cs ((anyWord cs).or (privateName cs)) :=
  (goes_anyWord cs).or (goes_privateName cs)

theorem goes_memberStep (h : Steady r) (e : Expr) (cs : Chars) :
    Goes Passes cs (memberStep r e cs) := by
  unfold memberStep
  split
  · next rest hskip =>
    have hpoint : Passes cs rest := Onward.trans (hskip ▸ passes_skip cs) (Moves.inert (by decide))
    split
    · next behind hname => exact .some (Onward.trans hpoint (goes_memberName rest behind hname))
    · exact .none
  · next rest hskip =>
    refine .enter (enters_of_skip hskip (by decide)) ?_
    exact (goes_sequence h false rest).runs.leave fun _ => (goes_bracket _).leafTo _ _
  · exact .none

theorem goes_arguments (h : Steady r) (cs : Chars) : Goes Leaves cs (arguments r cs) :=
  goes_list true (goes_item h) ")" rfl (by decide) cs

theorem goes_callFrom (h : Steady r) (e : Expr) (typed : Bool) (cs : Chars) :
    Goes Leaves cs (callFrom r e typed cs) :=
  (goes_arguments h cs).map fun _ => rfl

theorem goes_optionalStep (h : Steady r) (e : Expr) (cs : Chars) :
    Goes Passes cs (optionalStep r e cs) := by
  refine (goes_mark (by decide) cs).bind fun rest => .ite .none ?_
  split
  · next inner hskip => exact .enter (enters_of_skip hskip (by decide)) (goes_callFrom h _ _ _)
  · exact goes_memberStep h e rest
  · refine (goes_typeArgumentsEnd h rest).bind fun rest => ?_
    exact (goes_opening "(" rfl (by decide) rest).group fun _ => goes_callFrom h _ _ _
  · split
    · next behind hname => exact .some (goes_memberName rest behind hname)
    · exact .none

/-- A template with expressions. -/
theorem goes_template (h : Steady r) (cs : Chars) :
    Goes Passes cs (templateHere (fun cs => (sequence r false cs).map (·.2)) cs) := by
  obtain ⟨depth, rfl⟩ := h.isReader
  refine goes_templateHere (fun rest => ?_) .template cs
  exact (goes_sequence h false rest).map fun _ => rfl

theorem goes_suffixStep (h : Steady r) (lineEnds : Bool) (e : Expr) (cs : Chars) :
    Goes Passes cs (suffixStep r lineEnds e cs) := by
  have hskip := passes_skip cs
  unfold suffixStep
  split
  · exact goes_memberStep h e cs
  · exact goes_memberStep h e cs
  · next rest hskip => exact .enter (enters_of_skip hskip (by decide)) (goes_callFrom h _ _ _)
  · exact goes_optionalStep h e cs
  · refine (goes_typeArgumentsEnd h cs).bind fun rest => ?_
    split
    · next behind hmark =>
      exact .enter (goes_opening "(" rfl (by decide) rest behind hmark) (goes_callFrom h _ _ _)
    · exact .ite (.some (Onward.refl rest)) .none
  · next rest heq => exact .after (heq ▸ hskip) ((goes_template h _).map fun _ => rfl)
  · next rest heq =>
    have hmark : Passes cs rest := Onward.trans (heq ▸ hskip) (Moves.inert (by decide))
    exact .ite .none (.some hmark)
  · exact .none

/-! ### Expressions without operators -/

theorem goes_newExpression (h : Steady r) (start rest : Chars) :
    Goes Passes rest (newExpression r start rest) := by
  unfold newExpression
  split
  · next behind htarget =>
    exact .some (((goes_mark (by decide) rest).bind (goes_keyword _)) behind htarget)
  · refine (h.primary rest).bind fun ⟨made, rest⟩ => ?_
    refine .after (onward_extend (goes_memberStep h) made) ?_
    dsimp only
    generalize (extend (memberStep r) made rest).2 = behind
    have htyped : Passes behind ((typeArgumentsEnd r behind).getD behind) :=
      onward_optional (goes_typeArgumentsEnd h)
    refine .after htyped ?_
    split
    · next hcall =>
      exact .some ((goes_opening "(" rfl (by decide) _).group (fun _ => goes_arguments h _) _ hcall)
    · exact .some (Onward.refl _)

theorem goes_parenthesizedExpression (h : Steady r) (start rest : Chars) :
    Goes Leaves rest (parenthesizedExpression r start rest) := by
  refine (goes_sequence h false rest).runs.leave fun ⟨inner, rest⟩ => ?_
  have hcolon : Passes rest (optional (annotationEnd r false) rest) :=
    onward_optional (goes_annotationEnd h false)
  exact .leaveAfter hcolon.runs ((goes_parenthesis _).give fun _ => rfl)

theorem goes_wordExpression (h : Steady r) (start : Chars) (text : String) (rest : Chars) :
    Goes Passes rest (wordExpression r start text rest) := by
  have hword : ∀ kind, Goes Passes rest (some (leafTo kind start rest)) :=
    fun _ => .some (Onward.refl rest)
  unfold wordExpression
  split
  · exact hword _
  · exact hword _
  · exact hword _
  · exact hword _
  · exact hword _
  · exact hword _
  · exact goes_functionExpression h start rest
  · exact goes_classExpression h start rest
  · exact .ite (hword _) (goes_newExpression h start rest)
  · split
    · next behind hfunction =>
      exact .after (Goes.ite (goes_keyword "function" rest) .none behind hfunction)
        (goes_functionExpression h start behind)
    · exact hword _
  · split
    · next behind hmeta =>
      exact .some (((goes_mark (by decide) rest).bind (goes_keyword _)) behind hmeta)
    · exact .ite (hword _) .none
  · exact .none
  · exact .none
  · exact .none
  · exact .none
  · exact .none
  · exact hword _

/-- **Expressions without operators.** -/
theorem goes_primaryRule (h : Steady r) (cs : Chars) : Goes Passes cs (primaryRule r cs) := by
  have hstart := passes_skip cs
  unfold primaryRule
  dsimp only
  split
  · exact .none
  · next c rest hskip =>
    rw [hskip] at hstart ⊢
    split_ifs with hparenthesis hbracket hbrace
    · subst hparenthesis
      exact .enter (enters_of_skip hskip (by decide)) (goes_parenthesizedExpression h _ _)
    · subst hbracket
      refine .enter (enters_of_skip hskip (by decide)) ?_
      exact (goes_list true (goes_item h) "]" rfl (by decide) rest).map fun _ => rfl
    · subst hbrace
      refine .enter (enters_of_skip hskip (by decide)) ?_
      exact (goes_list true (goes_objectMember h) "\x7d" rfl (by decide) rest).map fun _ => rfl
    · exact .after hstart ((goes_stringHere _).leafTo _ _)
    · exact .after hstart ((goes_template h _).map fun _ => rfl)
    · exact .after hstart ((goes_regexHere _).map fun _ => rfl)
    · exact .after hstart ((goes_numberHere _).leafTo _ _)
    · refine .after (Onward.trans hstart (passes_decorators h _)) ?_
      exact (goes_keyword "class" _).bind fun _ => goes_classExpression h _ _
    · split
      · next w behind hword =>
        exact .after (Onward.trans hstart (goes_wordHere _ _ hword)) (goes_wordExpression h _ _ _)
      · exact .none

/-! ### Operands -/

theorem goes_suffixed (h : Steady r) (lineEnds : Bool) (cs : Chars) :
    Goes Passes cs (suffixed r lineEnds cs) :=
  (goes_primaryRule h cs).mapOn fun ⟨e, _⟩ => onward_extend (goes_suffixStep h lineEnds) e

theorem goes_counted (h : Steady r) (lineEnds : Bool) (cs : Chars) :
    Goes Passes cs (counted r lineEnds cs) := by
  refine (goes_suffixed h lineEnds cs).bind fun ⟨e, rest⟩ => ?_
  dsimp only
  split
  · next behind hmark =>
    have hcounted := ((goes_operatorMark "++" rest).or (goes_operatorMark "--" rest)) behind hmark
    refine .some ?_
    split
    · exact hcounted
    · exact Onward.refl rest
  · exact .some (Onward.refl rest)

theorem goes_prefixed (h : Steady r) (lineEnds : Bool) (start mark rest : Chars) :
    Goes Passes rest (prefixed r lineEnds start mark rest) :=
  (h.operand lineEnds rest).map fun _ => rfl

/-- **Operands.** -/
theorem goes_operandRule (h : Steady r) (lineEnds : Bool) (cs : Chars) :
    Goes Passes cs (operandRule r lineEnds cs) := by
  have hcounted := goes_counted h lineEnds (skip cs)
  refine .after (passes_skip cs) ?_
  unfold operandRule
  dsimp only
  split
  · next m rest hoperator =>
    have hmark : Passes (skip cs) rest := goes_operator _ _ hoperator
    refine .ite (.after hmark (goes_prefixed h lineEnds _ _ _))
      (.ite ?_ (.ite ?_ (.ite hcounted .none)))
    · exact .after hmark ((h.operand lineEnds rest).map fun _ => rfl)
    · refine .after hmark ((h.typeEnd false rest).bind fun rest => ?_)
      refine (goes_mark (by decide) rest).bind fun rest => ?_
      exact (h.operand lineEnds rest).give fun _ => rfl
  · split
    · next w rest hword =>
      have hpassed : Passes (skip cs) rest := goes_wordHere _ _ hword
      refine .ite (.after hpassed (goes_prefixed h lineEnds _ _ _)) (.ite ?_ hcounted)
      exact .after hpassed ((h.operand lineEnds rest).map fun _ => rfl)
    · exact hcounted

theorem goes_binaryStep (h : Steady r) (lineEnds : Bool) (e : Expr) (cs : Chars) :
    Goes Passes cs (binaryStep r lineEnds e cs) := by
  have hoperand (rest : Chars) : Goes Passes rest
      ((operandRule r lineEnds rest).map fun x => leafTo .binary e.start x.2) :=
    (goes_operandRule h lineEnds rest).map fun _ => rfl
  unfold binaryStep
  split
  · next m rest hoperator => exact .ite (.after (goes_operator _ _ hoperator) (hoperand rest)) .none
  · split
    · exact .none
    · next w rest hword =>
      have hpassed : Passes cs rest := goes_word _ _ hword
      have htype (kind : Kind) : Goes Passes cs
          ((r.typeEnd false rest).map (leafTo kind e.start)) :=
        .after hpassed ((h.typeEnd false rest).leafTo _ _)
      refine .ite (.after hpassed (hoperand rest)) (.ite (.ite (htype _) .none) ?_)
      exact .ite (.ite (htype _) .none) .none

theorem goes_privateTest (h : Steady r) (lineEnds : Bool) (cs : Chars) :
    Goes Passes cs (privateTest r lineEnds cs) := by
  refine ((goes_privateName cs).bind (goes_keyword "in")).bind fun rest => ?_
  exact (h.operand lineEnds rest).give fun _ => rfl

theorem goes_chain (h : Steady r) (lineEnds : Bool) (cs : Chars) :
    Goes Passes cs (chain r lineEnds cs) :=
  ((goes_operandRule h lineEnds cs).or (goes_privateTest h lineEnds cs)).mapOn fun ⟨e, _⟩ =>
    onward_extend (goes_binaryStep h lineEnds) e

/-! ### Choices and assignments -/

theorem goes_alternativesEnd (h : Steady r) (lineEnds : Bool)
    {first : Chars → Option (Expr × Chars)} (hfirst : ∀ rest, Goes Passes rest (first rest))
    (cs : Chars) : Goes Passes cs (alternativesEnd r lineEnds first cs) := by
  refine (hfirst cs).bind fun ⟨_, rest⟩ => (goes_mark (by decide) rest).bind fun rest => ?_
  exact (h.expression lineEnds rest).give fun _ => rfl

theorem goes_choice (h : Steady r) (lineEnds : Bool) (cs : Chars) :
    Goes Passes cs (choice r lineEnds cs) := by
  refine (goes_chain h lineEnds cs).bind fun ⟨e, rest⟩ => ?_
  dsimp only
  split
  · exact .some (Onward.refl rest)
  · next behind hmark =>
    have hshort := goes_alternativesEnd h lineEnds (goes_chain h false) behind
    have hlong := goes_alternativesEnd h lineEnds (h.expression false) behind
    refine .after (goes_operatorMark "?" rest behind hmark) ?_
    exact (hshort.filter.or (hlong.or hshort)).give fun _ => rfl

theorem goes_assignment (h : Steady r) (lineEnds : Bool) (cs : Chars) :
    Goes Passes cs (assignment r lineEnds cs) := by
  refine (goes_choice h lineEnds cs).bind fun ⟨e, rest⟩ => ?_
  dsimp only
  split
  · next m behind hoperator =>
    have hvalue (kind : Kind) : Goes Passes rest ((r.expression lineEnds behind).bind
        fun x => some (leafTo kind e.start x.2)) :=
      .after (goes_operator rest _ hoperator)
        ((h.expression lineEnds behind).give fun _ => rfl)
    exact .ite (hvalue _) (.ite (hvalue _) (.some (Onward.refl rest)))
  · exact .some (Onward.refl rest)

theorem goes_patternAssignment (h : Steady r) (lineEnds : Bool) (cs : Chars) :
    Goes Passes cs (patternAssignment r lineEnds cs) := by
  refine (h.patternEnd cs).bind fun rest => ?_
  refine Goes.bind (x := (operatorMark "=" rest).bind (r.expression lineEnds)) ?_
    fun _ => .some (Onward.refl _)
  exact (goes_operatorMark "=" rest).bind (h.expression lineEnds)

/-! ### Arrow functions -/

theorem goes_arrowHeadEnd (h : Steady r) (cs : Chars) : Goes Passes cs (arrowHeadEnd r cs) := by
  unfold arrowHeadEnd
  split
  · next rest hhead =>
    exact .some (((goes_signatureEnd h false cs).bind (goes_operatorMark "=>")) rest hhead)
  · exact (goes_anyWord cs).bind (goes_operatorMark "=>")

theorem goes_arrow (h : Steady r) (lineEnds : Bool) (cs : Chars) :
    Goes Passes cs (arrow r lineEnds cs) := by
  have hasynchronous : Goes Passes cs ((keyword "async" cs).bind fun rest =>
      if continues true rest then arrowHeadEnd r rest else none) :=
    (goes_keyword "async" cs).bind fun rest => .ite (goes_arrowHeadEnd h rest) .none
  refine (hasynchronous.or (goes_arrowHeadEnd h cs)).bind fun rest => ?_
  split
  · exact (goes_blockEnd h rest).give fun _ => rfl
  · exact (h.expression lineEnds rest).give fun _ => rfl

theorem goes_yield (h : Steady r) (lineEnds : Bool) (cs : Chars) :
    Goes Passes cs (yield r lineEnds cs) := by
  refine (goes_keyword "yield" cs).bind fun rest => ?_
  split
  · next behind hmark =>
    refine .after (goes_operatorMark "*" rest behind hmark) ?_
    exact (h.expression lineEnds behind).give fun _ => rfl
  · split
    · next e behind hvalue =>
      exact .some (Goes.ite (h.expression lineEnds rest) .none (e, behind) hvalue)
    · exact .some (Onward.refl rest)

theorem goes_plainExpression (h : Steady r) (lineEnds : Bool) (cs : Chars) :
    Goes Passes cs (plainExpression r lineEnds cs) := by
  have harrow := goes_arrow h lineEnds cs
  unfold plainExpression
  split
  · next e rest hassignment =>
    have hplain : Goes Passes cs (some (e, rest)) :=
      .some (goes_assignment h lineEnds cs _ hassignment)
    split
    · exact harrow
    · exact .ite (harrow.or hplain) hplain
    · exact hplain
  · exact (harrow.or (goes_yield h lineEnds cs)).or (goes_patternAssignment h lineEnds cs)

/-- **Expressions.** -/
theorem goes_expressionRule (h : Steady r) (lineEnds : Bool) (cs : Chars) :
    Goes Passes cs (expressionRule r lineEnds cs) :=
  .ite ((goes_arrow h lineEnds cs).or (goes_plainExpression h lineEnds cs))
    (goes_plainExpression h lineEnds cs)

end Source

end ModuleScaffold

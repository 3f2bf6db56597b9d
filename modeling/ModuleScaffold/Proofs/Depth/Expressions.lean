import ModuleScaffold.Proofs.Depth.Types

/-!
# Expressions for readers that agree

The rules for expressions, functions and classes give the same for two readers that agree on
shorter texts, and what they give follows the grammar.

Most rules for expressions start with a token and hand what is behind it to the reader. Those that
do not, such as the one for an expression list, need the readers to agree on one character more.

Main statements:

* `ModuleScaffold.Source.alike_primaryRule`, `ModuleScaffold.Source.alike_operandRule`,
  `ModuleScaffold.Source.alike_expressionRule` – **expressions and their operands**.
-/

namespace ModuleScaffold

namespace Source

section Rules

variable {n : ℕ} {r r' : Reader}

theorem Alike.leafTo {m : ℕ} {x y : Option Chars} (h : Alike (Below m) x y) (kind : Kind)
    (start : Chars) : Alike (Gives Intact m) (x.map (leafTo kind start))
      (y.map (leafTo kind start)) :=
  h.map fun _ hrest => ⟨rfl, hrest, rfl⟩

/-! ### Functions and classes -/

theorem alike_blockEnd (h : AgreeBelow n r r') (cs : Chars) (hcs : cs.length + 1 < n) :
    Alike (Below cs.length) (blockEnd r cs) (blockEnd r' cs) := by
  refine (alike_mark _ (by decide) cs).bind fun rest hrest => ?_
  obtain ⟨hstatements, hle⟩ := many_alike fun rest' (hle : rest'.length ≤ rest.length) =>
    h.statementEnd rest' (by omega)
  rw [← hstatements]
  exact (alike_mark _ (by decide) _).below (by omega)

theorem alike_functionBodyEnd (h : AgreeBelow n r r') (cs : Chars) (hcs : cs.length < n) :
    Alike (Below cs.length) (functionBodyEnd r cs) (functionBodyEnd r' cs) :=
  (alike_signatureEnd h false cs (by omega)).bind fun rest _ =>
    (alike_blockEnd h rest (by omega)).below (by omega)

theorem alike_functionExpression (h : AgreeBelow n r r') (start rest : Chars)
    (hrest : rest.length < n) : Alike (Gives Intact rest.length) (functionExpression r start rest)
      (functionExpression r' start rest) := by
  have hmark := length_optional_mark_le "*" rest
  have hname := length_optional_anyWord_le (optional (mark "*") rest)
  exact ((alike_functionBodyEnd h _ (by omega)).below (hname.trans hmark)).leafTo _ _

theorem alike_fieldEnd (h : AgreeBelow n r r') (cs : Chars) (hcs : cs.length < n) :
    Alike (·.length ≤ cs.length) (fieldEnd r cs) (fieldEnd r' cs) := by
  obtain ⟨hcolon, hle⟩ := optional_below cs fun rest _ =>
    alike_annotationEnd h true rest (by omega)
  rw [fieldEnd, fieldEnd]
  dsimp only
  rw [← hcolon]
  refine Alike.bind (P := (·.length ≤ cs.length)) ?_ fun rest hrest => ?_
  · split
    · next behind hbehind =>
      have := (alike_operatorMark "=" _).gives _ hbehind
      exact (h.expression true behind (by omega)).map fun x hx => ⟨rfl, by have := hx.1; omega⟩
    · exact .some hle
  · exact ((alike_endStatement true rest).or (.ite (.some (Nat.le_refl _)) .none)).mono
      fun _ hle' => hle'.trans hrest

/-- The words before a member, as far as the name of the member comes behind them. -/
theorem alike_classModifiers (h : AgreeBelow n r r') (cs : Chars) (hcs : cs.length < n) :
    many (fun cs => (keywordAmong classModifiers cs).bind fun rest =>
        if (propertyNameEnd r rest).isSome || (operatorMark "*" rest).isSome then some rest
        else none) cs =
      many (fun cs => (keywordAmong classModifiers cs).bind fun rest =>
        if (propertyNameEnd r' rest).isSome || (operatorMark "*" rest).isSome then some rest
        else none) cs ∧
    (many (fun cs => (keywordAmong classModifiers cs).bind fun rest =>
        if (propertyNameEnd r rest).isSome || (operatorMark "*" rest).isSome then some rest
        else none) cs).length ≤ cs.length := by
  refine many_alike fun rest _ => (alike_keywordAmong _ rest).bind fun behind hbehind =>
    .someIf ?_ hbehind
  rw [(alike_propertyNameEnd h behind (by omega)).eq]

theorem alike_namedMemberEnd (h : AgreeBelow n r r') (cs : Chars) (hcs : cs.length < n) :
    Alike (Below cs.length) (namedMemberEnd r cs) (namedMemberEnd r' cs) := by
  obtain ⟨hmodifiers, hle⟩ := alike_classModifiers h cs hcs
  rw [namedMemberEnd, namedMemberEnd]
  dsimp only
  rw [← hmodifiers]
  have hstart := (length_optional_mark_le "*" _).trans hle
  refine (((alike_indexEnd h _ (by omega)).or (alike_propertyNameEnd h _ (by omega))).below
    hstart).bind fun rest hrest => ?_
  have hmark : (optional (mark "?" ·) rest).length ≤ rest.length := length_optional_mark_le "?" rest
  have hcalled := alike_signatureEnd h true (optional (mark "?" ·) rest) (by omega)
  rw [← hcalled.eq]
  split
  · next behind hbehind =>
    have := hcalled.gives _ hbehind
    refine Alike.or ?_ ?_
    · refine (alike_blockEnd h behind (by omega)).map fun rest' hrest' => ⟨rfl, ?_⟩
      have := length_endBlock_le rest'
      omega
    · exact (alike_endStatement false behind).mono fun rest' hrest' => by omega
  · have := length_optional_mark_le "!" (optional (mark "?" ·) rest)
    exact (alike_fieldEnd h _ (by omega)).mono fun rest' hrest' => by omega

theorem alike_classMemberEnd (h : AgreeBelow n r r') (cs : Chars) (hcs : cs.length < n) :
    Alike (Below cs.length) (classMemberEnd r cs) (classMemberEnd r' cs) := by
  unfold classMemberEnd
  split
  · next rest hmark => exact .some ((alike_mark _ (by decide) cs).gives rest hmark)
  · obtain ⟨hdecorators, hle⟩ := alike_decorators h cs (by omega)
    dsimp only
    rw [← hdecorators]
    refine Alike.or ?_ ((alike_namedMemberEnd h _ (by omega)).below hle)
    refine ((alike_keyword "static" _).below hle).bind fun rest _ => ?_
    exact (alike_blockEnd h rest (by omega)).below (by omega)

theorem alike_classBodyEnd (h : AgreeBelow n r r') (cs : Chars) (hcs : cs.length ≤ n) :
    Alike (Below cs.length) (classBodyEnd r cs) (classBodyEnd r' cs) := by
  refine (alike_mark _ (by decide) cs).bind fun rest hrest => ?_
  obtain ⟨hmembers, hle⟩ := many_alike fun rest' (hle : rest'.length ≤ rest.length) =>
    alike_classMemberEnd h rest' (by omega)
  rw [← hmembers]
  exact (alike_mark _ (by decide) _).below (by omega)

theorem alike_heritageEnd (h : AgreeBelow n r r') (cs : Chars) (hcs : cs.length < n) :
    heritageEnd r cs = heritageEnd r' cs ∧ (heritageEnd r cs).length ≤ cs.length := by
  have hparent (rest : Chars) (hrest : rest.length < cs.length) : Alike (Below rest.length)
      ((r.operand false rest).map fun x => optional (typeArgumentsEnd r) x.2)
      ((r'.operand false rest).map fun x => optional (typeArgumentsEnd r') x.2) := by
    refine (h.operand false rest (by omega)).map fun x hx => ?_
    obtain ⟨heq, hle⟩ := optional_below x.2 fun rest' _ =>
      alike_typeArgumentsEnd h rest' (by have := hx.1; omega)
    exact ⟨heq, Nat.lt_of_le_of_lt hle hx.1⟩
  obtain ⟨hextends, hle⟩ := optional_below cs fun rest _ =>
    (alike_keyword "extends" rest).bind fun behind _ =>
      (separatedEnd_alike fun parent (hle : parent.length ≤ behind.length) =>
        hparent parent (by omega)).below (by omega)
  rw [heritageEnd, heritageEnd]
  dsimp only
  rw [← hextends]
  refine And.imp_right (·.trans hle) (optional_below _ fun rest hrest => ?_)
  refine (alike_keyword "implements" rest).bind fun behind _ => ?_
  exact (separatedEnd_alike fun parent _ => h.typeEnd false parent (by omega)).below (by omega)

theorem alike_classRestEnd (h : AgreeBelow n r r') (cs : Chars) (hcs : cs.length < n) :
    Alike (Below cs.length) (classRestEnd r cs) (classRestEnd r' cs) := by
  obtain ⟨htypes, hle⟩ := optional_below cs fun rest _ => alike_typeParametersEnd h rest (by omega)
  rw [classRestEnd, classRestEnd, ← htypes]
  obtain ⟨heritage, hle'⟩ := alike_heritageEnd h (optional (typeParametersEnd r) cs) (by omega)
  rw [← heritage]
  exact (alike_classBodyEnd h _ (by omega)).below (by omega)

theorem alike_classExpression (h : AgreeBelow n r r') (start rest : Chars)
    (hrest : rest.length < n) : Alike (Gives Intact rest.length) (classExpression r start rest)
      (classExpression r' start rest) := by
  refine Alike.leafTo (Alike.or ?_ (alike_classRestEnd h rest hrest)) _ _
  refine (alike_anyWord rest).bind fun behind _ => .ite .none ?_
  exact (alike_classRestEnd h behind (by omega)).below (by omega)

/-! ### Lists -/

theorem alike_item (h : AgreeBelow n r r') (cs : Chars) (hcs : cs.length + 1 < n) :
    Alike (Gives Intact cs.length) (item r cs) (item r' cs) := by
  unfold item
  split
  · next rest hmark =>
    have := (alike_mark _ (by decide) cs).gives _ hmark
    exact (h.expression false rest (by omega)).map fun x hx => ⟨rfl, hx.1.trans this, rfl⟩
  · exact h.expression false cs hcs

theorem anyDamaged_eq_false {es : List Expr} (h : ∀ e ∈ es, Intact e) :
    Expr.anyDamaged es = false := by
  induction es with
  | nil => rfl
  | cons e es ih =>
    obtain ⟨he, hes⟩ := List.forall_mem_cons.1 h
    rw [Expr.anyDamaged, he, ih hes]
    rfl

theorem alike_sequence (h : AgreeBelow n r r') (lineEnds : Bool) (cs : Chars)
    (hcs : cs.length + 1 < n) :
    Alike (Gives Intact cs.length) (sequence r lineEnds cs) (sequence r' lineEnds cs) := by
  refine (h.expression lineEnds cs hcs).bind fun ⟨first, rest⟩ ⟨hrest, hfirst⟩ => ?_
  dsimp only at hrest hfirst ⊢
  have hmore (rest' : Chars) (hle : rest'.length ≤ rest.length) : Alike (Below rest'.length)
      ((mark "," rest').bind fun rest => (r.expression lineEnds rest).map (·.2))
      ((mark "," rest').bind fun rest => (r'.expression lineEnds rest).map (·.2)) :=
    (alike_mark _ (by decide) rest').bind fun behind hlt =>
      (h.expression lineEnds behind (by omega)).map fun x hx => ⟨rfl, hx.1.trans hlt⟩
  rw [← (hmore rest (Nat.le_refl _)).eq]
  split
  · exact .some ⟨hrest, hfirst⟩
  · next behind hbehind =>
    have := (hmore rest (Nat.le_refl _)).gives _ hbehind
    obtain ⟨heq, hle⟩ := many_alike fun rest' (hle : rest'.length ≤ behind.length) =>
      hmore rest' (by omega)
    rw [← heq]
    exact .some ⟨Nat.lt_of_le_of_lt hle (by omega), rfl⟩

/-! ### Members, calls and other things behind an expression -/

theorem alike_memberStep (h : AgreeBelow n r r') (e : Expr) (cs : Chars) (hcs : cs.length < n) :
    Alike (Gives Intact cs.length) (memberStep r e cs) (memberStep r' e cs) := by
  unfold memberStep
  split
  · next rest hskip =>
    have := length_lt_of_skip hskip
    split
    · next rest' hname =>
      have := ((alike_anyWord rest).or (alike_privateName rest)).gives _ hname
      exact .some ⟨by dsimp only [leafTo]; omega, rfl⟩
    · exact .none
  · next rest hskip =>
    have := length_lt_of_skip hskip
    refine (alike_sequence h false rest (by omega)).bind fun x hx => ?_
    exact ((alike_mark _ (by decide) x.2).below (by have := hx.1; omega)).leafTo _ _
  · exact .none

theorem alike_callFrom (h : AgreeBelow n r r') (e : Expr) (typed : Bool) (cs : Chars)
    (hcs : cs.length + 1 < n) :
    Alike (Gives Intact cs.length) (callFrom r e typed cs) (callFrom r' e typed cs) := by
  refine (list_alike true (by decide) fun rest _ => alike_item h rest (by omega)).map
    fun x hx => ⟨rfl, hx.1, ?_⟩
  exact anyDamaged_eq_false hx.2

theorem alike_optionalStep (h : AgreeBelow n r r') (e : Expr) (cs : Chars) (hcs : cs.length < n) :
    Alike (Gives Intact cs.length) (optionalStep r e cs) (optionalStep r' e cs) := by
  refine (alike_mark _ (by decide) cs).bind fun rest hrest => .ite .none ?_
  split
  · next rest' hskip =>
    have := length_lt_of_skip hskip
    exact (alike_callFrom h e false rest' (by omega)).within (by omega)
  · exact (alike_memberStep h e rest (by omega)).within (by omega)
  · refine (alike_typeArgumentsEnd h rest (by omega)).bind fun rest' hrest' => ?_
    exact (alike_mark _ (by decide) rest').bind fun behind _ =>
      (alike_callFrom h e true behind (by omega)).within (by omega)
  · split
    · next rest' hname =>
      have := ((alike_anyWord rest).or (alike_privateName rest)).gives _ hname
      exact .some ⟨by dsimp only [leafTo]; omega, rfl⟩
    · exact .none

theorem alike_templateHere (h : AgreeBelow n r r') (cs : Chars) (hcs : cs.length < n) :
    Alike (Gives Anything cs.length)
      (templateHere (fun cs => (sequence r false cs).map (·.2)) cs)
      (templateHere (fun cs => (sequence r' false cs).map (·.2)) cs) :=
  templateHere_alike fun rest _ =>
    (alike_sequence h false rest (by omega)).map fun _ hx => ⟨rfl, hx.1⟩

theorem alike_suffixStep (h : AgreeBelow n r r') (lineEnds : Bool) (e : Expr) (cs : Chars)
    (hcs : cs.length < n) :
    Alike (Gives Intact cs.length) (suffixStep r lineEnds e cs) (suffixStep r' lineEnds e cs) := by
  have hle := length_skip_le cs
  unfold suffixStep
  split
  · exact alike_memberStep h e cs hcs
  · exact alike_memberStep h e cs hcs
  · next rest hskip =>
    have := length_lt_of_skip hskip
    exact (alike_callFrom h e false rest (by omega)).within (by omega)
  · exact alike_optionalStep h e cs hcs
  · refine (alike_typeArgumentsEnd h cs (by omega)).bind fun rest hrest => ?_
    split
    · next behind hmark =>
      have := (alike_mark _ (by decide) rest).gives _ hmark
      exact (alike_callFrom h e true behind (by omega)).within (by omega)
    · exact .ite (.some ⟨hrest, rfl⟩) .none
  · next rest hskip =>
    rw [← hskip]
    exact (alike_templateHere h _ (by omega)).map fun x hx => ⟨rfl, hx.1.trans_le hle, rfl⟩
  · next rest hskip => exact .ite .none (.some ⟨length_lt_of_skip hskip, rfl⟩)
  · exact .none

/-! ### Objects -/

theorem alike_objectMethod (h : AgreeBelow n r r') (start cs : Chars) (hcs : cs.length < n) :
    Alike (Gives (fun m => m.isDamaged = false) cs.length) (objectMethod r start cs)
      (objectMethod r' start cs) := by
  obtain ⟨hmodifiers, hle⟩ := alike_classModifiers h cs hcs
  rw [objectMethod, objectMethod, ← hmodifiers]
  have hstart := (length_optional_mark_le "*" _).trans hle
  refine ((alike_propertyNameEnd h _ (by omega)).below hstart).bind fun rest hrest => ?_
  have := length_optional_mark_le "?" rest
  refine (alike_functionBodyEnd h _ (by omega)).bind fun rest' hrest' => ?_
  exact .some ⟨by dsimp only; omega, rfl⟩

theorem alike_objectPair (h : AgreeBelow n r r') (cs : Chars) (hcs : cs.length < n) :
    Alike (Gives (fun m => m.isDamaged = false) cs.length) (objectPair r cs)
      (objectPair r' cs) := by
  refine (alike_propertyNameEnd h cs hcs).bind fun behind hbehind => ?_
  refine Alike.bind (P := Gives Intact behind.length) ?_ fun ⟨value, rest⟩ ⟨hrest, hvalue⟩ =>
    .some ⟨hrest.trans hbehind, hvalue⟩
  exact (alike_mark _ (by decide) behind).bind fun rest _ =>
    (h.expression false rest (by omega)).within (by omega)

theorem alike_objectMember (h : AgreeBelow n r r') (cs : Chars) (hcs : cs.length < n) :
    Alike (Gives (fun m => m.isDamaged = false) cs.length) (objectMember r cs)
      (objectMember r' cs) := by
  have hle := length_skip_le cs
  have hkeyed := ((alike_objectPair h (skip cs) (by omega)).or
    (alike_objectMethod h (skip cs) (skip cs) (by omega))).within hle
  unfold objectMember
  split
  · next rest hmark =>
    have := (alike_mark _ (by decide) cs).gives _ hmark
    exact (h.expression false rest (by omega)).map fun x hx => ⟨rfl, hx.1.trans this, rfl⟩
  · dsimp only
    split
    · next rest hword =>
      have := (alike_wordHere _).gives _ hword
      exact .ite (.some ⟨this.trans_le hle, rfl⟩) hkeyed
    · exact hkeyed

theorem membersDamaged_eq_false {ms : List Member} (h : ∀ m ∈ ms, m.isDamaged = false) :
    Member.anyDamaged ms = false := by
  induction ms with
  | nil => rfl
  | cons m ms ih =>
    obtain ⟨hm, hms⟩ := List.forall_mem_cons.1 h
    rw [Member.anyDamaged, hm, ih hms]
    rfl

/-! ### Expressions without operators -/

theorem alike_arguments (h : AgreeBelow n r r') (cs : Chars) (hcs : cs.length + 1 < n) :
    Alike (Gives (fun es => ∀ e ∈ es, Intact e) cs.length) (arguments r cs) (arguments r' cs) :=
  list_alike true (by decide) fun rest _ => alike_item h rest (by omega)

theorem alike_newExpression (h : AgreeBelow n r r') (start rest : Chars)
    (hrest : rest.length + 1 < n) : Alike (Gives Intact rest.length) (newExpression r start rest)
      (newExpression r' start rest) := by
  unfold newExpression
  split
  · next behind hbehind =>
    have htarget := (alike_mark "." (by decide) rest).bind fun rest' hlt =>
      (alike_keyword "target" rest').below (Nat.le_of_lt hlt)
    exact .some ⟨htarget.gives _ hbehind, rfl⟩
  · refine (h.primary rest hrest).bind fun ⟨made, behind⟩ ⟨hlt, hmade⟩ => ?_
    dsimp only at hlt hmade ⊢
    obtain ⟨hmembers, hle, -⟩ := extend_alike (fun e rest' (hle : rest'.length ≤ behind.length) _ =>
      alike_memberStep h e rest' (by omega)) hmade
    rw [← hmembers]
    generalize (extend (memberStep r) made behind).2 = last at hle ⊢
    have htypes := alike_typeArgumentsEnd h last (by omega)
    have hle' : ((typeArgumentsEnd r last).getD last).length ≤ last.length :=
      (optional_alike last (htypes.mono fun _ => Nat.le_of_lt)).2
    rw [← htypes.eq]
    generalize (typeArgumentsEnd r last).getD last = typed at hle' ⊢
    have hargs : Alike (Gives Anything typed.length) ((mark "(" typed).bind (arguments r))
        ((mark "(" typed).bind (arguments r')) :=
      (alike_mark _ (by decide) typed).bind fun rest' _ =>
        (alike_arguments h rest' (by omega)).mono fun x hx =>
          ⟨hx.1.trans (by omega), trivial⟩
    rw [← hargs.eq]
    split
    · next args stop hstop =>
      have : stop.length < typed.length := (hargs.gives _ hstop).1
      exact .some ⟨by dsimp only [leafTo]; omega, rfl⟩
    · exact .some ⟨by dsimp only [leafTo]; omega, rfl⟩

theorem alike_parenthesizedExpression (h : AgreeBelow n r r') (start rest : Chars)
    (hrest : rest.length + 1 < n) :
    Alike (Gives Intact rest.length) (parenthesizedExpression r start rest)
      (parenthesizedExpression r' start rest) := by
  refine (alike_sequence h false rest hrest).bind fun ⟨inner, behind⟩ ⟨hlt, hinner⟩ => ?_
  dsimp only at hlt hinner ⊢
  obtain ⟨hcolon, hle⟩ := optional_below behind fun rest' _ =>
    alike_annotationEnd h false rest' (by omega)
  rw [← hcolon]
  exact ((alike_mark _ (by decide) _).below (by omega)).bind fun last hlast => .some ⟨hlast, hinner⟩

theorem alike_wordExpression (h : AgreeBelow n r r') (start : Chars) (text : String) (rest : Chars)
    (hrest : rest.length + 1 < n) :
    Alike (Gives Intact (rest.length + 1)) (wordExpression r start text rest)
      (wordExpression r' start text rest) := by
  have hleaf (kind : Kind) : Alike (Gives Intact (rest.length + 1)) (some (leafTo kind start rest))
      (some (leafTo kind start rest)) := .some ⟨Nat.lt_succ_self _, rfl⟩
  unfold wordExpression
  split
  case h_7 => exact (alike_functionExpression h start rest (by omega)).within (Nat.le_succ _)
  case h_8 => exact (alike_classExpression h start rest (by omega)).within (Nat.le_succ _)
  case h_9 => exact .ite (hleaf _) ((alike_newExpression h start rest hrest).within (Nat.le_succ _))
  case h_10 =>
    split
    · next behind hbehind =>
      have : behind.length < rest.length := by
        split at hbehind
        · exact (alike_keyword "function" rest).gives _ hbehind
        · cases hbehind
      exact (alike_functionExpression h start behind (by omega)).within (by omega)
    · exact hleaf _
  case h_11 =>
    split
    · next behind hbehind =>
      have hmeta := (alike_mark "." (by decide) rest).bind fun rest' hlt =>
        (alike_keyword "meta" rest').below (Nat.le_of_lt hlt)
      have : behind.length < rest.length := hmeta.gives _ hbehind
      exact .some ⟨by dsimp only [leafTo]; omega, rfl⟩
    · exact .ite (hleaf _) .none
  all_goals first | exact hleaf _ | exact .none

theorem alike_primaryRule (h : AgreeBelow n r r') (cs : Chars) (hcs : cs.length < n) :
    Alike (Gives Intact cs.length) (primaryRule r cs) (primaryRule r' cs) := by
  have hle := length_skip_le cs
  unfold primaryRule
  dsimp only
  split
  · exact .none
  · next c rest hskip =>
    have := length_lt_of_skip hskip
    refine .ite ?_ (.ite ?_ (.ite ?_ (.ite ?_ (.ite ?_ (.ite ?_ (.ite ?_ (.ite ?_ ?_)))))))
    · exact (alike_parenthesizedExpression h _ rest (by omega)).within (by omega)
    · refine (list_alike true (by decide) fun rest' _ => alike_item h rest' (by omega)).map
        fun x hx => ⟨rfl, hx.1.trans this, ?_⟩
      exact anyDamaged_eq_false hx.2
    · refine (list_alike true (by decide) fun rest' _ => alike_objectMember h rest' (by omega)).map
        fun x hx => ⟨rfl, hx.1.trans this, ?_⟩
      exact membersDamaged_eq_false hx.2
    · exact ((alike_stringHere _).below hle).leafTo _ _
    · exact (alike_templateHere h _ (by omega)).map fun x hx => ⟨rfl, hx.1.trans_le hle, rfl⟩
    · exact (alike_regexHere _).map fun x hx => ⟨rfl, hx.trans_le hle, rfl⟩
    · exact ((alike_numberHere _).below hle).leafTo _ _
    · obtain ⟨hdecorators, hle'⟩ := alike_decorators h (skip cs) (by omega)
      rw [← hdecorators]
      exact (alike_keyword "class" _).bind fun rest' _ =>
        (alike_classExpression h _ rest' (by omega)).within (by omega)
    · split
      · next w rest' hword =>
        have : rest'.length < (skip cs).length := (alike_wordHere _).gives _ hword
        exact (alike_wordExpression h _ _ rest' (by omega)).within (by omega)
      · exact .none

/-! ### Operands -/

theorem alike_suffixed (h : AgreeBelow n r r') (lineEnds : Bool) (cs : Chars)
    (hcs : cs.length < n) :
    Alike (Gives Intact cs.length) (suffixed r lineEnds cs) (suffixed r' lineEnds cs) := by
  refine (alike_primaryRule h cs hcs).map fun ⟨e, rest⟩ ⟨hlt, he⟩ => ?_
  dsimp only at hlt he ⊢
  obtain ⟨heq, hle, hintact⟩ := extend_alike (fun e rest' (hle : rest'.length ≤ rest.length) _ =>
    alike_suffixStep h lineEnds e rest' (by omega)) he
  exact ⟨heq, Nat.lt_of_le_of_lt hle hlt, hintact⟩

theorem alike_counted (h : AgreeBelow n r r') (lineEnds : Bool) (cs : Chars) (hcs : cs.length < n) :
    Alike (Gives Intact cs.length) (counted r lineEnds cs) (counted r' lineEnds cs) := by
  refine (alike_suffixed h lineEnds cs hcs).bind fun ⟨e, rest⟩ ⟨hlt, he⟩ => ?_
  dsimp only at hlt he ⊢
  split
  · next behind hbehind =>
    have := ((alike_operatorMark "++" rest).or (alike_operatorMark "--" rest)).gives _ hbehind
    split
    · exact .some ⟨by dsimp only [leafTo]; omega, rfl⟩
    · exact .some ⟨hlt, he⟩
  · exact .some ⟨hlt, he⟩

/-- **Operands with their prefix operators.** -/
theorem alike_operandRule (h : AgreeBelow n r r') (lineEnds : Bool) (cs : Chars)
    (hcs : cs.length < n) :
    Alike (Gives Intact cs.length) (operandRule r lineEnds cs) (operandRule r' lineEnds cs) := by
  have hle := length_skip_le cs
  have hcounted := (alike_counted h lineEnds (skip cs) (by omega)).within hle
  have hleaf (kind : Kind) (rest : Chars) (hrest : rest.length < cs.length) :
      Alike (Gives Intact cs.length)
        ((r.operand lineEnds rest).map fun x => leafTo kind (skip cs) x.2)
        ((r'.operand lineEnds rest).map fun x => leafTo kind (skip cs) x.2) :=
    (h.operand lineEnds rest (by omega)).map fun x hx => ⟨rfl, hx.1.trans hrest, rfl⟩
  have hprefixed (m rest : Chars) (hrest : rest.length < cs.length) :
      Alike (Gives Intact cs.length) (prefixed r lineEnds (skip cs) m rest)
        (prefixed r' lineEnds (skip cs) m rest) :=
    (h.operand lineEnds rest (by omega)).map fun x hx => ⟨rfl, hx.1.trans hrest, hx.2⟩
  unfold operandRule
  dsimp only
  split
  · next m rest hoperator =>
    have hrest : rest.length < cs.length := by
      have : rest.length < (skip cs).length := (alike_operator _).gives _ hoperator
      omega
    refine .ite (hprefixed _ rest hrest) (.ite (hleaf _ rest hrest)
      (.ite ?_ (.ite hcounted .none)))
    refine (h.typeEnd false rest (by omega)).bind fun rest' _ => ?_
    refine (alike_mark _ (by decide) rest').bind fun behind _ => ?_
    refine (h.operand lineEnds behind (by omega)).bind fun x hx => ?_
    exact .some ⟨by have := hx.1; dsimp only [leafTo]; omega, rfl⟩
  · split
    · next w rest hword =>
      have hrest : rest.length < cs.length := by
        have : rest.length < (skip cs).length := (alike_wordHere _).gives _ hword
        omega
      exact .ite (hprefixed _ rest hrest) (.ite (hleaf _ rest hrest) hcounted)
    · exact hcounted

theorem alike_binaryStep (h : AgreeBelow n r r') (lineEnds : Bool) (e : Expr) (cs : Chars)
    (hcs : cs.length < n) :
    Alike (Gives Intact cs.length) (binaryStep r lineEnds e cs) (binaryStep r' lineEnds e cs) := by
  have hoperand (rest : Chars) (hrest : rest.length < cs.length) : Alike (Gives Intact cs.length)
      ((operandRule r lineEnds rest).map fun x => leafTo .binary e.start x.2)
      ((operandRule r' lineEnds rest).map fun x => leafTo .binary e.start x.2) :=
    (alike_operandRule h lineEnds rest (by omega)).map fun x hx =>
      ⟨rfl, hx.1.trans hrest, rfl⟩
  have htype (kind : Kind) (rest : Chars) (hrest : rest.length < cs.length) :
      Alike (Gives Intact cs.length) ((r.typeEnd false rest).map (leafTo kind e.start))
        ((r'.typeEnd false rest).map (leafTo kind e.start)) :=
    ((h.typeEnd false rest (by omega)).below (by omega)).leafTo _ _
  unfold binaryStep
  split
  · next m rest hoperator =>
    exact .ite (hoperand rest ((alike_operator cs).gives _ hoperator)) .none
  · split
    · exact .none
    · next w rest hword =>
      have hrest : rest.length < cs.length := (alike_word cs).gives _ hword
      exact .ite (hoperand rest hrest) (.ite (.ite (htype _ rest hrest) .none)
        (.ite (.ite (htype _ rest hrest) .none) .none))

theorem alike_privateTest (h : AgreeBelow n r r') (lineEnds : Bool) (cs : Chars)
    (hcs : cs.length < n) :
    Alike (Gives Intact cs.length) (privateTest r lineEnds cs) (privateTest r' lineEnds cs) := by
  refine Alike.bind (P := Below cs.length) ?_ fun rest hrest => ?_
  · exact (alike_privateName cs).bind fun rest hlt =>
      (alike_keyword "in" rest).below (Nat.le_of_lt hlt)
  · refine (h.operand lineEnds rest (by omega)).bind fun x hx => ?_
    exact .some ⟨hx.1.trans hrest, rfl⟩

theorem alike_chain (h : AgreeBelow n r r') (lineEnds : Bool) (cs : Chars) (hcs : cs.length < n) :
    Alike (Gives Intact cs.length) (chain r lineEnds cs) (chain r' lineEnds cs) := by
  refine ((alike_operandRule h lineEnds cs hcs).or (alike_privateTest h lineEnds cs hcs)).map
    fun ⟨e, rest⟩ ⟨hlt, he⟩ => ?_
  dsimp only at hlt he ⊢
  obtain ⟨heq, hle, hintact⟩ := extend_alike (fun e rest' (hle : rest'.length ≤ rest.length) _ =>
    alike_binaryStep h lineEnds e rest' (by omega)) he
  exact ⟨heq, Nat.lt_of_le_of_lt hle hlt, hintact⟩

/-! ### Choices and assignments -/

theorem alike_alternativesEnd (h : AgreeBelow n r r') (lineEnds : Bool)
    {first first' : Chars → Option (Expr × Chars)} (cs : Chars) (hcs : cs.length < n)
    (hfirst : Alike (Gives Intact cs.length) (first cs) (first' cs)) :
    Alike (Below cs.length) (alternativesEnd r lineEnds first cs)
      (alternativesEnd r' lineEnds first' cs) := by
  refine hfirst.bind fun ⟨e, rest⟩ ⟨hlt, _⟩ => ?_
  dsimp only at hlt ⊢
  refine (alike_mark _ (by decide) rest).bind fun rest' _ => ?_
  refine (h.expression lineEnds rest' (by omega)).bind fun x hx => ?_
  exact .some (by have := hx.1; omega)

theorem alike_choice (h : AgreeBelow n r r') (lineEnds : Bool) (cs : Chars) (hcs : cs.length < n) :
    Alike (Gives Intact cs.length) (choice r lineEnds cs) (choice r' lineEnds cs) := by
  refine (alike_chain h lineEnds cs hcs).bind fun ⟨e, rest⟩ ⟨hlt, he⟩ => ?_
  dsimp only at hlt he ⊢
  split
  · exact .some ⟨hlt, he⟩
  · next behind hbehind =>
    have := (alike_operatorMark "?" rest).gives _ hbehind
    have hshort := alike_alternativesEnd h lineEnds behind (by omega)
      (alike_chain h false behind (by omega))
    have hlong := alike_alternativesEnd h lineEnds behind (by omega)
      (h.expression false behind (by omega))
    refine (hshort.filter.or (hlong.or hshort)).bind fun last hlast => ?_
    exact .some ⟨by dsimp only [leafTo]; omega, rfl⟩

theorem alike_assignment (h : AgreeBelow n r r') (lineEnds : Bool) (cs : Chars)
    (hcs : cs.length < n) :
    Alike (Gives Intact cs.length) (assignment r lineEnds cs) (assignment r' lineEnds cs) := by
  refine (alike_choice h lineEnds cs hcs).bind fun ⟨e, rest⟩ ⟨hlt, he⟩ => ?_
  dsimp only at hlt he ⊢
  split
  · next m behind hoperator =>
    have : behind.length < rest.length := (alike_operator rest).gives _ hoperator
    refine .ite ?_ (.ite ?_ (.some ⟨hlt, he⟩))
    · refine (h.expression lineEnds behind (by omega)).bind fun x hx => ?_
      exact .some ⟨by have := hx.1; dsimp only [leafTo]; omega, rfl⟩
    · refine (h.expression lineEnds behind (by omega)).bind fun x hx => ?_
      exact .some ⟨by have := hx.1; dsimp only [leafTo]; omega, rfl⟩
  · exact .some ⟨hlt, he⟩

theorem alike_patternAssignment (h : AgreeBelow n r r') (lineEnds : Bool) (cs : Chars)
    (hcs : cs.length < n) :
    Alike (Gives Intact cs.length) (patternAssignment r lineEnds cs)
      (patternAssignment r' lineEnds cs) := by
  refine (h.patternEnd cs hcs).bind fun rest hrest => ?_
  refine Alike.bind (P := Gives Intact cs.length) ?_ fun x hx => .some ⟨hx.1, rfl⟩
  exact (alike_operatorMark "=" rest).bind fun behind _ =>
    (h.expression lineEnds behind (by omega)).within (by omega)

/-! ### Arrow functions -/

theorem alike_arrowHeadEnd (h : AgreeBelow n r r') (cs : Chars) (hcs : cs.length ≤ n) :
    Alike (Below cs.length) (arrowHeadEnd r cs) (arrowHeadEnd r' cs) := by
  have hcalled := (alike_signatureEnd h false cs hcs).bind fun rest hrest =>
    (alike_operatorMark "=>" rest).below (Nat.le_of_lt hrest)
  unfold arrowHeadEnd
  rw [← hcalled.eq]
  split
  · next rest hrest => exact .some (hcalled.gives rest hrest)
  · exact (alike_anyWord cs).bind fun rest hrest =>
      (alike_operatorMark "=>" rest).below (Nat.le_of_lt hrest)

theorem alike_arrow (h : AgreeBelow n r r') (lineEnds : Bool) (cs : Chars) (hcs : cs.length < n) :
    Alike (Gives Intact cs.length) (arrow r lineEnds cs) (arrow r' lineEnds cs) := by
  have hmarked : Alike (Below cs.length)
      ((keyword "async" cs).bind fun rest =>
        if continues true rest then arrowHeadEnd r rest else none)
      ((keyword "async" cs).bind fun rest =>
        if continues true rest then arrowHeadEnd r' rest else none) :=
    (alike_keyword "async" cs).bind fun rest _ =>
      .ite ((alike_arrowHeadEnd h rest (by omega)).below (by omega)) .none
  refine (hmarked.or (alike_arrowHeadEnd h cs (by omega))).bind fun rest hrest => ?_
  dsimp only
  split
  · refine (alike_blockEnd h rest (by omega)).bind fun behind hbehind => ?_
    exact .some ⟨by dsimp only [leafTo]; omega, rfl⟩
  · refine (h.expression lineEnds rest (by omega)).bind fun x hx => ?_
    exact .some ⟨by have := hx.1; dsimp only [leafTo]; omega, rfl⟩

theorem alike_yield (h : AgreeBelow n r r') (lineEnds : Bool) (cs : Chars) (hcs : cs.length < n) :
    Alike (Gives Intact cs.length) (yield r lineEnds cs) (yield r' lineEnds cs) := by
  refine (alike_keyword "yield" cs).bind fun rest hrest => ?_
  split
  · next behind hbehind =>
    have := (alike_operatorMark "*" rest).gives _ hbehind
    refine (h.expression lineEnds behind (by omega)).bind fun x hx => ?_
    exact .some ⟨by have := hx.1; dsimp only [leafTo]; omega, rfl⟩
  · have hvalue := (h.expression lineEnds rest (by omega)).ite .none (c := continues lineEnds rest)
    rw [← hvalue.eq]
    split
    · next e behind hbehind =>
      have : behind.length < rest.length := (hvalue.gives _ hbehind).1
      exact .some ⟨by dsimp only [leafTo]; omega, rfl⟩
    · exact .some ⟨hrest, rfl⟩

theorem alike_plainExpression (h : AgreeBelow n r r') (lineEnds : Bool) (cs : Chars)
    (hcs : cs.length < n) :
    Alike (Gives Intact cs.length) (plainExpression r lineEnds cs)
      (plainExpression r' lineEnds cs) := by
  have harrow := alike_arrow h lineEnds cs hcs
  have hassignment := alike_assignment h lineEnds cs hcs
  unfold plainExpression
  rw [← hassignment.eq]
  split
  · next e rest hread =>
    obtain ⟨hlt, he⟩ := hassignment.gives _ hread
    have hplain : Alike (Gives Intact cs.length) (some (e, rest)) (some (e, rest)) :=
      .some ⟨hlt, he⟩
    split
    · exact harrow
    · exact .ite (harrow.or hplain) hplain
    · exact hplain
  · exact (harrow.or (alike_yield h lineEnds cs hcs)).or (alike_patternAssignment h lineEnds cs hcs)

/-- **Expressions without commas.** -/
theorem alike_expressionRule (h : AgreeBelow n r r') (lineEnds : Bool) (cs : Chars)
    (hcs : cs.length < n) :
    Alike (Gives Intact cs.length) (expressionRule r lineEnds cs) (expressionRule r' lineEnds cs) :=
  .ite ((alike_arrow h lineEnds cs hcs).or (alike_plainExpression h lineEnds cs hcs))
    (alike_plainExpression h lineEnds cs hcs)

end Rules

end Source

end ModuleScaffold

import ModuleScaffold.Proofs.Reading.Statements
import ModuleScaffold.Proofs.Reading.Variables
import ModuleScaffold.Proofs.References.Declared

/-!
# What becomes of variables

A statement that declares a variable has a *head*: whether the variable is exported, the word that
declares it, its name, and what stands between the name and the initializer, which is a type or the
mark of a variable that is assigned later. A variable with the name of a schema is held as a
constant, by its name, the text of its initializer and whether it is exported. The other parts of the
head have no place in a store.

So a statement is written again as it was exactly if the word that declares it is `const` and nothing
stands between its name and its initializer. A variable of another name is kept as it is written.

Main statements:

* `ModuleScaffold.Source.variableHead_renderDefinition` – **the head of a constant that is written**;
* `ModuleScaffold.Source.exists_variable_of_mem_items` – **a variable is read off the text of the
  statement that declares it**;
* `ModuleScaffold.Source.mem_definitions_read` – **a constant is held until its name is defined
  again**;
* `ModuleScaffold.Store.renderDefinition_infix` – every constant is written;
* `ModuleScaffold.Source.constants_kept_iff` – **what becomes of variables**.
-/

namespace ModuleScaffold

namespace Source

/-! ### Heads -/

/-- What stands in front of the initializer of a variable. -/
structure VariableHead where
  /-- Whether the variable is exported. -/
  exported : Bool
  /-- The word that declares it. -/
  keyword : Chars
  /-- Its name. -/
  name : Chars
  /-- What stands behind the name. -/
  annotation : Option Chars
  deriving DecidableEq, Repr

/-- A variable with an initializer. -/
structure Variable extends VariableHead where
  /-- The text of the initializer. -/
  initializer : Chars
  deriving DecidableEq, Repr

/-- The head at the start of a statement, and what remains behind its equals sign. -/
def variableHead (r : Reader) (cs : Chars) : Option (VariableHead × Chars) := do
  let (exported, keyword, rest) ← variableOpening r cs
  let behind ← r.patternEnd (skip rest)
  let typed := optional (annotationEnd r true) (optional (mark "!") behind)
  let initial ← operatorMark "=" typed
  let annotation := if typed = behind then none else some (upTo (skip behind) typed)
  return (⟨exported, keyword, upTo (skip rest) behind, annotation⟩, initial)

/-- The variable at the start of a statement. -/
def variableOf (r : Reader) (cs : Chars) : Option Variable := do
  let (head, initial) ← variableHead r cs
  let (value, _) ← r.expression true initial
  return ⟨head, value.fragment.chars⟩

/-- The constant that a variable is held as. -/
def Variable.definition (v : Variable) : Definition :=
  ⟨String.ofList v.name, String.ofList v.initializer, v.exported⟩

/-- Whether a statement that is written declares the variable: it has its head, and behind that its
initializer and nothing else. -/
def Variable.isWrittenBy (r : Reader) (v : Variable) (written : Chars) : Bool :=
  variableHead r written == some (v.toVariableHead, ' ' :: (v.initializer ++ [';']))

/-! ### Heads that are written -/

/-- One word, whatever ends it. -/
def IsToken (w : Chars) : Prop :=
  ∀ ⦃tail : Chars⦄, StopsWord tail → wordHere (w ++ tail) = some (w, tail)

variable {r : Reader} {w : Chars}

theorem IsToken.exists_cons (h : IsToken w) :
    ∃ c w', w = c :: w' ∧ (inWord c = true ∨ c = '\\') :=
  exists_cons_of_wordHere (@h [] fun _ hd => by cases hd)

theorem IsToken.skip_append (h : IsToken w) (tail : Chars) : skip (w ++ tail) = w ++ tail := by
  obtain ⟨c, w', rfl, hc | rfl⟩ := h.exists_cons
  · refine skip_cons ?_ (ne_of_inWord hc (by decide))
    rw [inWord, Bool.and_eq_true, Bool.and_eq_true, Bool.not_eq_true'] at hc
    exact hc.1.2
  · exact skip_cons (by decide) (by decide)

theorem IsToken.skip_space (h : IsToken w) (tail : Chars) :
    skip (' ' :: (w ++ tail)) = w ++ tail := by
  rw [skip_cons_of_isSpace (by decide), h.skip_append]

theorem isToken_of_identifier (h : Text.isIdentifierChars w = true) : IsToken w :=
  fun _ => wordHere_append h

theorem many_decoratorEnd (h : IsToken w) (tail : Chars) {cs : Chars} (hcs : skip cs = w ++ tail) :
    many (decoratorEnd r) cs = cs := by
  refine many_eq_self (decoratorEnd_eq_none ?_)
  obtain ⟨c, w', rfl, hc⟩ := h.exists_cons
  rw [hcs]
  rintro hat
  obtain rfl : c = '@' := Option.some.inj hat
  exact absurd hc (by decide)

/-- A word behind a blank, without decorators. -/
theorem word_many_decoratorEnd (h : IsToken w) {tail cs : Chars} (htail : StopsWord tail)
    (hcs : skip cs = w ++ tail) : word (many (decoratorEnd r) cs) = some (w, tail) := by
  rw [many_decoratorEnd h tail hcs, word, hcs, h htail]

/-- The words in front of a constant that is written. -/
theorem variableOpening_const (exported : Bool) (cs : Chars) :
    variableOpening r ((if exported then "export ".toList else []) ++ ("const".toList ++ ' ' :: cs)) =
      some (exported, "const".toList, ' ' :: cs) := by
  have hconst : IsToken "const".toList := isToken_of_identifier (by decide)
  have hexport : IsToken "export".toList := isToken_of_identifier (by decide)
  have hne : "const".toList ≠ "export".toList := by decide
  cases exported with
  | false =>
    rw [variableOpening, if_neg Bool.false_ne_true, List.nil_append,
      word_many_decoratorEnd hconst (stopsWord_space cs) (hconst.skip_append _), Option.bind_some]
    exact if_neg hne
  | true =>
    have happend : "export ".toList ++ ("const".toList ++ ' ' :: cs) =
        "export".toList ++ ' ' :: ("const".toList ++ ' ' :: cs) := rfl
    rw [variableOpening, if_pos rfl, happend,
      word_many_decoratorEnd hexport (stopsWord_space _) (hexport.skip_append _), Option.bind_some]
    dsimp only
    rw [if_pos rfl, word_many_decoratorEnd hconst (stopsWord_space cs) (hconst.skip_space _)]
    rfl

/-- A name is the pattern of a variable. -/
theorem patternRule_token (h : IsToken w) {tail cs : Chars} (htail : StopsWord tail)
    (hcs : skip cs = w ++ tail) : patternRule r cs = some tail := by
  have hword : anyWord cs = some tail := by rw [anyWord, word, hcs, h htail, Option.map_some]
  obtain ⟨c, w', rfl, hc⟩ := h.exists_cons
  rw [patternRule, hcs]
  split
  · next heq =>
    obtain rfl := (List.cons.inj heq).1
    exact absurd hc (by decide)
  · next heq =>
    obtain rfl := (List.cons.inj heq).1
    exact absurd hc (by decide)
  · exact hword

/-- The statement of a constant, from its name to what stands behind the equals sign. -/
def constantText (exported : Bool) (w tail : Chars) : Chars :=
  (if exported then "export ".toList else []) ++
    ("const".toList ++ ' ' :: (w ++ ' ' :: '=' :: ' ' :: tail))

theorem renderDefinition_eq (d : Definition) : Store.renderDefinition d =
    constantText d.exported d.name.toList (d.expression.toList ++ [';']) := by
  have hconst : "const ".toList = "const".toList ++ [' '] := rfl
  have hequals : " = ".toList = [' ', '=', ' '] := rfl
  rw [Store.renderDefinition, constantText, hconst, hequals]
  simp only [List.append_assoc, List.cons_append, List.nil_append]

/-- What stands between a name and what is behind its equals sign is nothing but the equals sign. -/
theorem equals_behind_name (h : IsToken w) {tail behind : Chars}
    (hbehind : behind = ' ' :: '=' :: ' ' :: tail) :
    (rules r).patternEnd (w ++ behind) = some behind ∧ optional (mark "!") behind = behind ∧
      optional (annotationEnd (rules r) true) behind = behind ∧
      operatorMark "=" behind = some (' ' :: tail) := by
  have hstops : StopsWord behind := hbehind ▸ stopsWord_space _
  have hequals : skip behind = '=' :: ' ' :: tail := by
    rw [hbehind, skip_cons_of_isSpace (by decide), skip_cons (by decide) (by decide)]
  refine ⟨patternRule_token h hstops (h.skip_append behind), ?_, ?_, ?_⟩
  · rw [optional, mark, hequals]
    rfl
  · rw [optional, annotationEnd, mark, hequals]
    rfl
  · rw [operatorMark, operator, hequals]
    rfl

/-- **The head of a constant that is written**: it has the name of the constant, it is exported like
the constant, and it is declared by `const` without a type. -/
theorem variableHead_renderDefinition {d : Definition} (h : IsToken d.name.toList) :
    variableHead (rules r) (Store.renderDefinition d) =
      some (⟨d.exported, "const".toList, d.name.toList, none⟩,
        ' ' :: (d.expression.toList ++ [';'])) := by
  have hrender := renderDefinition_eq d
  rw [constantText] at hrender
  generalize htail : ' ' :: '=' :: ' ' :: (d.expression.toList ++ [';']) = tail at hrender
  obtain ⟨hpattern, hmarked, htyped, hinitial⟩ := equals_behind_name (r := r) h htail.symm
  rw [variableHead, hrender, variableOpening_const]
  simp only [Option.bind_eq_bind, Option.bind_some, h.skip_space, hpattern, hmarked, htyped,
    hinitial, if_true, upTo_append]
  rfl

/-- **When a constant that is written declares a variable**: if the word that declares it is `const`
and nothing stands between its name and its initializer. -/
theorem Variable.isWrittenBy_iff {v : Variable} (h : IsToken v.name) :
    v.isWrittenBy (rules r) (Store.renderDefinition v.definition) = true ↔
      v.keyword = "const".toList ∧ v.annotation = none := by
  have hname : v.definition.name.toList = v.name := String.toList_ofList
  have hinitializer : v.definition.expression.toList = v.initializer := String.toList_ofList
  have hhead : variableHead (rules r) (Store.renderDefinition v.definition) =
      some (⟨v.exported, "const".toList, v.name, none⟩, ' ' :: (v.initializer ++ [';'])) := by
    rw [variableHead_renderDefinition (hname.symm ▸ h), hname, hinitializer]
    rfl
  rw [isWrittenBy, hhead, beq_iff_eq, Option.some.injEq, Prod.mk.injEq, and_iff_left rfl]
  obtain ⟨⟨exported, keyword, name, annotation⟩, initializer⟩ := v
  rw [VariableHead.mk.injEq]
  exact ⟨fun ⟨_, hkeyword, _, hannotation⟩ => ⟨hkeyword.symm, hannotation.symm⟩,
    fun ⟨hkeyword, hannotation⟩ => ⟨rfl, hkeyword.symm, rfl, hannotation.symm⟩⟩

/-! ### Heads that are read -/

/-- The pattern of a variable that has a name is one word. -/
theorem isToken_of_patternRule {cs behind : Chars} (h : patternRule r (skip cs) = some behind)
    (hbrace : (skip cs).head? ≠ some '\x7b') (hbracket : (skip cs).head? ≠ some '[') :
    IsToken (upTo (skip cs) behind) := by
  have hword : anyWord (skip cs) = some behind := by
    rw [patternRule, skip_skip] at h
    split at h
    · next heq => exact absurd (congrArg List.head? heq) hbrace
    · next heq => exact absurd (congrArg List.head? heq) hbracket
    · exact h
  rw [anyWord, word, skip_skip] at hword
  obtain ⟨⟨w, rest⟩, hhere, rfl⟩ := Option.map_eq_some_iff.1 hword
  obtain ⟨hcs, htoken⟩ := wordHere_eq hhere
  rw [hcs, upTo_append]
  exact fun _ => htoken

/-- **A variable is read off the text of the statement that declares it.** -/
theorem exists_variable_of_mem_items {source : Chars} {exported : Bool} {d : Declarator}
    {g name : Fragment} {value : Expr} (h : .declaring exported true [d] g ∈ items source)
    (hname : d.name = some name) (hvalue : d.value = some value) :
    ∃ v, variableOf (reader (source.length + 1)) g.start = some v ∧ IsToken v.name ∧
      v.name = name.chars ∧ v.initializer = value.fragment.chars ∧ v.exported = exported := by
  obtain ⟨w, behind, stop, hopening, hds⟩ := exists_declaring_of_mem_items h
  obtain ⟨rest, hd⟩ := exists_declarator_of_singleton hds
  obtain ⟨named, initial, hpattern, rfl, hbrace, hbracket, hinitial, rest', hexpression⟩ :=
    declarator_eq_some hd hname hvalue
  let typed := optional (annotationEnd (reader (source.length + 1)) true)
    (optional (mark "!") named)
  let annotation := if typed = named then none else some (upTo (skip named) typed)
  refine ⟨⟨⟨exported, w, upTo (skip behind) named, annotation⟩, value.fragment.chars⟩, ?_,
    isToken_of_patternRule hpattern hbrace hbracket, rfl, rfl, rfl⟩
  rw [variableOf, variableHead, hopening]
  simp only [Option.bind_eq_bind, Option.bind_some, Option.pure_def, hpattern, hinitial, hexpression]
  rfl

/-! ### Constants of a store -/

/-- The constant that an item defines. -/
def Item.constant : Item → Option Definition
  | declaring isExported _ [d] _ =>
    if Reading.isSchema d then
      (d.value.filter (! ·.isDamaged)).map fun value =>
        ⟨(d.name.map Fragment.text).getD "", value.fragment.text, isExported⟩
    else none
  | _ => none

namespace Reading

variable {reading : Reading}

theorem definitions_keep (sound : Bool) (f : Fragment) :
    (reading.keep sound f).store.definitions = reading.store.definitions := by
  rw [keep]
  split
  · dsimp only
    rw [Store.addStatement_eq]
  · rfl

theorem definitions_addVariables (exported sound : Bool) (ds : List Declarator) (g : Fragment) :
    (reading.addVariables exported sound ds g).store.definitions =
      Store.putAll Definition.name (Item.declaring exported sound ds g).constant.toList
        reading.store.definitions := by
  unfold addVariables
  split
  · next hplain =>
    have hnone : (Item.declaring exported sound ds g).constant = none := by
      rcases ds with _ | ⟨d, _ | ⟨d', ds⟩⟩
      · rfl
      · exact if_neg (by simpa using hplain)
      · rfl
    rw [definitions_keep, hnone]
    rfl
  · next hschema =>
    split
    · next d =>
      have hd : isSchema d = true := by simpa using hschema
      rw [Item.constant, if_pos hd]
      unfold addSchema
      split
      · next hvalue =>
        rw [hvalue]
        rfl
      · next value hvalue =>
        rw [hvalue]
        split
        · next hdamaged =>
          rw [Option.filter_some_neg (by rw [hdamaged]; decide)]
          rfl
        · next hsound =>
          rw [Option.filter_some_pos (by simpa using hsound)]
          rfl
    · next hseveral =>
      rw [definitions_keep]
      rcases ds with _ | ⟨d, _ | ⟨d', ds⟩⟩
      · rfl
      · exact absurd rfl (hseveral d)
      · rfl

/-- An item puts the constant that it defines. -/
theorem definitions_add (reading : Reading) (found : Item) : (reading.add found).store.definitions =
    Store.putAll Definition.name found.constant.toList reading.store.definitions := by
  have hstatement : (Reading.addStatement reading found).store.definitions =
      Store.putAll Definition.name found.constant.toList reading.store.definitions := by
    cases found with
    | comment f => rfl
    | empty f => rfl
    | importing form f => cases form <;> rfl
    | declaring exported sound ds f => exact definitions_addVariables exported sound ds f
    | exported value f =>
      rw [Reading.addStatement]
      split
      · exact ((keptByRegistration_binds reading.store.imports
          reading.store.definitions).addRegistration ⟨rfl, rfl⟩ value).2
      · exact definitions_keep _ f
    | expression value f => exact definitions_keep true f
    | other f => exact definitions_keep true f
    | damaged f => exact definitions_keep false f
    | unreadable f => rfl
  unfold add
  split
  · next f =>
    rw [addComment]
    split <;> rfl
  · exact hstatement

/-- **Items put the constants that they define**, one after the other. -/
theorem definitions_foldl_add (found : List Item) (reading : Reading) :
    (found.foldl Reading.add reading).store.definitions =
      Store.putAll Definition.name (found.filterMap Item.constant) reading.store.definitions := by
  induction found generalizing reading with
  | nil => rfl
  | cons item found ih =>
    rw [List.foldl_cons, ih, definitions_add, List.filterMap_cons]
    cases item.constant <;> rfl

end Reading

/-- **A constant is held until its name is defined again.** -/
theorem mem_definitions_read {source : Chars} {before after : List Item} {found : Item}
    {d : Definition} (hitems : items source = before ++ found :: after)
    (hfound : found.constant = some d)
    (hafter : ∀ c ∈ after.filterMap Item.constant, c.name ≠ d.name) :
    d ∈ (read source).store.definitions := by
  have hconstants : (items source).filterMap Item.constant =
      before.filterMap Item.constant ++ d :: after.filterMap Item.constant := by
    rw [hitems, List.filterMap_append, List.filterMap_cons, hfound]
  have hlast : Store.lookup Definition.name d.name
      ((items source).filterMap Item.constant).reverse = some d := by
    have hothers : (after.filterMap Item.constant).reverse.find? (·.name == d.name) = none := by
      refine List.find?_eq_none.2 fun c hc => ?_
      rw [beq_iff_eq]
      exact hafter c (List.mem_reverse.1 hc)
    rw [hconstants, List.reverse_append, List.reverse_cons, Store.lookup, List.append_assoc,
      List.find?_append, hothers, Option.none_or]
    exact List.find?_cons_of_pos (beq_self_eq_true d.name)
  rw [read, Reading.definitions_foldl_add]
  exact List.mem_of_find?_eq_some (Store.holdsLast_putAll Definition.name _ _ hlast)

end Source

namespace Store

variable {store : Store} {declarations : List Declaration}

/-- Lines that wait for their block are written, and so are the constants. -/
theorem exists_mem_declarationBlocks {line : List Char} (pending : List (List Char))
    (h : line ∈ pending ∨ ∃ d, .schema d ∈ declarations ∧ renderDefinition d = line) :
    ∃ b ∈ declarationBlocks pending declarations, line <:+: b := by
  have hblock : ∀ {lines : List (List Char)}, line ∈ lines → ∃ b ∈ block lines, line <:+: b := by
    intro lines hline
    refine ⟨Text.joinWith ['\n'] lines, ?_, Text.infix_joinWith hline⟩
    rw [block, if_neg]
    · exact List.mem_singleton_self _
    · rw [List.isEmpty_iff]
      exact List.ne_nil_of_mem hline
  induction declarations generalizing pending with
  | nil =>
    rcases h with h | ⟨d, hd, -⟩
    · exact hblock h
    · cases hd
  | cons first declarations ih =>
    cases first with
    | schema d' =>
      rw [declarationBlocks]
      refine ih _ ?_
      rcases h with h | ⟨d, hd, rfl⟩
      · exact .inl (List.mem_append_left _ h)
      · rcases List.mem_cons.1 hd with heq | hd
        · cases heq
          exact .inl (List.mem_append_right _ (List.mem_singleton_self _))
        · exact .inr ⟨d, hd, rfl⟩
    | statement text =>
      rw [declarationBlocks]
      rcases h with h | ⟨d, hd, rfl⟩
      · obtain ⟨b, hb, hinfix⟩ := hblock h
        exact ⟨b, List.mem_append_left _ hb, hinfix⟩
      · have hrest : .schema d ∈ declarations := by
          rcases List.mem_cons.1 hd with heq | hd
          · cases heq
          · exact hd
        obtain ⟨b, hb, hinfix⟩ := ih [] (.inr ⟨d, hrest, rfl⟩)
        exact ⟨b, List.mem_append_right _ (List.mem_cons_of_mem _ hb), hinfix⟩

/-- **Every constant is written.** -/
theorem renderDefinition_infix {out : String} {d : Definition} (h : d ∈ store.definitions)
    (hout : store.serialize = .ok out) : renderDefinition d <:+: out.toList := by
  obtain ⟨-, declarations, hordered, rfl⟩ := serialize_eq_ok_iff.1 hout
  have hd : d ∈ declarations.filterMap Declaration.definition? :=
    (reordered_inOrder hordered).definitions.mem_iff.1 h
  obtain ⟨declaration, hmem, hdeclaration⟩ := List.mem_filterMap.1 hd
  obtain rfl : declaration = .schema d := by
    cases declaration with
    | schema d' => exact congrArg _ (Option.some.inj hdeclaration)
    | statement text => cases hdeclaration
  obtain ⟨b, hb, hinfix⟩ := exists_mem_declarationBlocks [] (.inr ⟨d, hmem, rfl⟩)
  rw [String.toList_ofList]
  exact hinfix.trans (infix_of_mem_declarationBlocks hb)

/-- Every statement is written. -/
theorem statement_infix {out text : String} (h : text ∈ store.statements)
    (hout : store.serialize = .ok out) : text.toList <:+: out.toList := by
  obtain ⟨-, declarations, hordered, rfl⟩ := serialize_eq_ok_iff.1 hout
  rw [String.toList_ofList]
  exact infix_renderOrdered ((reordered_inOrder hordered).statements.mem_iff.1 h)

/-- Statements that are held stay. -/
theorem kept_statement (text : String) : Kept fun store => text ∈ store.statements where
  addImports _ _ h := h
  insertDefinition _ h := h
  addRoute h hadded := by
    obtain ⟨-, rfl⟩ := addRoute_eq_ok_iff.1 hadded
    exact h
  addStatement statement h := by
    rw [addStatement_eq]
    dsimp only
    exact mem_withStatement h
  addSetting _ _ h := h

end Store

namespace Source

namespace Reading

/-- A statement that is kept is in a text that is held, but for the blanks at its ends. -/
theorem exists_statement_keep (reading : Reading) (f : Fragment) :
    ∃ text : String, (text.isEmpty = true ∨ text ∈ (reading.keep true f).store.statements) ∧
      (Text.trim f.text).toList <:+: text.toList := by
  obtain ⟨text, htext⟩ :
      ∃ text, String.ofList (Text.joinWith ['\n'] (reading.comments ++ [f.chars])) = text :=
    ⟨_, rfl⟩
  have hinfix : (Text.trim f.text).toList <:+: text.toList := by
    refine (Text.trim_infix _).trans ?_
    rw [Fragment.text, String.toList_ofList, ← htext, String.toList_ofList]
    exact Text.infix_joinWith (List.mem_append_right _ (List.mem_singleton_self _))
  have hheld : (Text.trim text).isEmpty = true ∨ Text.trim text ∈
      [text].foldl Store.withStatement reading.store.statements :=
    Store.mem_foldl_withStatement_of_mem text (List.mem_singleton_self text)
  rw [List.foldl_cons, List.foldl_nil] at hheld
  refine ⟨Text.trim text, ?_, (Text.trimmed_trim _).infix_trim hinfix⟩
  rw [statements_keep, htext]
  exact hheld

/-- **What becomes of variables when they are read**: they are kept as a statement, they are
complained about, or they are a single variable that is held as a constant. -/
theorem addVariables_cases (reading : Reading) (exported : Bool) (ds : List Declarator)
    (g : Fragment) :
    reading.addVariables exported true ds g = reading.keep true g ∨
      (∃ complaint, ∃ f ∈ g :: ds.map Declarator.fragment,
        (complaint, f) ∈ (reading.addVariables exported true ds g).complaints) ∨
      ∃ d name value, ds = [d] ∧ d.name = some name ∧ d.value = some value ∧
        Store.isSchemaName name.text = true ∧ (Item.declaring exported true ds g).constant =
          some ⟨name.text, value.fragment.text, exported⟩ := by
  unfold addVariables
  split
  · exact .inl rfl
  · next hschema =>
    refine .inr ?_
    split
    · next d =>
      have hd : isSchema d = true := by simpa using hschema
      obtain ⟨name, hname, hsuffix⟩ :
          ∃ name, d.name = some name ∧ Store.isSchemaName name.text = true := by
        cases hname : d.name with
        | none =>
          rw [isSchema, hname] at hd
          cases hd
        | some name =>
          rw [isSchema, hname] at hd
          exact ⟨name, rfl, hd⟩
      have hmem : d.fragment ∈ g :: [d].map Declarator.fragment :=
        List.mem_cons_of_mem _ (List.mem_singleton_self _)
      unfold addSchema
      split
      · exact .inl ⟨_, _, hmem, List.mem_append_right _ (List.mem_singleton_self _)⟩
      · next value hvalue =>
        split
        · exact .inl ⟨_, _, hmem, List.mem_append_right _ (List.mem_singleton_self _)⟩
        · next hsound =>
          refine .inr ⟨d, name, value, rfl, hname, hvalue, hsuffix, ?_⟩
          rw [Item.constant, if_pos hd, hvalue, Option.filter_some_pos (by simpa using hsound), hname]
          rfl
    · refine .inl ⟨.severalBindings, g, List.mem_cons_self .., ?_⟩
      have hkept := (kept_complaints (reading.complain .severalBindings g).complaints).keep
        List.prefix_rfl true g
      exact hkept.subset (List.mem_append_right _ (List.mem_singleton_self _))

end Reading

variable {text out : String} {before after : List Item} {exported : Bool} {ds : List Declarator}
  {g : Fragment}

/-- What every step of reading keeps and an item establishes holds in the end. -/
theorem Reading.Kept.read {P : Reading → Prop} (hP : Reading.Kept P) {source : Chars}
    {found : Item} (hitems : items source = before ++ found :: after)
    (h : P ((before.foldl Reading.add {}).add found)) : P (Source.read source) := by
  rw [Source.read, hitems, List.foldl_append, List.foldl_cons]
  exact Reading.kept_foldl (P := P) (fun _ item h => hP.add h item) after h

/-- A constant that is written with more blanks. -/
def pageText : String :=
  "export const PageSchema=z"

/-- What is read of it. -/
def pageDefinition : Definition :=
  ⟨"PageSchema", "z", true⟩

theorem read_pageText : (items pageText.toList).length = 1 ∧
    ((items pageText.toList).all fun found =>
      found.isVariables && found.isSound && found.fragment == ⟨pageText.toList, []⟩) = true ∧
    (readMiddlewares pageText).2.isEmpty = true ∧
    (read pageText.toList).store.dangling.isEmpty = true ∧
    (read pageText.toList).store.ordered = .ok [.schema pageDefinition] ∧
    ¬ pageText.toList <:+: (read pageText.toList).store.renderOrdered [.schema pageDefinition] ∧
    variableOf (reader (pageText.toList.length + 1)) pageText.toList =
      some ⟨⟨true, "const".toList, "PageSchema".toList, none⟩, ['z']⟩ := by
  decide +kernel

/-- A constant that is declared by `let`, and one with a type. -/
def losingConstants : List String :=
  ["let PageSchema = z;", "export const PageSchema: Z = z;"]

end Source

end ModuleScaffold

import ModuleScaffold.Proofs.Denotation.Constants
import ModuleScaffold.Proofs.Depth.Statements
import ModuleScaffold.Proofs.Text.Spacing
import ModuleScaffold.Store.Define

/-!
# Initializers that are read back

The text of an initializer is accepted if it is exactly the value of the one variable of a statement
in which it is put. The statement that is written for the constant is another one: it has another
name, it may be exported, and other statements stand before it, so that it is read by a reader of
another depth.

None of this changes how the initializer is read: the rules behind the equals sign see the same
text, and readers of all sufficient depths agree on it. So a constant that is accepted is read back
as it is held, wherever the text in front of it is read in whole comments and statements.

That it is so read is a condition of its own. A pattern that begins with an asterisk is accepted as
an initializer although its first two characters open a comment, which is one as soon as a text
behind it closes it.

Main statements:

* `ModuleScaffold.Source.statement_constant` – **how the statement of a constant is read**;
* `ModuleScaffold.Source.exists_value_of_isInitializer` – **what an accepted initializer is**;
* `ModuleScaffold.Source.accepted_read_back` – **constants that are accepted are read back**.
-/

namespace ModuleScaffold

namespace Store

/-- Blanks at the ends of an initializer are left out, also those that stood before semicolons. -/
theorem trim_initializerText (expression : String) :
    Text.trim (initializerText expression) = initializerText expression := by
  refine Text.trim_of_trimmed ?_
  have htext : (initializerText expression).toList =
      ((Text.trim expression).toList.rdropWhile (· == ';')).rdropWhile Text.isBlank := by
    rw [initializerText, Text.trimEnd, String.toList_ofList, String.toList_ofList]
    rfl
  rw [htext]
  generalize hstripped : (Text.trim expression).toList.rdropWhile (· == ';') = stripped
  constructor
  · intro c hc
    -- what is cut off behind leaves the first character where it is
    obtain ⟨cut, hcut⟩ := List.rdropWhile_prefix Text.isBlank stripped
    obtain ⟨semicolons, hsemicolons⟩ :=
      List.rdropWhile_prefix (· == ';') (Text.trim expression).toList
    refine (Text.trimmed_trim expression).start c ?_
    rw [← hsemicolons, hstripped, ← hcut, List.append_assoc, List.head?_append, Option.mem_def.1 hc]
    rfl
  · intro c hc
    obtain ⟨hne, rfl⟩ := List.mem_getLast?_eq_getLast hc
    exact Bool.eq_false_iff.2 (List.rdropWhile_last_not Text.isBlank _ hne)

end Store

namespace Source

/-! ### What stands in front of a place -/

/-- A text is read in whole comments and statements up to a place. -/
inductive ReadsTo (r : Reader) : Chars → List Item → Chars → Prop
  /-- The place is behind blanks. -/
  | here {blanks rest : Chars} (hblanks : ∀ c ∈ blanks, isSpace c = true) :
    ReadsTo r (blanks ++ rest) [] rest
  /-- A comment comes first. -/
  | comment {cs behind rest : Chars} {found : List Item}
    (hcomment : comment? (cs.dropWhile isSpace) = some behind)
    (hbehind : ReadsTo r behind found rest) :
    ReadsTo r cs (.comment ⟨cs.dropWhile isSpace, behind⟩ :: found) rest
  /-- A statement comes first. -/
  | statement {cs behind rest : Chars} {item : Item} {found : List Item}
    (hcomment : comment? (cs.dropWhile isSpace) = none)
    (hstatement : statement r (cs.dropWhile isSpace) = some (item, behind))
    (hbehind : ReadsTo r behind found rest) : ReadsTo r cs (item :: found) rest

/-- A source is read in whole comments and statements up to a place, behind the line that names an
interpreter if there is one. -/
def ReadsUpTo (source : Chars) (found : List Item) (rest : Chars) : Prop :=
  match source with
  | '#' :: '!' :: tail =>
    let behind := tail.dropWhile (! endsLine ·)
    ∃ more, found = .other ⟨source, behind⟩ :: more ∧
      ReadsTo (reader (source.length + 1)) behind more rest
  | _ => ReadsTo (reader (source.length + 1)) source found rest

variable {r : Reader} {cs rest : Chars} {found : List Item}

theorem itemsFrom_blanks {blanks : Chars} (h : ∀ c ∈ blanks, isSpace c = true) (fuel : ℕ) :
    itemsFrom r fuel (blanks ++ cs) = itemsFrom r fuel cs := by
  cases fuel with
  | zero => rfl
  | succ fuel => rw [itemsFrom, itemsFrom, List.dropWhile_append_of_pos h]

theorem itemsFrom_cons_comment {behind : Chars} (h : comment? (cs.dropWhile isSpace) = some behind)
    (fuel : ℕ) : itemsFrom r (fuel + 1) cs =
      .comment ⟨cs.dropWhile isSpace, behind⟩ :: itemsFrom r fuel behind := by
  rw [itemsFrom]
  cases hhere : cs.dropWhile isSpace with
  | nil =>
    rw [hhere] at h
    cases h
  | cons c tail =>
    rw [hhere] at h
    dsimp only
    rw [h]

theorem itemsFrom_cons_statement {behind : Chars} {item : Item}
    (hcomment : comment? (cs.dropWhile isSpace) = none)
    (h : statement r (cs.dropWhile isSpace) = some (item, behind)) (fuel : ℕ) :
    itemsFrom r (fuel + 1) cs = item :: itemsFrom r fuel behind := by
  rw [itemsFrom]
  cases hhere : cs.dropWhile isSpace with
  | nil =>
    rw [hhere] at h
    cases h
  | cons c tail =>
    rw [hhere] at h hcomment
    dsimp only
    rw [hcomment, h]

theorem ReadsTo.itemsFrom_eq {depth : ℕ} (h : ReadsTo (reader depth) cs found rest) {fuel : ℕ}
    (hfuel : cs.length < fuel) : ∃ fuel', rest.length < fuel' ∧
      itemsFrom (reader depth) fuel cs = found ++ itemsFrom (reader depth) fuel' rest := by
  have hdrop (cs : Chars) : (cs.dropWhile isSpace).length ≤ cs.length :=
    (List.dropWhile_sublist _).length_le
  induction h generalizing fuel with
  | @here blanks rest hblanks =>
    rw [List.length_append] at hfuel
    exact ⟨fuel, by omega, itemsFrom_blanks hblanks fuel⟩
  | @comment cs behind rest found hcomment _ ih =>
    obtain ⟨fuel, rfl⟩ := Nat.exists_eq_add_one_of_ne_zero (Nat.ne_zero_of_lt hfuel)
    have hlt := length_comment? hcomment
    have hle := hdrop cs
    obtain ⟨fuel', hfuel', heq⟩ := @ih fuel (by omega)
    refine ⟨fuel', hfuel', ?_⟩
    rw [itemsFrom_cons_comment hcomment, heq, List.cons_append]
  | @statement cs behind rest item found hcomment hstatement _ ih =>
    obtain ⟨fuel, rfl⟩ := Nat.exists_eq_add_one_of_ne_zero (Nat.ne_zero_of_lt hfuel)
    have hself := agreeBelow_reader_self (cs.length + 2) depth
    have hle := hdrop cs
    have hlt : behind.length < (cs.dropWhile isSpace).length :=
      ((alike_statement hself _ (by omega)).gives _ hstatement).1
    obtain ⟨fuel', hfuel', heq⟩ := @ih fuel (by omega)
    refine ⟨fuel', hfuel', ?_⟩
    rw [itemsFrom_cons_statement hcomment hstatement, heq, List.cons_append]

theorem items_eq_itemsFrom {source : Chars} (h : ∀ rest, source = '#' :: '!' :: rest → False) :
    items source = itemsFrom (reader (source.length + 1)) (source.length + 1) source := by
  unfold items
  dsimp only
  split
  · next rest => exact (h rest rfl).elim
  · rfl

/-- **The items of a source that is read up to a place.** -/
theorem ReadsUpTo.items_eq {source : Chars} (h : ReadsUpTo source found rest) :
    ∃ fuel, rest.length < fuel ∧
      items source = found ++ itemsFrom (reader (source.length + 1)) fuel rest := by
  unfold ReadsUpTo at h
  split at h
  · next tail =>
    obtain ⟨more, rfl, hmore⟩ := h
    have hle : (tail.dropWhile (! endsLine ·)).length ≤ tail.length :=
      (List.dropWhile_sublist _).length_le
    obtain ⟨fuel, hfuel, heq⟩ := hmore.itemsFrom_eq
      (show _ < tail.length + 2 + 1 from Nat.lt_of_le_of_lt hle (by omega))
    exact ⟨fuel, hfuel, congrArg (_ :: ·) heq⟩
  · next hnot =>
    rw [items_eq_itemsFrom hnot]
    exact h.itemsFrom_eq (Nat.lt_succ_self _)

/-! ### The statement of a constant -/

theorem initializerFrame_eq (expression : Chars) :
    initializerFrame expression =
      constantText false "__binding".toList (expression ++ [';']) :=
  rfl

variable {w tail : Chars}

theorem exists_cons_constantText (exported : Bool) (w tail : Chars) :
    ∃ c cs, constantText exported w tail = c :: cs ∧ Leads c := by
  cases exported with
  | false => exact ⟨'c', _, rfl, by decide, by decide, by decide⟩
  | true => exact ⟨'e', _, rfl, by decide, by decide, by decide⟩

/-- Nothing stands in front of the start of a source. -/
theorem readsUpTo_constantText (exported : Bool) (w tail : Chars) :
    ReadsUpTo (constantText exported w tail) [] (constantText exported w tail) := by
  obtain ⟨c, cs, hcons, hc⟩ := exists_cons_constantText exported w tail
  rw [hcons, ReadsUpTo]
  · have hnone : ∀ b ∈ ([] : Chars), isSpace b = true := fun _ h => absurd h List.not_mem_nil
    exact ReadsTo.here hnone
  · rintro rest heq
    exact hc.hash (List.cons.inj heq).1

theorem keyword_token (h : IsToken w) (htail : StopsWord tail) (hcs : skip cs = w ++ tail)
    {text : String} (hne : w ≠ text.toList) : keyword text cs = none := by
  rw [keyword, word, hcs, h htail]
  exact if_neg hne

/-- A name and an initializer are one variable. -/
theorem declarator_token (h : IsToken w) (tail : Chars) :
    declarator (rules r) (' ' :: (w ++ ' ' :: '=' :: ' ' :: tail)) =
      ((rules r).expression true (' ' :: tail)).map fun x =>
        (⟨some ⟨w ++ ' ' :: '=' :: ' ' :: tail, ' ' :: '=' :: ' ' :: tail⟩, some x.1,
          ⟨w ++ ' ' :: '=' :: ' ' :: tail, x.2⟩⟩, x.2) := by
  generalize hbehind : ' ' :: '=' :: ' ' :: tail = behind
  obtain ⟨hpattern, hmarked, htyped, hinitial⟩ := equals_behind_name (r := r) h hbehind.symm
  have hhead : ¬ (w ++ behind).head? = some '\x7b' ∧ ¬ (w ++ behind).head? = some '[' := by
    obtain ⟨c, w', rfl, hc⟩ := h.exists_cons
    constructor
    · rintro hbrace
      obtain rfl : c = '\x7b' := Option.some.inj hbrace
      exact absurd hc (by decide)
    · rintro hbracket
      obtain rfl : c = '[' := Option.some.inj hbracket
      exact absurd hc (by decide)
  rw [declarator, h.skip_space]
  simp only [Option.bind_eq_bind, Option.bind_some, hpattern, hmarked, htyped, hinitial]
  simp only [decide_eq_false hhead.1, decide_eq_false hhead.2, Bool.or_self, Bool.false_eq_true,
    if_false]
  cases (rules r).expression true (' ' :: tail) <;> rfl

/-- A constant is no enumeration. -/
theorem declarationEnd_const (h : IsToken w) (hw : w ≠ "enum".toList) (tail : Chars) :
    declarationEnd r "const" (' ' :: (w ++ ' ' :: tail)) = none := by
  have hkeyword : keyword "enum" (' ' :: (w ++ ' ' :: tail)) = none :=
    keyword_token h (stopsWord_space tail) (h.skip_space _) hw
  have hsoft : softWords.contains "const" = false := by decide
  rw [declarationEnd, hsoft, Bool.false_and, if_neg Bool.false_ne_true]
  show (keyword "enum" (' ' :: (w ++ ' ' :: tail))).bind (enumEnd r) = none
  rw [hkeyword]
  rfl

theorem isToken_const : IsToken "const".toList :=
  isToken_of_identifier (by decide)

/-- Behind the word for exports, a word that begins none of the forms for lists, namespaces and
imports begins a declaration, or what is exported as the default. -/
theorem exportStatement_token (h : IsToken w) (htail : StopsWord tail)
    (hw : w ∉ ["type".toList, "as".toList, "import".toList]) (start : Chars) :
    exportStatement r start (' ' :: (w ++ tail)) =
      if String.ofList w = "default" then exportDefault r start tail
      else match declarationEnd r (String.ofList w) tail with
        | some rest => some (otherTo start rest)
        | none => if variableWord (String.ofList w) then declaring r true start tail else none := by
  have hskip := h.skip_space tail
  have hkeyword (text : String) (hne : w ≠ text.toList) : keyword text (' ' :: (w ++ tail)) = none :=
    keyword_token h htail hskip hne
  simp only [List.mem_cons, List.not_mem_nil, or_false, not_or] at hw
  obtain ⟨htype, has, himport⟩ := hw
  obtain ⟨c, w', hcons, hc⟩ := h.exists_cons
  have hne {d : Char} (hd : inWord d = false ∧ d ≠ '\\') : c ≠ d := by
    rcases hc with hc | rfl
    · exact ne_of_inWord hc hd.1
    · exact hd.2.symm
  rw [hcons, List.cons_append] at hskip
  have hoperator : operatorMark "=" (' ' :: (w ++ tail)) = none := by
    rw [hcons, List.cons_append]
    refine operatorMark_eq_none (operator_eq_none hskip fun hmem => ?_) "="
    exact hne (Text.forall_mem_of_all (p := fun d => inWord d = false ∧ d ≠ '\\') (by decide) c hmem)
      rfl
  have hlist : exportListEnd r (' ' :: (w ++ tail)) = none := by
    rw [exportListEnd, optional, hkeyword "type" htype, Option.getD_none, hcons, List.cons_append,
      hskip]
    split
    · next heq => exact absurd (List.cons.inj heq).1 (hne (by decide))
    · next heq => exact absurd (List.cons.inj heq).1 (hne (by decide))
    · rfl
  have hnamespace : exportNamespaceEnd (' ' :: (w ++ tail)) = none := by
    rw [exportNamespaceEnd, hkeyword "as" has]
    rfl
  rw [exportStatement, hoperator, hlist, hnamespace, hkeyword "import" himport,
    word_many_decoratorEnd h htail (h.skip_space tail)]
  rfl

/-- Behind the word for exports, a constant is neither a list nor a value that is exported. -/
theorem exportStatement_constant (h : IsToken w) (hw : w ≠ "enum".toList) (start tail : Chars) :
    exportStatement r start (' ' :: ("const".toList ++ ' ' :: (w ++ ' ' :: tail))) =
      declaring r true start (' ' :: (w ++ ' ' :: tail)) := by
  have hdefault : ¬ String.ofList "const".toList = "default" := by decide
  rw [exportStatement_token isToken_const (stopsWord_space _) (by decide), if_neg hdefault,
    String.ofList_toList, declarationEnd_const h hw tail]
  rfl

/-- A statement that begins with a word. -/
theorem statement_token (h : IsToken w) (htail : StopsWord tail) :
    statement r (w ++ tail) = wordStatement r (w ++ tail) (String.ofList w) tail := by
  have hword := h htail
  have hskip := h.skip_append tail
  obtain ⟨c, w', rfl, hc⟩ := h.exists_cons
  rw [List.cons_append] at hskip hword ⊢
  rw [statement, hskip]
  split
  · next heq => cases heq
  · next heq =>
    obtain rfl := (List.cons.inj heq).1
    exact absurd hc (by decide)
  · next heq =>
    obtain rfl := (List.cons.inj heq).1
    exact absurd hc (by decide)
  · next heq =>
    obtain rfl := (List.cons.inj heq).1
    exact absurd hc (by decide)
  · rw [hword]

/-- **How the statement of a constant is read**: as variables, behind the words in front of them. -/
theorem statement_constant (h : IsToken w) (hw : w ≠ "enum".toList) (exported : Bool)
    (tail : Chars) :
    statement r (constantText exported w tail) = declaring r exported
      (constantText exported w tail) (' ' :: (w ++ ' ' :: '=' :: ' ' :: tail)) := by
  cases exported with
  | false =>
    have htext : constantText false w tail =
        "const".toList ++ ' ' :: (w ++ ' ' :: '=' :: ' ' :: tail) := rfl
    rw [htext, statement_token isToken_const (stopsWord_space _), String.ofList_toList,
      wordStatement, if_neg (by decide), if_neg (by decide), if_neg (by decide),
      declarationEnd_const h hw]
    exact Option.or_none
  | true =>
    have htext : constantText true w tail = "export".toList ++
        ' ' :: ("const".toList ++ ' ' :: (w ++ ' ' :: '=' :: ' ' :: tail)) := rfl
    have hexport : IsToken "export".toList := isToken_of_identifier (by decide)
    rw [htext, statement_token hexport (stopsWord_space _), String.ofList_toList, wordStatement,
      if_neg (by decide), if_pos rfl]
    exact exportStatement_constant h hw _ _

/-! ### Accepted initializers -/

theorem moreDeclarators_eq_map (before : List Declarator) (cs : Chars) :
    moreDeclarators r before cs =
      ((mark "," cs).bind (declarator r)).map fun x => (before ++ [x.1], x.2) := by
  rw [moreDeclarators]
  cases mark "," cs with
  | none => rfl
  | some behind =>
    rw [Option.bind_eq_bind, Option.bind_some, Option.bind_some]
    cases declarator r behind <;> rfl

/-- A single variable is not followed by another one. -/
theorem extend_moreDeclarators_eq {first d : Declarator} {stop : Chars}
    (h : extend (moreDeclarators r) [first] rest = ([d], stop)) :
    first = d ∧ stop = rest ∧ (mark "," rest).bind (declarator r) = none := by
  rw [extend, extendFrom] at h
  split at h
  · next ds behind hmore =>
    simp only [moreDeclarators, Option.bind_eq_bind, Option.bind_eq_some_iff] at hmore
    obtain ⟨_, -, ⟨d', last⟩, -, hds⟩ := hmore
    cases hds
    have hlead := prefix_extendFrom_moreDeclarators (r := r) rest.length [first, d'] last
    have hextend : extendFrom (moreDeclarators r) rest.length [first, d'] last = ([d], stop) := h
    rw [hextend] at hlead
    exact absurd hlead.length_le (Nat.not_succ_le_self 1)
  · next hmore =>
    cases h
    refine ⟨rfl, rfl, ?_⟩
    rw [moreDeclarators_eq_map] at hmore
    exact Option.map_eq_none_iff.1 hmore

/-- What an accepted initializer is: behind the equals sign of the statement in which it is tried,
its text and the semicolon are one expression, and nothing else is declared. -/
theorem exists_value_of_isInitializer {expression : Chars} (h : isInitializer expression = true) :
    let r := reader ((initializerFrame expression).length + 1)
    ∃ value rest, r.expression true (' ' :: (expression ++ [';'])) = some (value, rest) ∧
      (mark "," rest).bind (declarator r) = none ∧ endStatement true rest = some [] ∧
      value.fragment.text = Text.trim (String.ofList expression) := by
  intro r
  unfold isInitializer at h
  dsimp only at h
  split at h
  · next exported name value fragment g hitems =>
    obtain ⟨hg, htext⟩ := Bool.and_eq_true_iff.1 h
    obtain rfl := eq_of_beq hg
    have hmem : .declaring exported true [⟨name, some value, fragment⟩]
        ⟨initializerFrame expression, []⟩ ∈ items (initializerFrame expression) := by
      have hmem' := hitems ▸ List.mem_singleton_self _
      exact (List.mem_filter.1 hmem').1
    obtain ⟨exported', word, behind, last, hopening, hdeclaring⟩ := exists_opening_of_mem_items hmem
    have hconst : variableOpening r (initializerFrame expression) = some (false, "const".toList,
        ' ' :: ("__binding".toList ++ ' ' :: '=' :: ' ' :: (expression ++ [';']))) :=
      variableOpening_const false _
    obtain ⟨rfl, rfl, rfl⟩ := Prod.mk.inj (Option.some.inj (hopening.symm.trans hconst))
    rw [declaring, Option.bind_eq_bind, Option.bind_eq_some_iff] at hdeclaring
    obtain ⟨⟨ds, stop⟩, hds, hended⟩ := hdeclaring
    rw [Option.bind_eq_bind, Option.bind_eq_some_iff] at hended
    obtain ⟨last', hend, heq⟩ := hended
    cases heq
    rw [declarators, Option.bind_eq_bind, Option.bind_eq_some_iff] at hds
    obtain ⟨⟨first, rest⟩, hfirst, hextend⟩ := hds
    obtain ⟨rfl, rfl, hmore⟩ := extend_moreDeclarators_eq (Option.some.inj hextend)
    have hbinding : IsToken "__binding".toList := isToken_of_identifier (by decide)
    obtain ⟨⟨value', rest'⟩, hexpression, heq⟩ :=
      Option.map_eq_some_iff.1 ((declarator_token hbinding _).symm.trans hfirst)
    cases heq
    exact ⟨value', _, hexpression, hmore, hend, eq_of_beq htext⟩
  · cases h

/-- **An accepted initializer is read alike at every sufficient depth**: with the semicolon behind
it, it is one expression that follows the grammar, and the statement ends there. -/
theorem value_of_isInitializer {expression : Chars} (h : isInitializer expression = true)
    {depth : ℕ} (hdepth : expression.length + 4 ≤ depth) :
    ∃ value rest, (reader depth).expression true (' ' :: (expression ++ [';'])) =
        some (value, rest) ∧ Intact value ∧
      (mark "," rest).bind (declarator (reader depth)) = none ∧ endStatement true rest = some [] ∧
      value.fragment.text = Text.trim (String.ofList expression) := by
  obtain ⟨value, rest, hexpression, hmore, hend, htext⟩ := exists_value_of_isInitializer h
  obtain ⟨k, rfl⟩ := Nat.exists_eq_add_of_le hdepth
  obtain ⟨k', hk'⟩ : ∃ k', (initializerFrame expression).length + 1 = expression.length + 4 + k' :=
    Nat.exists_eq_add_of_le (by
      rw [initializerFrame_eq, constantText]
      simp only [List.length_append, List.length_cons]
      omega)
  rw [hk'] at hexpression hmore
  have hagree := agreeBelow_reader (expression.length + 4) k' k
  have hlength : (' ' :: (expression ++ [';'])).length = expression.length + 2 := by
    rw [List.length_cons, List.length_append]
    rfl
  have hread := hagree.expression true (' ' :: (expression ++ [';'])) (by omega)
  obtain ⟨hlt, hintact⟩ := hread.gives _ hexpression
  refine ⟨value, rest, hread.eq.symm.trans hexpression, hintact, ?_, hend, htext⟩
  have hcomma : Alike Anything
      ((mark "," rest).bind (declarator (reader (expression.length + 4 + k'))))
      ((mark "," rest).bind (declarator (reader (expression.length + 4 + k)))) :=
    (alike_mark _ (by decide) rest).bind fun behind hbehind =>
      (alike_declarator hagree behind (by dsimp only at hlt; omega)).mono fun _ _ => trivial
  rw [← hcomma.eq, hmore]

/-! ### Constants that are read back -/

/-- A variable stands for a constant: it has its name, and its value is the text of the
initializer. -/
structure Declarator.StandsFor (declared : Declarator) (name text : String) : Prop where
  /-- The name is that of the constant. -/
  name : declared.name.map Fragment.text = some name
  /-- The value follows the grammar and is written as the initializer. -/
  value : ∃ value, declared.value = some value ∧ Intact value ∧ value.fragment.text = text

/-- The statement of a constant is one variable that stands for it, if its initializer is an
expression behind which the statement ends. -/
theorem statement_of_value (h : IsToken w) (hw : w ≠ "enum".toList) (exported : Bool)
    {depth : ℕ} {stop : Chars} {value : Expr}
    (hread : (reader depth).expression true (' ' :: tail) = some (value, rest))
    (hintact : Intact value) (hmore : (mark "," rest).bind (declarator (reader depth)) = none)
    (hend : endStatement true rest = some stop) :
    ∃ declared : Declarator, declared.StandsFor (String.ofList w) value.fragment.text ∧
      statement (reader depth) (constantText exported w tail) =
        some (.declaring exported true [declared] ⟨constantText exported w tail, stop⟩, stop) := by
  cases depth with
  | zero => cases hread
  | succ depth =>
    let behind : Chars := ' ' :: '=' :: ' ' :: tail
    let d : Declarator := ⟨some ⟨w ++ behind, behind⟩, some value, ⟨w ++ behind, rest⟩⟩
    have hd : declarator (reader (depth + 1)) (' ' :: (w ++ behind)) = some (d, rest) := by
      refine (declarator_token h _).trans ?_
      rw [show (rules (reader depth)).expression true (' ' :: tail) = some (value, rest) from hread]
      rfl
    have hlast : extend (moreDeclarators (reader (depth + 1))) [d] rest = ([d], rest) :=
      extend_eq_self (by rw [moreDeclarators_eq_map, hmore, Option.map_none])
    have hname : d.name.map Fragment.text = some (String.ofList w) := by
      rw [Option.map_some, Fragment.text, Fragment.chars, upTo_append]
    refine ⟨d, ⟨hname, value, rfl, hintact, rfl⟩, ?_⟩
    rw [statement_constant h hw, declaring, declarators, hd]
    simp only [Option.bind_eq_bind, Option.bind_some, Option.pure_def, hlast]
    show (endStatement true rest).bind _ = _
    rw [hend]
    rfl

/-- The statement of a constant that is accepted is one variable that stands for it, to the end of
the source. -/
theorem statement_of_isInitializer (h : IsToken w) (hw : w ≠ "enum".toList) (exported : Bool)
    {expression : Chars} (hexpression : isInitializer expression = true) {depth : ℕ}
    (hdepth : expression.length + 4 ≤ depth) :
    ∃ declared : Declarator,
      declared.StandsFor (String.ofList w) (Text.trim (String.ofList expression)) ∧
      statement (reader depth) (constantText exported w (expression ++ [';'])) =
        some (.declaring exported true [declared]
          ⟨constantText exported w (expression ++ [';']), []⟩, []) := by
  obtain ⟨value, rest, hread, hintact, hmore, hend, htext⟩ :=
    value_of_isInitializer hexpression hdepth
  rw [← htext]
  exact statement_of_value h hw exported hread hintact hmore hend

/-- The items of a source that ends with the statement of a constant. -/
theorem ReadsUpTo.items_constant (h : IsToken w) (hw : w ≠ "enum".toList) {exported : Bool}
    {expression before : Chars} (hexpression : isInitializer expression = true)
    (hbefore : ReadsUpTo (before ++ constantText exported w (expression ++ [';'])) found
      (constantText exported w (expression ++ [';']))) :
    ∃ declared : Declarator,
      declared.StandsFor (String.ofList w) (Text.trim (String.ofList expression)) ∧
      items (before ++ constantText exported w (expression ++ [';'])) =
        found ++ [.declaring exported true [declared]
          ⟨constantText exported w (expression ++ [';']), []⟩] := by
  obtain ⟨c, cs, hcons, hc⟩ := exists_cons_constantText exported w (expression ++ [';'])
  have hdepth : expression.length + 4 ≤
      (before ++ constantText exported w (expression ++ [';'])).length + 1 := by
    rw [constantText]
    simp only [List.length_append, List.length_cons]
    omega
  obtain ⟨declared, hdeclared, hstatement⟩ :=
    statement_of_isInitializer h hw exported hexpression hdepth
  obtain ⟨fuel, hfuel, hitems⟩ := hbefore.items_eq
  obtain ⟨fuel, rfl⟩ := Nat.exists_eq_add_one_of_ne_zero (Nat.ne_zero_of_lt hfuel)
  refine ⟨declared, hdeclared, hitems.trans (congrArg (found ++ ·) ?_)⟩
  generalize reader ((before ++ constantText exported w (expression ++ [';'])).length + 1) = r
    at hstatement ⊢
  rw [hcons] at hstatement ⊢
  rw [itemsFrom_statement hc hstatement]
  cases fuel <;> rfl

/-- A variable that stands for a constant puts it. -/
theorem Reading.add_constant (reading : Reading) {declared : Declarator} {name text : String}
    (h : declared.StandsFor name text) (hschema : Store.isSchemaName name = true) (exported : Bool)
    (g : Fragment) : reading.add (.declaring exported true [declared] g) =
      { reading with
        store := reading.store.insertDefinition ⟨name, text, exported⟩, comments := [] } := by
  obtain ⟨hname, value, hvalue, hintact, rfl⟩ := h
  show { reading.addVariables exported true [declared] g with comments := [] } = _
  rw [addVariables, List.any_cons, isSchema_of_name hschema hname, Bool.true_or, Bool.not_true,
    if_neg Bool.false_ne_true]
  dsimp only
  rw [addSchema, hvalue, hname]
  dsimp only
  rw [hintact, if_neg Bool.false_ne_true]
  rfl

/-- What is accepted: the name is an identifier, and the text is an initializer. -/
theorem of_addDefinition_eq_ok {store next : Store} {name expression : String} {exported : Bool}
    (h : store.addDefinition name expression exported = .ok next) :
    Text.isIdentifierChars name.toList = true ∧
      isInitializer (Store.initializerText expression).toList = true ∧
      next = store.insertDefinition ⟨name, Store.initializerText expression, exported⟩ := by
  unfold Store.addDefinition at h
  split at h
  · next hname =>
    dsimp only at h
    split at h
    · next hcheck =>
      refine ⟨hname, ?_, (Except.ok.inj h).symm⟩
      unfold checkExpression at hcheck
      split at hcheck
      · cases hcheck
      · split at hcheck
        · next hinitializer => exact hinitializer
        · cases hcheck
    · cases h
  · cases h

theorem filter_eq_singleton {α κ : Type} [DecidableEq κ] {key : α → κ} {l : List α} {item : α}
    (hnd : (l.map key).Nodup) (h : item ∈ l) : l.filter (key · == key item) = [item] := by
  obtain ⟨front, behind, rfl⟩ := List.append_of_mem h
  rw [List.map_append, List.map_cons, List.nodup_middle, List.nodup_cons, List.mem_append,
    not_or] at hnd
  have hnone (items : List α) (hkey : key item ∉ items.map key) :
      items.filter (key · == key item) = [] := by
    refine List.filter_eq_nil_iff.2 fun x hx => ?_
    rw [beq_iff_eq]
    intro heq
    exact hkey (heq ▸ List.mem_map_of_mem hx)
  rw [List.filter_append, hnone front hnd.1.1, List.nil_append,
    List.filter_cons_of_pos (p := (key · == key item)) (beq_self_eq_true (key item)),
    hnone behind hnd.1.2]

/-- A constant that is accepted. -/
def pageConstant : Definition :=
  ⟨"PageSchema", Store.initializerText " z; ", true⟩

/-- A source in which it stands behind a comment and a statement. -/
def pageSource : Chars :=
  "// pages\nf();\n".toList ++ Store.renderDefinition pageConstant

theorem read_pageSource :
    (Store.empty.addDefinition "PageSchema" " z; " true).isOk = true ∧
    comment? (pageSource.dropWhile isSpace) = some (pageSource.drop 8) ∧
    comment? ((pageSource.drop 8).dropWhile isSpace) = none ∧
    (statement (reader (pageSource.length + 1)) ((pageSource.drop 8).dropWhile isSpace)).map (·.2) =
      some (pageSource.drop 13) := by
  decide +kernel

/-- A pattern that begins with an asterisk, and one whose asterisk is the last character. -/
def patternConstants : Definition × Definition :=
  (⟨"ASchema", "/*/", false⟩, ⟨"BSchema", "/y*/i", false⟩)

end Source

end ModuleScaffold

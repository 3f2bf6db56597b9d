import ModuleScaffold.Proofs.Denotation.Plain
import ModuleScaffold.Proofs.Reading.Reference

/-!
# Values that are read back

A text *reads as* a value (`ModuleScaffold.Source.ReadsAs`) if the rule for expressions takes
exactly that text wherever the end of an element follows, at any depth that the text may need, and
the tree it gives has that value and is plain, so that nothing else was written. There is one statement for each form of a value; those for arrays,
objects and calls take any texts of their parts, so that they serve for values on one line and
on several lines alike.

Main statements:

* `ModuleScaffold.Source.ReadsAs.string`, `ModuleScaffold.Source.ReadsAs.number`,
  `ModuleScaffold.Source.ReadsAs.regex` – literals are read back;
* `ModuleScaffold.Source.ReadsAs.identifier` – **a reference is read back**;
* `ModuleScaffold.Source.ReadsAs.array`, `ModuleScaffold.Source.ReadsAs.object`,
  `ModuleScaffold.Source.ReadsAs.call` – **arrays, objects and calls are read back from the texts of
  their parts**.
-/

namespace ModuleScaffold

open Text

namespace Source

/-! ### Reading -/

/-- What an expression inside brackets stands for. -/
structure Expr.Stands (v : Value) (e : Expr) : Prop where
  /-- Its value. -/
  value : e.value = .ok v
  /-- It follows the grammar. -/
  sound : e.isDamaged = false
  /-- A list is written as one. -/
  array : ∀ vs, v = .array vs → ∃ items f, e = .array items f
  /-- It says nothing else. -/
  plain : e.isPlain = true

/-- A text is read as a value. -/
structure ReadsAs (v : Value) (text : Chars) : Prop where
  /-- The text can be told from the marks of a list. -/
  begins : Begins text
  /-- It is read, wherever the end of an element follows. -/
  reads : ∀ {depth : ℕ} {cs rest : Chars}, text.length ≤ depth → Ends rest →
    skip cs = text ++ rest → ∃ e, (reader depth).expression false cs = some (e, rest) ∧
      e.fragment.stop = rest ∧ e.Stands v

/-- A leaf stands for its value if it is read as what it denotes. -/
theorem Expr.stands_leaf {kind : Kind} {f : Fragment} {v : Value} (h : leafValue kind f = .ok v)
    (hplain : isPlainLeaf kind f = true) (harray : ∀ vs, v ≠ .array vs) :
    (Expr.leaf kind f).Stands v :=
  ⟨h, rfl, fun vs hvs => absurd hvs (harray vs), by rw [Expr.isPlain, hplain]⟩

theorem suffixed_of_primaryRule {r : Reader} {lineEnds : Bool} {cs rest : Chars} {e : Expr}
    (h : primaryRule r cs = some (e, rest)) (hrest : Ends rest) :
    suffixed r lineEnds cs = some (e, rest) := by
  rw [suffixed, h]
  exact congrArg some (extend_eq_self (hrest.suffixStep_eq_none r lineEnds e))

/-- What is known of the first character of a text that starts with a mark of its own. -/
structure IsMark (c : Char) : Prop where
  /-- It is no blank. -/
  space : isSpace c = false
  /-- It starts no operator. -/
  operator : c ∉ operatorHeads
  /-- It is no mark of a list. -/
  ender : c ∉ '.' :: enders
  /-- It starts no word. -/
  word : ∀ tail, wordHere (c :: tail) = none

theorem IsMark.kept {c : Char} (h : IsMark c) (tail : Chars) : skip (c :: tail) = c :: tail := by
  refine skip_cons h.space ?_
  rintro rfl
  exact h.operator (by decide)

/-- In front of the end of an element, a primary expression with a mark of its own is read. -/
theorem expression_of_mark {c : Char} {depth : ℕ} {text cs rest : Chars} {e : Expr} (hc : IsMark c)
    (h : primaryRule (reader depth) (c :: text ++ rest) = some (e, rest)) (hrest : Ends rest)
    (hskip : skip cs = c :: text ++ rest) :
    (reader (depth + 1)).expression false cs = some (e, rest) := by
  refine expressionRule_of_operandRule (mayBeAsynchronous_of_mark ?_) ?_ hrest
  · rw [hskip]
    exact hc.word _
  · rw [operandRule_of_mark hskip (hc.kept _) hc.operator (hc.word _)]
    exact counted_of_suffixed (suffixed_of_primaryRule h hrest) hrest

/-- A text that starts with a mark of its own and is read as a primary expression. -/
theorem ReadsAs.of_mark {v : Value} {c : Char} {text : Chars} (hc : IsMark c)
    (h : ∀ {depth : ℕ} {rest : Chars}, text.length ≤ depth → Ends rest →
      ∃ e, primaryRule (reader depth) (c :: text ++ rest) = some (e, rest) ∧
        e.fragment.stop = rest ∧ e.Stands v) : ReadsAs v (c :: text) := by
  refine ⟨⟨fun rest => hc.kept _, c, text, rfl, hc.ender⟩, ?_⟩
  intro depth cs rest hdepth hrest hskip
  obtain ⟨depth, rfl⟩ := Nat.exists_eq_add_one.2 (Nat.lt_of_lt_of_le (Nat.succ_pos _) hdepth)
  obtain ⟨e, he, hstop, hv⟩ := h (Nat.le_of_succ_le_succ hdepth) hrest
  exact ⟨e, expression_of_mark hc he hrest hskip, hstop, hv⟩

theorem stopsWord_cons {c : Char} {cs : Chars} (h : inWord c = false) (hc : c ≠ '\\') :
    StopsWord (c :: cs) := by
  rintro d hd
  obtain rfl : c = d := by simpa using hd
  exact ⟨h, hc⟩

theorem stopsWord_space (cs : Chars) : StopsWord (' ' :: cs) :=
  stopsWord_cons (by decide) (by decide)

/-! ### Literals -/

theorem ReadsAs.string (text : String) : ReadsAs (.string text) (Text.quoteChars text.toList) := by
  have hmark : IsMark '"' := ⟨by decide, by decide, by decide, fun tail =>
    wordHere_eq_none (stopsWord_cons (by decide) (by decide))⟩
  refine .of_mark hmark fun {depth rest} _ _ => ?_
  refine ⟨.leaf .string ⟨Text.quoteChars text.toList ++ rest, rest⟩, ?_, rfl, ?_⟩
  · change primaryRule (reader depth) (Text.quoteChars text.toList ++ rest) = _
    have hkept : skip (Text.quoteChars text.toList ++ rest) = Text.quoteChars text.toList ++ rest :=
      hmark.kept _
    have hhere := stringHere_quoteChars text.toList rest
    rw [primaryRule, hkept]
    rw [Text.quoteChars, List.cons_append] at hhere ⊢
    simp only
    rw [if_neg (by decide), if_neg (by decide), if_neg (by decide), if_pos (by decide), hhere]
    rfl
  · refine Expr.stands_leaf ?_ ?_ (by simp)
    · rw [leafValue, quotedText, Fragment.chars, upTo_append, Text.unescape_quoteChars,
        String.ofList_toList]
    · rw [isPlainLeaf, beq_iff_eq, Fragment.chars, upTo_append, Text.unescape_quoteChars,
        Text.stringUnits_quoteChars]

theorem isMark_digit {c : Char} (h : c.isDigit = true) : IsMark c := by
  have hword : inWord c = true := inWord_of_isAlphanum (by simp [Char.isAlphanum, h])
  refine ⟨?_, ?_, ?_, fun tail => wordHere_digit h⟩
  · simp only [inWord, Bool.and_eq_true, Bool.not_eq_true'] at hword
    exact hword.1.2
  · intro hmem
    have hout := Text.forall_mem_of_all (p := fun d => d.isDigit = false) (by decide) c hmem
    exact ne_of_isDigit h hout rfl
  · intro hmem
    have hout := Text.forall_mem_of_all (p := fun d => d.isDigit = false) (by decide) c hmem
    exact ne_of_isDigit h hout rfl

theorem exists_cons_of_isDecimal {cs : Chars} (h : IsDecimal cs) :
    ∃ c tail, cs = c :: tail ∧ c.isDigit = true := by
  cases h with
  | @whole ds hne hd =>
    cases cs with
    | nil => exact absurd rfl hne
    | cons c tail => exact ⟨c, tail, rfl, hd c (by simp)⟩
  | @point ds part hne hd =>
    cases ds with
    | nil => exact absurd rfl hne
    | cons c tail => exact ⟨c, tail ++ '.' :: part, rfl, hd c (by simp)⟩

/-- What follows an element is not the point of a number. -/
theorem Ends.head?_ne_point {rest : Chars} (h : Ends rest) : rest.head? ≠ some '.' := by
  obtain ⟨c, cs, rfl, hc⟩ := h.head
  rintro hd
  obtain rfl : c = '.' := by simpa using hd
  rcases hc with hc | hc | hc
  · revert hc
    decide
  · revert hc
    decide
  · revert hc
    decide

theorem primaryRule_decimal {r : Reader} {cs rest : Chars} (h : IsDecimal cs) (hrest : Ends rest) :
    primaryRule r (cs ++ rest) = some (.leaf .number ⟨cs ++ rest, rest⟩, rest) := by
  have hhere := numberHere_append h hrest.stopsWord hrest.head?_ne_point
  obtain ⟨c, tail, rfl, hc⟩ := exists_cons_of_isDecimal h
  have hne : ∀ d, d.isDigit = false → c ≠ d := fun _ hd => ne_of_isDigit hc hd
  rw [primaryRule, List.cons_append, (isMark_digit hc).kept]
  simp only
  rw [if_neg (hne _ (by decide)), if_neg (hne _ (by decide)), if_neg (hne _ (by decide)),
    if_neg (by simp [hne '"' (by decide), hne '\'' (by decide)]), if_neg (hne _ (by decide)),
    if_neg (hne _ (by decide)), if_pos (by simp [hc]), ← List.cons_append, hhere]
  rfl

theorem leafValue_decimal {cs rest : Chars} {n : Number.Double}
    (h : Number.Double.ofLiteral cs = some n) :
    leafValue .number ⟨cs ++ rest, rest⟩ = .ok (.number n) := by
  rw [leafValue, Fragment.chars, upTo_append, h]

/-- The digits of a number are read as what they denote. -/
theorem isPlainLeaf_shortest (rank : ℕ) (rest : Chars) :
    isPlainLeaf .number ⟨(Number.shortest rank).positional ++ rest, rest⟩ = true := by
  rw [isPlainLeaf, beq_iff_eq, Fragment.chars, upTo_append, Number.Numeric.ofLiteral_shortest]

/-- A number that its own text gives back. -/
def ReadsBack (n : Number.Double) : Prop :=
  Number.Double.ofText n.toText = some n

/-- **Every finite number is given back by its text.** -/
theorem readsBack {n : Number.Double} (h : n.isFinite = true) : ReadsBack n :=
  Number.ofText_toText h

theorem operator_minus {c : Char} (hc : c.isDigit = true) (tail : Chars) :
    operator ('-' :: c :: tail) = some ("-", c :: tail) := by
  have hequals : c ≠ '=' := ne_of_isDigit hc (by decide)
  have hminus : c ≠ '-' := ne_of_isDigit hc (by decide)
  rw [operator, skip_cons (by decide) (by decide)]
  simp [operatorMarks, exactly, hequals.symm, hminus.symm]

theorem wordHere_minus (tail : Chars) : wordHere ('-' :: tail) = none :=
  wordHere_eq_none (stopsWord_cons (by decide) (by decide))

/-- A number below zero is its digits with an operator in front of them. -/
theorem ReadsAs.negative {rank : Fin Number.rankCount} (h : ReadsBack (.finite true rank)) :
    ReadsAs (.number (.finite true rank)) ('-' :: (Number.shortest rank).positional) := by
  have hdec := Number.isDecimal_positional (Number.shortest rank)
  obtain ⟨c, tail, hcons, hc⟩ := exists_cons_of_isDecimal hdec
  have hkept : ∀ rest, skip ('-' :: rest) = '-' :: rest := fun rest =>
    skip_cons (by decide) (by decide)
  refine ⟨⟨fun rest => hkept _, '-', _, rfl, by decide⟩, ?_⟩
  intro depth cs rest hdepth hrest hskip
  -- one level of the reader is for the sign and one for the digits
  have hdepth' : 2 ≤ depth := by
    rw [hcons] at hdepth
    simp only [List.length_cons] at hdepth
    omega
  obtain ⟨depth, rfl⟩ := Nat.exists_eq_add_of_le' hdepth'
  have hoperand : operandRule (reader depth) false ((Number.shortest rank).positional ++ rest) =
      some (.leaf .number ⟨(Number.shortest rank).positional ++ rest, rest⟩, rest) := by
    have hprimary := primaryRule_decimal (r := reader depth) hdec hrest
    rw [hcons] at hprimary ⊢
    have hmark := isMark_digit hc
    rw [List.cons_append] at hprimary ⊢
    rw [operandRule_of_mark (hmark.kept _) (hmark.kept _) hmark.operator (hmark.word _)]
    exact counted_of_suffixed (suffixed_of_primaryRule hprimary hrest) hrest
  refine ⟨.unary ['-'] (.leaf .number ⟨(Number.shortest rank).positional ++ rest, rest⟩)
    ⟨'-' :: (Number.shortest rank).positional ++ rest, rest⟩, ?_, rfl, ?_⟩
  · change expressionRule (reader (depth + 1)) false cs = _
    refine expressionRule_of_operandRule (mayBeAsynchronous_of_mark ?_) ?_ hrest
    · rw [hskip]
      exact wordHere_minus _
    · have hoperator : operator ('-' :: (Number.shortest rank).positional ++ rest) =
          some ("-", (Number.shortest rank).positional ++ rest) := by
        rw [hcons]
        exact operator_minus hc _
      rw [operandRule, hskip]
      simp only [hoperator]
      rw [if_pos (by decide), prefixed]
      change (operandRule (reader depth) false _).map _ = _
      rw [hoperand]
      rfl
  · refine ⟨?_, rfl, fun vs hvs => (by cases hvs), ?_⟩
    · rw [Expr.value, Expr.value, leafValue_decimal (Number.ofLiteral_positional h)]
      rfl
    · rw [Expr.isPlain, Expr.isPlain, isPlainLeaf_shortest]

/-- **A finite number that its text gives back is read back.** -/
theorem ReadsAs.number {n : Number.Double} (hfinite : n.isFinite = true) (h : ReadsBack n) :
    ReadsAs (.number n) n.toText.toList := by
  cases n with
  | nan => cases hfinite
  | infinite negative => cases hfinite
  | finite negative rank =>
    rw [Number.Double.toText, String.toList_ofList]
    cases negative with
    | true => exact .negative h
    | false =>
      have hdec := Number.isDecimal_positional (Number.shortest rank)
      obtain ⟨c, tail, hcons, hc⟩ := exists_cons_of_isDecimal hdec
      rw [if_neg Bool.false_ne_true, List.nil_append, hcons]
      refine .of_mark (isMark_digit hc) fun {depth rest} _ hrest => ?_
      rw [← hcons]
      exact ⟨_, primaryRule_decimal hdec hrest, rfl, Expr.stands_leaf
        (leafValue_decimal (Number.ofLiteral_positional h)) (isPlainLeaf_shortest rank rest)
        (by simp)⟩

/-- A value that is written as a word. -/
theorem ReadsAs.of_word {v : Value} {w : Chars} (hw : Text.isIdentifierChars w = true)
    (hplain : String.ofList w ∉ prefixWords) (hawait : w ≠ "await".toList)
    (h : ∀ {r : Reader} {rest : Chars}, Ends rest → ∃ e,
      primaryRule r (w ++ rest) = some (e, rest) ∧ e.fragment.stop = rest ∧ e.Stands v) :
    ReadsAs v w := by
  refine ⟨by simpa using begins_identifier hw [], ?_⟩
  intro depth cs rest hdepth hrest hskip
  have hpos : 0 < w.length := by
    obtain ⟨c, w, rfl, -, -⟩ := exists_cons_of_isIdentifierChars hw
    exact Nat.succ_pos _
  obtain ⟨depth, rfl⟩ := Nat.exists_eq_add_one.2 (Nat.lt_of_lt_of_le hpos hdepth)
  obtain ⟨e, he, hstop, hv⟩ := h (r := reader depth) hrest
  refine ⟨e, ?_, hstop, hv⟩
  change expressionRule (reader depth) false cs = some (e, rest)
  refine expressionRule_of_operandRule
    ((FollowsName.ends hrest).mayBeAsynchronous_eq_false hw hskip) ?_ hrest
  rw [operandRule_of_word hskip hw hrest.stopsWord hplain hawait]
  exact counted_of_suffixed (suffixed_of_primaryRule he hrest) hrest

/-- A literal that is written as a word. -/
theorem ReadsAs.literal {v : Value} {text : String} {kind : Kind}
    (hw : Text.isIdentifierChars text.toList = true) (hplain : text ∉ prefixWords)
    (hawait : text.toList ≠ "await".toList)
    (hexpr : ∀ (r : Reader) (start rest : Chars),
      wordExpression r start text rest = some (leafTo kind start rest))
    (hvalue : ∀ f, leafValue kind f = .ok v) (hkind : ∀ f, isPlainLeaf kind f = true)
    (harray : ∀ vs, v ≠ .array vs) : ReadsAs v text.toList := by
  refine .of_word hw (by rwa [String.ofList_toList]) hawait fun {r rest} hrest => ?_
  refine ⟨.leaf kind ⟨text.toList ++ rest, rest⟩, ?_, rfl,
    Expr.stands_leaf (hvalue _) (hkind _) harray⟩
  rw [primaryRule_word (skip_identifier hw) hw hrest.stopsWord, String.ofList_toList, hexpr]
  rfl

theorem ReadsAs.null : ReadsAs .null "null".toList :=
  .literal (by decide) (by decide) (by decide) (fun _ _ _ => rfl) (fun _ => rfl) (fun _ => rfl)
    (by simp)

theorem ReadsAs.boolean (value : Bool) :
    ReadsAs (.boolean value) (if value then "true".toList else "false".toList) := by
  cases value with
  | true =>
    exact .literal (by decide) (by decide) (by decide) (fun _ _ _ => rfl) (fun _ => rfl)
      (fun _ => rfl) (by simp)
  | false =>
    exact .literal (by decide) (by decide) (by decide) (fun _ _ _ => rfl) (fun _ => rfl)
      (fun _ => rfl) (by simp)

/-! ### Regular expressions -/

theorem operator_slash {c : Char} {cs : Chars} (hkept : skip ('/' :: c :: cs) = '/' :: c :: cs) :
    operator ('/' :: c :: cs) = some ("/", c :: cs) ∨
      operator ('/' :: c :: cs) = some ("/=", cs) := by
  rw [operator, hkept]
  by_cases hc : c = '='
  · subst hc
    exact .inr (by simp [operatorMarks, exactly])
  · have hequals : '=' ≠ c := fun h => hc h.symm
    exact .inl (by simp [operatorMarks, exactly, hequals])

theorem ReadsAs.regex {pattern flags : String} (h : Regex.problem? pattern flags = none) :
    ReadsAs (.regex pattern flags) ('/' :: (pattern.toList ++ '/' :: flags.toList)) := by
  have hkept := skip_regex h
  refine ⟨⟨hkept, '/', _, rfl, by decide⟩, ?_⟩
  intro depth cs rest hdepth hrest hskip
  obtain ⟨depth, rfl⟩ := Nat.exists_eq_add_one.2 (Nat.lt_of_lt_of_le (Nat.succ_pos _) hdepth)
  have hstart : ∃ c tail,
      '/' :: (pattern.toList ++ '/' :: flags.toList) ++ rest = '/' :: c :: tail := by
    obtain ⟨hne, -, -, -⟩ := bodyProblemFrom_of_problem? h
    cases hp : pattern.toList with
    | nil => exact absurd hp hne
    | cons c tail => exact ⟨c, _, rfl⟩
  have hword : wordHere ('/' :: (pattern.toList ++ '/' :: flags.toList) ++ rest) = none :=
    wordHere_eq_none (stopsWord_cons (by decide) (by decide))
  have hprimary : primaryRule (reader depth)
      ('/' :: (pattern.toList ++ '/' :: flags.toList) ++ rest) =
      some (.regex pattern.toList flags.toList
        ⟨'/' :: (pattern.toList ++ '/' :: flags.toList) ++ rest, rest⟩, rest) := by
    have hhere := regexHere_append h hrest.stopsWord
    rw [primaryRule, hkept]
    simp only [List.cons_append] at hhere ⊢
    rw [if_neg (by decide), if_neg (by decide), if_neg (by decide), if_neg (by decide),
      if_neg (by decide), if_pos trivial, hhere]
    rfl
  -- a slash is taken for an operator first, and that operator has no operand in front of it
  have hoperand : operandRule (reader depth) false cs =
      counted (reader depth) false ('/' :: (pattern.toList ++ '/' :: flags.toList) ++ rest) := by
    rw [operandRule, hskip]
    have hself := hkept rest
    obtain ⟨c, tail, hcons⟩ := hstart
    rw [hcons] at hself ⊢
    rcases operator_slash hself with hop | hop
    · simp only [hop]
      rw [if_neg (by decide), if_neg (by decide), if_neg (by decide), if_pos (by decide)]
    · simp only [hop]
      rw [if_neg (by decide), if_neg (by decide), if_neg (by decide), if_pos (by decide)]
  refine ⟨.regex pattern.toList flags.toList
    ⟨'/' :: (pattern.toList ++ '/' :: flags.toList) ++ rest, rest⟩, ?_, rfl,
    ⟨?_, rfl, fun vs hvs => (by cases hvs), by rw [Expr.isPlain]⟩⟩
  · change expressionRule (reader depth) false cs = _
    refine expressionRule_of_operandRule (mayBeAsynchronous_of_mark (by rwa [hskip])) ?_ hrest
    rw [hoperand]
    exact counted_of_suffixed (suffixed_of_primaryRule hprimary hrest) hrest
  · rw [Expr.value, String.ofList_toList, String.ofList_toList, ofPattern_eq h]

/-! ### Paths -/

/-- There are no escapes in an identifier that is written. -/
theorem notMem_isIdentifierChars {w : Chars} (hw : Text.isIdentifierChars w = true) : '\\' ∉ w :=
  fun hmem => absurd (Text.isWordPart_of_isIdentifierChars hw '\\' hmem) (by decide)

/-- A path that is not called stands for itself. -/
theorem Expr.stands_path {kind : Kind} {path : String} (hpath : Text.isIdentifierPath path = true)
    (hkind : kind = .member ∨
      Text.isIdentifier path = true ∧ (kind = .identifier ∨ kind = .undefined)) (rest : Chars) :
    (Expr.leaf kind ⟨path.toList ++ rest, rest⟩).Stands (.identifier path) := by
  have htext : (⟨path.toList ++ rest, rest⟩ : Fragment).text = path := by
    rw [Fragment.text, Fragment.chars, upTo_append, String.ofList_toList]
  rcases hkind with rfl | ⟨hname, hkind⟩
  · refine stands_leaf ?_ rfl (by simp)
    rw [leafValue, htext, squeeze_path hpath, if_pos hpath]
  · have hplain : unitsFrom 0 (⟨path.toList ++ rest, rest⟩ : Fragment).chars =
        some (units (⟨path.toList ++ rest, rest⟩ : Fragment).chars) := by
      rw [Fragment.chars, upTo_append]
      exact unitsFrom_of_notMem (notMem_isIdentifierChars hname)
    rcases hkind with rfl | rfl
    · exact stands_leaf (congrArg _ (congrArg _ htext)) (beq_iff_eq.2 hplain) (by simp)
    · exact stands_leaf (congrArg _ (congrArg _ htext)) (beq_iff_eq.2 hplain) (by simp)

theorem Begins.length_pos {text : Chars} (h : Begins text) : 0 < text.length := by
  obtain ⟨c, cs, rfl, -⟩ := h.head
  exact Nat.succ_pos _

/-- **A reference is read back** if it can be read. -/
theorem ReadsAs.identifier {path : String} (hpath : Text.isIdentifierPath path = true)
    (hreadable : isReadable false path = true) : ReadsAs (.identifier path) path.toList := by
  have hbegins : Begins path.toList := by simpa using begins_path hpath []
  refine ⟨hbegins, ?_⟩
  intro depth cs rest hdepth hrest hskip
  obtain ⟨depth, rfl⟩ := Nat.exists_eq_add_one.2 (Nat.lt_of_lt_of_le hbegins.length_pos hdepth)
  obtain ⟨hasync, hoperand, kind, fuel, -, hsuffixed, hkind⟩ :=
    suffixed_path (r := reader depth) hpath hreadable hskip (.ends hrest)
  refine ⟨.leaf kind ⟨path.toList ++ rest, rest⟩, ?_, rfl, Expr.stands_path hpath (hkind rfl) rest⟩
  change expressionRule (reader depth) false cs = _
  refine expressionRule_of_operandRule hasync ?_ hrest
  rw [hoperand]
  refine counted_of_suffixed ?_ hrest
  rw [hsuffixed, extendFrom_eq_self (hrest.suffixStep_eq_none _ _ _)]

/-! ### Lists of values -/

theorem EndsIn.commas_le_one {closing : Char} {rest : Chars} (h : EndsIn closing rest)
    (hcomma : closing ≠ ',') : commas rest ≤ 1 := by
  cases h with
  | comma hskip hsingle => exact Source.commas_le_one (mark_of_skip "," rfl hskip) hsingle
  | closing hskip =>
    rw [commas_eq_zero (mark_eq_none "," rfl hskip hcomma.symm)]
    exact Nat.zero_le 1

/-- What an item of a list stands for. -/
structure Expr.IsItem (v : Value) (e : Expr) : Prop where
  /-- It stands for a value. -/
  stands : e.Stands v
  /-- At most one comma is behind it. -/
  commas : commas e.fragment.stop ≤ 1

/-- A text that is read as a value is an item of a list. -/
theorem ReadsAs.item {v : Value} {text : Chars} {depth : ℕ} {closing : Char} (h : ReadsAs v text)
    (hdepth : text.length ≤ depth) (hclosing : closing ∈ enders) (hcomma : closing ≠ ',') :
    ItemReads (Source.item (reader depth)) closing Expr.IsItem text v := by
  refine ⟨h.begins, fun {cs rest} hrest hskip => ?_⟩
  obtain ⟨e, he, hstop, hv⟩ := h.reads hdepth (hrest.ends hclosing) hskip
  refine ⟨e, ?_, hv, by rw [hstop]; exact hrest.commas_le_one hcomma⟩
  -- an item that does not begin with dots is an expression
  rw [Source.item, h.begins.mark_eq_none hskip "..." rfl (by decide)]
  exact he

theorem forall₂_item {vs : List Value} {texts : List Chars} (depth : ℕ) {closing : Char}
    (h : List.Forall₂ ReadsAs vs texts) (hdepth : ∀ text ∈ texts, text.length ≤ depth)
    (hclosing : closing ∈ enders) (hcomma : closing ≠ ',') :
    List.Forall₂ (ItemReads (Source.item (reader depth)) closing Expr.IsItem) texts vs :=
  ((List.forall₂_and_left _ _).2 ⟨hdepth, h.flip⟩).imp fun _ _ ht => ht.2.item ht.1 hclosing hcomma

theorem values_of_items {vs : List Value} {es : List Expr} (h : List.Forall₂ Expr.IsItem vs es) :
    Expr.values es = .ok vs ∧ Expr.anyDamaged es = false := by
  induction h with
  | nil => exact ⟨rfl, rfl⟩
  | cons hv _ ih =>
    refine ⟨?_, ?_⟩
    · rw [Expr.values, hv.stands.value, ih.1]
    · rw [Expr.anyDamaged, hv.stands.sound, ih.2]
      rfl

theorem plain_of_items {vs : List Value} {es : List Expr} (h : List.Forall₂ Expr.IsItem vs es) :
    Expr.arePlain es = true ∧ Expr.arePlainItems es = true := by
  induction h with
  | nil => exact ⟨rfl, rfl⟩
  | cons hv _ ih =>
    refine ⟨?_, ?_⟩
    · rw [Expr.arePlain, hv.stands.plain, ih.1]
      rfl
    · rw [Expr.arePlainItems, hv.stands.plain, ih.2, decide_eq_true hv.commas]
      rfl

/-- The text behind an opening bracket, up to and with the closing one. -/
def IsBody (closing : Char) (texts : List Chars) (body : Chars) : Prop :=
  ∀ rest, Listed closing texts (body ++ rest) rest

theorem IsBody.length_lt {closing : Char} {texts : List Chars} {body : Chars}
    (h : IsBody closing texts body) : ∀ text ∈ texts, text.length < body.length := by
  intro text ht
  have := (h []).length_lt.2 text ht
  simpa using this

theorem isMark_bracket : IsMark '[' :=
  ⟨by decide, by decide, by decide, fun _ =>
    wordHere_eq_none (stopsWord_cons (by decide) (by decide))⟩

/-- The rule for arrays gives the items of the array one after the other. -/
theorem primaryRule_array {β : Type} {mean : β → Expr → Prop} {bs : List β} {texts : List Chars}
    {body rest : Chars} {depth : ℕ}
    (h : List.Forall₂ (ItemReads (Source.item (reader depth)) ']' mean) texts bs)
    (hlisted : Listed ']' texts (body ++ rest) rest) :
    ∃ es, List.Forall₂ mean bs es ∧ primaryRule (reader depth) ('[' :: body ++ rest) =
      some (.array es ⟨'[' :: body ++ rest, rest⟩, rest) := by
  have hcloser : "]".toList = [']'] := rfl
  obtain ⟨es, hlist, hes⟩ := list_of_listed hcloser (by decide) (by decide) hlisted h
  refine ⟨es, hes, ?_⟩
  rw [primaryRule, List.cons_append, isMark_bracket.kept]
  simp only
  rw [if_neg (by decide), if_pos trivial, hlist]
  rfl

/-- **An array is read back from the texts of its items.** -/
theorem ReadsAs.array {vs : List Value} {texts : List Chars} {body : Chars}
    (h : List.Forall₂ ReadsAs vs texts) (hbody : IsBody ']' texts body) :
    ReadsAs (.array vs) ('[' :: body) := by
  refine .of_mark isMark_bracket fun {depth rest} hdepth hrest => ?_
  have hitems := forall₂_item depth h (fun text ht => by
    have := hbody.length_lt text ht
    omega) (show ']' ∈ enders by decide) (by decide)
  obtain ⟨es, hes, hprimary⟩ := primaryRule_array hitems (hbody rest)
  obtain ⟨hvalues, hsound⟩ := values_of_items hes
  have hholes : commas (body ++ rest) = 0 :=
    commas_eq_zero ((hbody rest).mark_comma_eq_none (by decide) (begins_of_itemReads hitems))
  refine ⟨_, hprimary, rfl, ?_, hsound, fun _ _ => ⟨es, _, rfl⟩, ?_⟩
  · rw [Expr.value, hvalues]
  · rw [Expr.isPlain, List.cons_append, List.drop_one, List.tail_cons, hholes,
      (plain_of_items hes).2]
    rfl

/-- The arguments of a call are read from their texts. -/
theorem arguments_of_readsAs {vs : List Value} {texts : List Chars} {body : Chars} {depth : ℕ}
    (h : List.Forall₂ ReadsAs vs texts) (hbody : IsBody ')' texts body)
    (hdepth : body.length ≤ depth) (rest : Chars) :
    ∃ es, arguments (reader depth) (body ++ rest) = some (es, rest) ∧
      List.Forall₂ Expr.IsItem vs es := by
  have hcloser : ")".toList = [')'] := rfl
  refine list_of_listed hcloser (by decide) (by decide) (hbody rest)
    (forall₂_item depth h (fun text ht => ?_) (by decide) (by decide))
  have := hbody.length_lt text ht
  omega

/-- A call whose callee can be read is an expression, if its arguments are read and nothing behind
it continues it. -/
theorem expression_call {callee : String} {lineEnds : Bool} {depth : ℕ} {cs inner rest : Chars}
    {args : List Expr} (hpath : Text.isIdentifierPath callee = true)
    (hreadable : isReadable true callee = true)
    (hargs : arguments (reader depth) inner = some (args, rest))
    (hrest : Halts (reader depth) lineEnds rest) (hskip : skip cs = callee.toList ++ '(' :: inner) :
    ∃ kind, (reader (depth + 1)).expression lineEnds cs = some (.call kind
      ⟨callee.toList ++ '(' :: inner, '(' :: inner⟩ false args ⟨callee.toList ++ '(' :: inner, rest⟩,
        rest) := by
  obtain ⟨hasync, hoperand, kind, fuel, hfuel, hsuffixed, -⟩ :=
    @suffixed_path (reader depth) lineEnds _ _ _ _ hpath hreadable hskip (.call _)
  refine ⟨kind, ?_⟩
  change expressionRule (reader depth) lineEnds cs = _
  refine expressionRule_of_operator hasync ?_ hrest.operator_eq_none hrest.word_eq_none
  rw [hoperand]
  refine counted_of_operator ?_ hrest.operator_eq_none
  rw [hsuffixed, extendFrom_call hargs hrest hfuel]
  rfl

/-- **A call is read back from the texts of its arguments** if its callee can be read. -/
theorem ReadsAs.call {callee : String} {vs : List Value} {texts : List Chars} {body : Chars}
    (hpath : Text.isIdentifierPath callee = true) (hreadable : isReadable true callee = true)
    (h : List.Forall₂ ReadsAs vs texts) (hbody : IsBody ')' texts body) :
    ReadsAs (.call callee vs) (callee.toList ++ '(' :: body) := by
  have hbegins := begins_path hpath ('(' :: body)
  refine ⟨hbegins, ?_⟩
  intro depth cs rest hdepth hrest hskip
  obtain ⟨depth, rfl⟩ := Nat.exists_eq_add_one.2 (Nat.lt_of_lt_of_le hbegins.length_pos hdepth)
  rw [List.append_assoc, List.cons_append] at hskip
  rw [List.length_append, List.length_cons] at hdepth
  obtain ⟨es, hlist, hes⟩ := arguments_of_readsAs h hbody (show body.length ≤ depth by omega) rest
  obtain ⟨kind, hcall⟩ :=
    expression_call hpath hreadable hlist (hrest.halts (reader depth) false) hskip
  obtain ⟨hvalues, hsound⟩ := values_of_items hes
  refine ⟨_, hcall, rfl, ?_, hsound, fun vs hvs => (by cases hvs), ?_⟩
  · -- the callee is taken from its text, without the blanks in it
    rw [Expr.value, Fragment.text, Fragment.chars, upTo_append, String.ofList_toList,
      squeeze_path hpath]
    simp [hpath, hvalues]
  · have hoptional : mark "?." ('(' :: (body ++ rest)) = none :=
      mark_eq_none "?." rfl (skip_cons (by decide) (by decide)) (by decide)
    rw [Expr.isPlain, hoptional, (plain_of_items hes).1]
    rfl

/-! ### Members of objects -/

/-- What a member of an object stands for. -/
inductive Member.Stands : String × Value → Member → Prop
  /-- A name that is both key and value. -/
  | shorthand {k : String} {v : Value} {f : Fragment} : Value.isShorthand k v = true →
      f.text = k → Stands (k, v) (.shorthand f)
  /-- A key and a value. -/
  | pair {k : String} {v : Value} {key : Key} {e : Expr} {f : Fragment} :
      Value.isShorthand k v = false → key.kind ≠ .computedKey → key.text = k → e.Stands v →
      key.property = some (.ofName (units k.toList)) → Stands (k, v) (.pair key e f)

theorem isShorthand_iff {k : String} {v : Value} :
    Value.isShorthand k v = true ↔ v = .identifier k ∧ Text.isIdentifier k = true := by
  cases v <;> simp [Value.isShorthand]

theorem Member.Stands.entry {m : String × Value} {member : Member} (h : member.Stands m) :
    member.entry = .ok m := by
  cases h with
  | shorthand hk ht =>
    obtain ⟨rfl, -⟩ := isShorthand_iff.1 hk
    rw [Member.entry, ht]
  | pair hk hkind ht hv _ => rw [Member.entry, if_neg hkind, hv.value, ht]

theorem Member.Stands.sound {m : String × Value} {member : Member} (h : member.Stands m) :
    member.isDamaged = false := by
  cases h with
  | shorthand hk ht => rfl
  | pair hk hkind ht hv _ => exact hv.sound

theorem Member.Stands.plain {m : String × Value} {member : Member} (h : member.Stands m) :
    member.isPlain = true := by
  cases h with
  | @shorthand k v f hk ht =>
    have hname : Text.isIdentifier f.text = true := by
      rw [ht]
      exact (isShorthand_iff.1 hk).2
    have htext : f.text.toList = f.chars := String.toList_ofList
    have hshort : Value.isShorthand f.text (.identifier f.text) = true :=
      isShorthand_iff.2 ⟨rfl, hname⟩
    have hchars : Text.isIdentifierChars f.chars = true := by
      rw [← htext]
      exact hname
    rw [Member.isPlain, isPlainName, unitsFrom_of_notMem (notMem_isIdentifierChars hchars),
      Value.property, if_pos hshort, htext]
    simp
  | @pair k v key e f hk hkind ht hv hproperty =>
    rw [Member.isPlain, hv.value, hv.plain]
    simp only [Bool.and_true]
    rw [Key.isPlain, beq_iff_eq, hproperty, ht, Value.property, hk, if_neg Bool.false_ne_true]

theorem entries_of_stands {ms : List (String × Value)} {members : List Member}
    (h : List.Forall₂ Member.Stands ms members) :
    Member.values members = .ok ms ∧ Member.anyDamaged members = false := by
  induction h with
  | nil => exact ⟨rfl, rfl⟩
  | cons hm _ ih =>
    refine ⟨?_, ?_⟩
    · rw [Member.values, hm.entry, ih.1]
    · rw [Member.anyDamaged, hm.sound, ih.2]
      rfl

theorem arePlain_of_stands {ms : List (String × Value)} {members : List Member}
    (h : List.Forall₂ Member.Stands ms members) : Member.arePlain members = true := by
  induction h with
  | nil => rfl
  | cons hm _ ih =>
    rw [Member.arePlain, hm.plain, ih]
    rfl

/-- A text is read as a member of an object. -/
structure MemberReadsAs (m : String × Value) (text : Chars) : Prop where
  /-- The text can be told from the marks of a list. -/
  begins : Begins text
  /-- It is read, wherever the end of a member follows. -/
  reads : ∀ {depth : ℕ} {cs rest : Chars}, text.length ≤ depth → EndsIn '\x7d' rest →
    skip cs = text ++ rest →
      ∃ member, objectMember (reader depth) cs = some (member, rest) ∧ member.Stands m

theorem endsMember_of_endsIn {rest : Chars} (h : EndsIn '\x7d' rest) : endsMember rest = true := by
  rw [endsMember]
  cases h with
  | comma hskip _ =>
    rw [mark_of_skip "," rfl hskip]
    rfl
  | closing hskip => rw [mark_of_skip "\x7d" rfl hskip, Option.isSome_some, Bool.or_true]

/-- A name that is key and value at once. -/
theorem MemberReadsAs.shorthand {k : String} {v : Value} (h : Value.isShorthand k v = true) :
    MemberReadsAs (k, v) k.toList := by
  have hk : Text.isIdentifierChars k.toList = true := (isShorthand_iff.1 h).2
  have hbegins : Begins k.toList := by simpa using begins_identifier hk []
  refine ⟨hbegins, fun {depth cs rest} _ hrest hskip => ?_⟩
  refine ⟨.shorthand ⟨k.toList ++ rest, rest⟩, ?_, .shorthand h ?_⟩
  · rw [objectMember, hbegins.mark_eq_none hskip "..." rfl (by decide), hskip]
    simp only [wordHere_append hk (hrest.ends (by decide)).stopsWord, endsMember_of_endsIn hrest,
      if_true]
  · rw [Fragment.text, Fragment.chars, upTo_append, String.ofList_toList]

/-- What the rule for members sees of a key: its end, and what it says. -/
structure KeyReads (r : Reader) (k : String) (tail : Chars) : Prop where
  /-- Nothing else starts like the key. -/
  begins : Begins (Value.renderKey k)
  /-- The key is taken as the name of a property. -/
  nameEnd : propertyNameEnd r (Value.renderKey k ++ tail) = some tail
  /-- It is not computed. -/
  kind : keyKind (Value.renderKey k ++ tail) ≠ .computedKey
  /-- It says what was written. -/
  text : Key.text ⟨keyKind (Value.renderKey k ++ tail), ⟨Value.renderKey k ++ tail, tail⟩⟩ = k
  /-- It names what was written. -/
  property : Key.property
    ⟨keyKind (Value.renderKey k ++ tail), ⟨Value.renderKey k ++ tail, tail⟩⟩ =
      some (.ofName (units k.toList))
  /-- If it is a word, it is followed by what follows the key. -/
  word : ∀ w rest, wordHere (Value.renderKey k ++ tail) = some (w, rest) → rest = tail

/-- A key that is neither computed nor private is a word, a quoted text or a number. -/
theorem propertyNameEnd_eq {r : Reader} {c : Char} {cs tail : Chars} (hskip : skip cs = c :: tail)
    (hbracket : c ≠ '[') (hhash : c ≠ '#') : propertyNameEnd r cs =
      match wordHere (c :: tail) with
      | some (_, rest) => some rest
      | none => (stringHere (c :: tail)).or (numberHere (c :: tail)) := by
  rw [propertyNameEnd, hskip]
  split
  · next h => exact absurd (List.cons.inj h).1 hbracket
  · next h => exact absurd (List.cons.inj h).1 hhash
  · rfl

theorem keyKind_identifier {w tail : Chars} (hw : Text.isIdentifierChars w = true) :
    keyKind (w ++ tail) = .identifier := by
  obtain ⟨c, w, rfl, hc, hdigit⟩ := exists_cons_of_isIdentifierChars hw
  have hne : ∀ d, inWord d = false → c ≠ d := fun _ hd => ne_of_inWord hc hd
  rw [List.cons_append, keyKind]
  · rw [if_neg (by simp [hne '"' (by decide), hne '\'' (by decide)]),
      if_neg (by simp [hdigit, hne '.' (by decide)])]
  · exact fun h => absurd h (hne _ (by decide))
  · exact fun h => absurd h (hne _ (by decide))

/-- A key that is an identifier is written as it is. -/
theorem keyReads_identifier (r : Reader) {k : String} (hk : Text.isIdentifier k = true)
    {tail : Chars} (htail : StopsWord tail) : KeyReads r k tail := by
  have hkey : Value.renderKey k = k.toList := by rw [Value.renderKey, if_pos hk]
  have hword := wordHere_append hk htail
  have hkind : keyKind (k.toList ++ tail) = .identifier := keyKind_identifier hk
  refine ⟨?_, ?_, ?_, ?_, ?_, ?_⟩
  · rw [hkey]
    simpa using begins_identifier hk []
  · have hself : skip (k.toList ++ tail) = k.toList ++ tail := skip_identifier hk
    obtain ⟨c, cs, hcs, hc, -⟩ := exists_cons_of_isIdentifierChars hk
    rw [hcs, List.cons_append] at hself hword
    rw [hkey, hcs, List.cons_append,
      propertyNameEnd_eq hself (ne_of_inWord hc (by decide)) (ne_of_inWord hc (by decide)), hword]
  · rw [hkey, hkind]
    exact fun h => by cases h
  · rw [hkey, hkind, Key.text, if_neg (fun h => by cases h), Fragment.text, Fragment.chars,
      upTo_append, String.ofList_toList]
  · rw [hkey, hkind, Key.property, Fragment.chars, upTo_append,
      unitsFrom_of_notMem (notMem_isIdentifierChars hk)]
    rfl
  · intro w rest h
    rw [hkey, hword] at h
    cases h
    rfl

/-- Any other key is written as a quoted text. -/
theorem keyReads_quoted (r : Reader) {k : String} (hk : Text.isIdentifier k ≠ true)
    (tail : Chars) : KeyReads r k tail := by
  have hkey : Value.renderKey k = Text.quoteChars k.toList := by rw [Value.renderKey, if_neg hk]
  have hword : ∀ rest, wordHere ('"' :: rest) = none := fun rest =>
    wordHere_eq_none (stopsWord_cons (by decide) (by decide))
  refine ⟨?_, ?_, ?_, ?_, ?_, ?_⟩
  · rw [hkey]
    exact ⟨fun rest => skip_cons (by decide) (by decide), '"', _, rfl, by decide⟩
  · have hhere := stringHere_quoteChars k.toList tail
    rw [hkey]
    rw [Text.quoteChars, List.cons_append] at hhere ⊢
    rw [propertyNameEnd_eq (skip_cons (by decide) (by decide)) (by decide) (by decide), hword]
    simp only [hhere, Option.some_or]
  · rw [hkey]
    exact fun h => by cases h
  · rw [hkey]
    change quotedText ⟨Text.quoteChars k.toList ++ tail, tail⟩ = k
    rw [quotedText, Fragment.chars, upTo_append, Text.unescape_quoteChars, String.ofList_toList]
  · rw [hkey]
    change (stringUnits (⟨Text.quoteChars k.toList ++ tail, tail⟩ : Fragment).chars).map _ = _
    rw [Fragment.chars, upTo_append, stringUnits_quoteChars]
    rfl
  · intro w rest h
    rw [hkey, Text.quoteChars, List.cons_append, hword] at h
    cases h

/-- **A key is read back**, whether it is quoted or not. -/
theorem keyReads (r : Reader) (k : String) {tail : Chars} (htail : StopsWord tail) :
    KeyReads r k tail := by
  by_cases hk : Text.isIdentifier k = true
  · exact keyReads_identifier r hk htail
  · exact keyReads_quoted r hk tail

theorem begins_renderKey (k : String) (more : Chars) : Begins (Value.renderKey k ++ more) := by
  have hkey : KeyReads .none k [':'] := keyReads .none k (stopsWord_cons (by decide) (by decide))
  obtain ⟨hkept, c, cs, hcons, hc⟩ := hkey.begins
  refine ⟨fun rest => ?_, c, cs ++ more, by rw [hcons]; rfl, hc⟩
  rw [List.append_assoc]
  exact hkept _

/-- A key and an expression are a member with that key. -/
theorem objectMember_pair {k : String} {r : Reader} {cs behind rest : Chars} {e : Expr}
    (hvalue : r.expression false (' ' :: behind) = some (e, rest))
    (hskip : skip cs = Value.renderKey k ++ ':' :: ' ' :: behind) :
    ∃ key f, objectMember r cs = some (.pair key e f, rest) ∧ key.kind ≠ .computedKey ∧
      key.text = k ∧ key.property = some (.ofName (units k.toList)) := by
  have htail : StopsWord (':' :: ' ' :: behind) := stopsWord_cons (by decide) (by decide)
  obtain ⟨hbegins, hname, hkind, htext, hproperty, hword⟩ := keyReads r k htail
  have hcolon : skip (':' :: ' ' :: behind) = ':' :: ' ' :: behind :=
    skip_cons (by decide) (by decide)
  have hpair : objectPair r (Value.renderKey k ++ ':' :: ' ' :: behind) =
      some (.pair ⟨keyKind (Value.renderKey k ++ ':' :: ' ' :: behind),
        ⟨Value.renderKey k ++ ':' :: ' ' :: behind, ':' :: ' ' :: behind⟩⟩ e
        ⟨Value.renderKey k ++ ':' :: ' ' :: behind, rest⟩, rest) := by
    rw [objectPair, hname]
    simp [mark_of_skip ":" rfl hcolon, hvalue]
  refine ⟨_, ⟨Value.renderKey k ++ ':' :: ' ' :: behind, rest⟩, ?_, hkind, htext, hproperty⟩
  have hspread : mark "..." cs = none := hbegins.mark_eq_none hskip "..." rfl (by decide)
  rw [objectMember, hspread, hskip]
  simp only
  -- a key that is a word could be a shorthand, but a colon follows
  split
  · next w tail hw =>
    rw [hword w tail hw, if_neg, hpair, Option.some_or]
    rw [endsMember, mark_eq_none "," rfl hcolon (by decide),
      mark_eq_none "\x7d" rfl hcolon (by decide)]
    decide
  · rw [hpair, Option.some_or]

/-- A key and a value. -/
theorem MemberReadsAs.pair {k : String} {v : Value} {text : Chars}
    (hk : Value.isShorthand k v = false) (h : ReadsAs v text) :
    MemberReadsAs (k, v) (Value.renderKey k ++ ':' :: ' ' :: text) := by
  refine ⟨begins_renderKey k _, fun {depth cs rest} hdepth hrest hskip => ?_⟩
  rw [List.append_assoc, List.cons_append, List.cons_append] at hskip
  have hvalue : skip (' ' :: (text ++ rest)) = text ++ rest := by
    rw [skip_cons_of_isSpace (by decide), h.begins.kept]
  have hlength : text.length ≤ depth := by
    rw [List.length_append, List.length_cons, List.length_cons] at hdepth
    omega
  obtain ⟨e, he, -, hv⟩ := h.reads hlength (hrest.ends (by decide)) hvalue
  obtain ⟨key, f, hmember, hkind, htext, hproperty⟩ := objectMember_pair he hskip
  exact ⟨_, hmember, .pair hk hkind htext hv hproperty⟩

theorem MemberReadsAs.item {m : String × Value} {text : Chars} {depth : ℕ}
    (h : MemberReadsAs m text) (hdepth : text.length ≤ depth) :
    ItemReads (objectMember (reader depth)) '\x7d' Member.Stands text m :=
  ⟨h.begins, fun hrest hskip => h.reads hdepth hrest hskip⟩

theorem isMark_brace : IsMark '\x7b' :=
  ⟨by decide, by decide, by decide, fun _ =>
    wordHere_eq_none (stopsWord_cons (by decide) (by decide))⟩

/-- The rule for objects gives the members of the object one after the other. -/
theorem primaryRule_object {β : Type} {mean : β → Member → Prop} {bs : List β} {texts : List Chars}
    {body rest : Chars} {depth : ℕ}
    (h : List.Forall₂ (ItemReads (objectMember (reader depth)) '\x7d' mean) texts bs)
    (hlisted : Listed '\x7d' texts (body ++ rest) rest) :
    ∃ members, List.Forall₂ mean bs members ∧ primaryRule (reader depth) ('\x7b' :: body ++ rest) =
      some (.object members ⟨'\x7b' :: body ++ rest, rest⟩, rest) := by
  have hcloser : "\x7d".toList = ['\x7d'] := rfl
  obtain ⟨members, hlist, hmembers⟩ := list_of_listed hcloser (by decide) (by decide) hlisted h
  refine ⟨members, hmembers, ?_⟩
  rw [primaryRule, List.cons_append, skip_cons (by decide) (by decide)]
  simp only
  rw [if_neg (by decide), if_neg (by decide), if_pos trivial, hlist]
  rfl

/-- An object is an item of a list. -/
theorem item_object {β : Type} {mean : β → Member → Prop} {bs : List β} {texts : List Chars}
    {body cs rest : Chars} {depth : ℕ}
    (h : List.Forall₂ (ItemReads (objectMember (reader depth)) '\x7d' mean) texts bs)
    (hlisted : Listed '\x7d' texts (body ++ rest) rest) (hrest : Ends rest)
    (hskip : skip cs = '\x7b' :: body ++ rest) :
    ∃ members f, Source.item (reader (depth + 1)) cs = some (.object members f, rest) ∧
      List.Forall₂ mean bs members := by
  obtain ⟨members, hmembers, hprimary⟩ := primaryRule_object h hlisted
  have hspread : mark "..." cs = none := mark_eq_none "..." rfl hskip (by decide)
  have hitem := expression_of_mark isMark_brace hprimary hrest hskip
  refine ⟨members, _, Eq.trans ?_ hitem, hmembers⟩
  rw [Source.item, hspread]

theorem IsBody.item_members {ms : List (String × Value)} {texts : List Chars} {body : Chars}
    {depth : ℕ} (hbody : IsBody '\x7d' texts body) (h : List.Forall₂ MemberReadsAs ms texts)
    (hdepth : body.length ≤ depth) :
    List.Forall₂ (ItemReads (objectMember (reader depth)) '\x7d' Member.Stands) texts ms := by
  have hlength : ∀ text ∈ texts, text.length ≤ depth := fun text ht => by
    have := hbody.length_lt text ht
    omega
  exact ((List.forall₂_and_left _ _).2 ⟨hlength, h.flip⟩).imp fun _ _ ht => ht.2.item ht.1

/-- **An object is read back from the texts of its members.** -/
theorem ReadsAs.object {ms : List (String × Value)} {texts : List Chars} {body : Chars}
    (h : List.Forall₂ MemberReadsAs ms texts) (hbody : IsBody '\x7d' texts body) :
    ReadsAs (.object ms) ('\x7b' :: body) := by
  refine .of_mark isMark_brace fun {depth rest} hdepth _ => ?_
  obtain ⟨members, hmembers, hprimary⟩ :=
    primaryRule_object (hbody.item_members h hdepth) (hbody rest)
  obtain ⟨hvalues, hsound⟩ := entries_of_stands hmembers
  refine ⟨_, hprimary, rfl, ?_, hsound, fun vs hvs => (by cases hvs), ?_⟩
  · rw [Expr.value, hvalues]
  · rw [Expr.isPlain, arePlain_of_stands hmembers]

end Source

end ModuleScaffold

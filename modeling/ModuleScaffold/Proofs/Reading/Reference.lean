import ModuleScaffold.Proofs.Reading.Expression
import ModuleScaffold.Proofs.Text.Spacing

/-!
# References that are read back

A reference is written as names with points between them. Most words may stand there, but some of
them begin an expression of another kind, and some stand for a value of their own if no name is
selected from them. So it depends on the first name, on what follows it and on whether the path is
called, if the path is read as it was written (`ModuleScaffold.Source.isReadable`): `this` is the
receiver, but `this.limit` and `this()` refer to something; `new` is a name unless it is called, and
otherwise only `new.target` may begin with it.

Main statements:

* `ModuleScaffold.Source.suffixed_path` – **a path that can be read is read as one expression**, up
  to what is called on it;
* `ModuleScaffold.Source.isReadable_of_root` – a path can be read if its first name is not reserved.
-/

namespace ModuleScaffold

namespace Source

/-! ### Paths -/

theorem length_le_memberNames (names : List Chars) : names.length ≤ (memberNames names).length :=
  Text.length_le_flatMap_cons '.' names

theorem takeWhile_path {w : Chars} {names : List Chars} (hw : Text.isIdentifierChars w = true) :
    (w ++ memberNames names).takeWhile (· != '.') = w := by
  have hpart := Text.isWordPart_of_isIdentifierChars hw
  have hstop : (memberNames names).takeWhile (· != '.') = [] := by
    cases names with
    | nil => rfl
    | cons v names => rfl
  rw [List.takeWhile_append_of_pos, hstop, List.append_nil]
  intro c hc
  rw [bne_iff_ne]
  rintro rfl
  exact absurd (hpart '.' hc) (by decide)

/-- The first name of a path, and the names behind it. -/
structure Names (path : String) (w : Chars) (names : List Chars) : Prop where
  /-- The path is cut at its points. -/
  fields : Text.fields (· == '.') path.toList = w :: names
  /-- The first name is an identifier. -/
  first : Text.isIdentifierChars w = true
  /-- The others are identifiers, too. -/
  others : ∀ v ∈ names, Text.isIdentifierChars v = true

theorem exists_names {path : String} (h : Text.isIdentifierPath path = true) :
    ∃ w names, Names path w names := by
  rw [Text.isIdentifierPath, List.all_eq_true] at h
  cases hf : Text.fields (· == '.') path.toList with
  | nil => exact absurd hf (Text.fields_ne_nil _ _)
  | cons w names =>
    rw [hf] at h
    exact ⟨w, names, hf, h w (by simp), fun v hv => h v (List.mem_cons_of_mem _ hv)⟩

namespace Names

variable {path : String} {w : Chars} {names : List Chars}

/-- A path is its names with points between them. -/
theorem toList_eq (h : Names path w names) : path.toList = w ++ memberNames names := by
  rw [memberNames, ← Text.joinWith_cons, ← h.fields, Text.joinWith_fieldsAt]

theorem pathRoot_eq (h : Names path w names) : Text.pathRoot path = String.ofList w := by
  rw [Text.pathRoot, h.toList_eq, takeWhile_path h.first]

end Names

/-- There are no blanks in a path. -/
theorem squeeze_path {path : String} (h : Text.isIdentifierPath path = true) :
    Text.squeeze path = path := by
  obtain ⟨w, names, hnames⟩ := exists_names h
  have hblank : ∀ v, Text.isIdentifierChars v = true → ∀ c ∈ v, Text.isBlank c = false :=
    fun v hv c hc => Text.isBlank_of_isWordPart (Text.isWordPart_of_isIdentifierChars hv c hc)
  have hall : ∀ c ∈ path.toList, (! Text.isBlank c) = true := by
    intro c hc
    rw [hnames.toList_eq] at hc
    rw [Bool.not_eq_true']
    rcases List.mem_append.1 hc with hc | hc
    · exact hblank w hnames.first c hc
    · obtain ⟨v, hv, hc⟩ := List.mem_flatMap.1 hc
      rcases List.mem_cons.1 hc with rfl | hc
      · decide
      · exact hblank v (hnames.others v hv) c hc
  rw [Text.squeeze, List.filter_eq_self.2 hall, String.ofList_toList]

theorem begins_path {path : String} (hpath : Text.isIdentifierPath path = true) (more : Chars) :
    Begins (path.toList ++ more) := by
  obtain ⟨w, names, hnames⟩ := exists_names hpath
  rw [hnames.toList_eq, List.append_assoc]
  exact begins_identifier hnames.first _

/-! ### Words of the language -/

/-- The words with which expressions of other kinds begin, whatever follows them. -/
def openingWords : List String :=
  ["await", "class", "delete", "function", "typeof", "void", "yield"]

/-- The words that stand for values of their own, or for the receiver. -/
def valueWords : List String :=
  ["false", "null", "super", "this", "true"]

/-- Whether a path is read as it is written, given its first name and the others: the names behind
`new` and `import` are those of the language, unless the word is alone. -/
def readableFrom (called : Bool) (first : String) (names : List Chars) : Bool :=
  if first = "new" then
    if names.isEmpty then ! called
    else names.head? == some "target".toList && (called || 1 < names.length)
  else if first = "import" then
    if names.isEmpty then called
    else names.head? == some "meta".toList && (called || 1 < names.length)
  else ! openingWords.contains first
    && (called || ! names.isEmpty || ! valueWords.contains first)

/-- Whether a path of names is read as it is written, where it is called or where it is not. -/
def isReadable (called : Bool) (path : String) : Bool :=
  match Text.fields (· == '.') path.toList with
  | [] => false
  | w :: names => readableFrom called (String.ofList w) names

theorem Names.isReadable_eq {path : String} {w : Chars} {names : List Chars}
    (h : Names path w names) (called : Bool) :
    isReadable called path = readableFrom called (String.ofList w) names := by
  rw [isReadable, h.fields]

/-- **A path can be read if its first name is not reserved**, wherever it stands. -/
theorem isReadable_of_root {path : String} (hpath : Text.isIdentifierPath path = true)
    (hroot : Text.pathRoot path ∉ reservedWords) (called : Bool) :
    isReadable called path = true := by
  obtain ⟨w, names, hnames⟩ := exists_names hpath
  rw [hnames.pathRoot_eq] at hroot
  have hne : ∀ text ∈ reservedWords, String.ofList w ≠ text := by
    rintro text htext rfl
    exact hroot htext
  have hopening : String.ofList w ∉ openingWords := fun h =>
    hroot ((by decide : ∀ t ∈ openingWords, t ∈ reservedWords) _ h)
  have hvalue : String.ofList w ∉ valueWords := fun h =>
    hroot ((by decide : ∀ t ∈ valueWords, t ∈ reservedWords) _ h)
  rw [hnames.isReadable_eq, readableFrom, if_neg (hne _ (by decide)), if_neg (hne _ (by decide))]
  simp [hopening, hvalue]

/-- Other words stand alone for themselves, or for what the language has under them. -/
theorem wordExpression_plain (r : Reader) (start : Chars) {tail : Chars} {text : String}
    (hopening : text ∉ openingWords) (hnew : text ≠ "new") (himport : text ≠ "import")
    (htail : FollowsName tail) :
    ∃ kind, wordExpression r start text tail = some (leafTo kind start tail) ∧
      (text ∉ valueWords → kind = .identifier ∨ kind = .undefined) := by
  have hfunction : keyword "function" tail = none := by rw [keyword, htail.word_eq_none]
  unfold wordExpression
  split
  case h_6 => exact ⟨.undefined, rfl, fun _ => .inr rfl⟩
  case h_10 =>
    refine ⟨.identifier, ?_, fun _ => .inl rfl⟩
    split
    · next h => simp [hfunction] at h
    · rfl
  case h_9 => exact absurd rfl hnew
  case h_11 => exact absurd rfl himport
  all_goals first
    | exact ⟨_, rfl, fun h => absurd (by decide) h⟩
    | exact absurd (by decide) hopening
    | exact ⟨.identifier, rfl, fun _ => .inl rfl⟩

/-! ### Reading -/

/-- What stands behind a path: the parenthesis of a call, or the end of the element. -/
inductive FollowsPath : Bool → Chars → Prop
  /-- The path is called. -/
  | call (rest : Chars) : FollowsPath true ('(' :: rest)
  /-- The path is not called. -/
  | ends {rest : Chars} : Ends rest → FollowsPath false rest

theorem FollowsPath.followsName {called : Bool} {tail : Chars} (h : FollowsPath called tail) :
    FollowsName tail := by
  cases h with
  | call rest => exact .call rest
  | ends hrest => exact .ends hrest

/-- A point and a name behind a word that goes on with it. -/
theorem mark_keyword {text : String} {names : List Chars} {tail : Chars}
    (htext : Text.isIdentifierChars text.toList = true) (hhead : names.head? = some text.toList)
    (htail : FollowsName tail) :
    (mark "." (memberNames names ++ tail)).bind (keyword text) =
      some (memberNames (names.drop 1) ++ tail) := by
  cases names with
  | nil => cases hhead
  | cons v names =>
    obtain rfl : v = text.toList := Option.some.inj hhead
    have hpoint : skip (memberNames (text.toList :: names) ++ tail) =
        '.' :: (text.toList ++ (memberNames names ++ tail)) := by
      rw [memberNames, List.flatMap_cons, List.cons_append, List.cons_append, List.append_assoc]
      exact skip_cons (by decide) (by decide)
    rw [mark_of_skip "." rfl hpoint, Option.bind_some, keyword, word, skip_identifier htext,
      wordHere_append htext (followsName_memberNames htail).stopsWord]
    simp

/-- What the rule for words makes of the first part of a path: the first name, or the first two if
they belong together. The rest of the path lies behind it, and if there is no rest and no call, then
the part is a name. -/
def ReadsRoot (r : Reader) (called : Bool) (start : Chars) (text : String) (names : List Chars)
    (tail : Chars) : Prop :=
  ∃ kind taken, taken ≤ names.length ∧
    wordExpression r start text (memberNames names ++ tail) =
      some (leafTo kind start (memberNames (names.drop taken) ++ tail)) ∧
    (called = false → names.drop taken = [] →
      names = [] ∧ (kind = .identifier ∨ kind = .undefined))

section Root

variable {r : Reader} {called : Bool} {start tail : Chars} {text : String} {names : List Chars}

/-- Two names that belong together, with a further name or a call behind them. -/
theorem readsRoot_pair (hhead : names.head?.isSome = true)
    (hlength : (called || decide (1 < names.length)) = true)
    (hword : wordExpression r start text (memberNames names ++ tail) =
      some (leafTo .metaProperty start (memberNames (names.drop 1) ++ tail))) :
    ReadsRoot r called start text names tail := by
  have hpos : 1 ≤ names.length := by
    cases names with
    | nil => cases hhead
    | cons v names => exact Nat.succ_pos _
  refine ⟨.metaProperty, 1, hpos, hword, fun hcalled hdrop => ?_⟩
  rw [hcalled, Bool.false_or, decide_eq_true_eq] at hlength
  rw [List.drop_eq_nil_iff] at hdrop
  omega

theorem readsRoot_new (hreadable : readableFrom called "new" names = true)
    (htail : FollowsPath called tail) : ReadsRoot r called start "new" names tail := by
  rw [readableFrom, if_pos rfl] at hreadable
  cases names with
  | nil =>
    -- a word that nothing follows creates nothing
    obtain rfl : called = false := by simpa using hreadable
    have hends : endsOperand tail = true := by
      cases htail with
      | ends hrest =>
        obtain ⟨c, hc, behind, hskip⟩ := hrest
        rw [endsOperand, hskip]
        exact Text.forall_mem_of_all
          (p := fun d => [')', ']', '\x7d', ',', ';', ':'].contains d = true) (by decide) c hc
    refine ⟨.identifier, 0, Nat.le_refl _, ?_, fun _ _ => ⟨rfl, .inl rfl⟩⟩
    rw [wordExpression]
    simp [memberNames, hends]
  | cons v names =>
    rw [List.isEmpty_cons, if_neg Bool.false_ne_true, Bool.and_eq_true, beq_iff_eq] at hreadable
    have hends : endsOperand (memberNames (v :: names) ++ tail) = false := by
      rw [memberNames, List.flatMap_cons, List.cons_append, List.cons_append, endsOperand,
        skip_cons (by decide) (by decide)]
      rfl
    refine readsRoot_pair rfl hreadable.2 ?_
    rw [wordExpression, if_neg (by simp [hends]), newExpression,
      mark_keyword (by decide) hreadable.1 htail.followsName]

theorem readsRoot_import (hreadable : readableFrom called "import" names = true)
    (htail : FollowsPath called tail) : ReadsRoot r called start "import" names tail := by
  rw [readableFrom, if_neg (by decide), if_pos rfl] at hreadable
  cases names with
  | nil =>
    obtain rfl : called = true := hreadable
    obtain ⟨rest, rfl⟩ : ∃ rest, tail = '(' :: rest := by
      cases htail with
      | call rest => exact ⟨rest, rfl⟩
    have hskip : skip ('(' :: rest) = '(' :: rest := skip_cons (by decide) (by decide)
    refine ⟨.importWord, 0, Nat.le_refl _, ?_, fun h => by cases h⟩
    rw [memberNames, List.flatMap_nil, List.nil_append, wordExpression,
      mark_eq_none "." rfl hskip (by decide), mark_of_skip "(" rfl hskip]
    rfl
  | cons v names =>
    rw [List.isEmpty_cons, if_neg Bool.false_ne_true, Bool.and_eq_true, beq_iff_eq] at hreadable
    refine readsRoot_pair rfl hreadable.2 ?_
    rw [wordExpression, mark_keyword (by decide) hreadable.1 htail.followsName]

/-- **The first part of a path that can be read is an expression.** -/
theorem readsRoot (hreadable : readableFrom called text names = true)
    (htail : FollowsPath called tail) : ReadsRoot r called start text names tail := by
  by_cases hnew : text = "new"
  · rw [hnew] at hreadable ⊢
    exact readsRoot_new hreadable htail
  by_cases himport : text = "import"
  · rw [himport] at hreadable ⊢
    exact readsRoot_import hreadable htail
  rw [readableFrom, if_neg hnew, if_neg himport, Bool.and_eq_true, Bool.not_eq_true',
    List.contains_eq_mem, decide_eq_false_iff_not] at hreadable
  obtain ⟨hopening, halone⟩ := hreadable
  have hfollows : FollowsName (memberNames names ++ tail) :=
    followsName_memberNames htail.followsName
  obtain ⟨kind, hword, hkind⟩ := wordExpression_plain r start hopening hnew himport hfollows
  refine ⟨kind, 0, Nat.zero_le _, hword, fun hcalled hdrop => ?_⟩
  obtain rfl : names = [] := hdrop
  refine ⟨rfl, hkind ?_⟩
  simpa [hcalled] using halone

end Root

/-- **A path that can be read is read as one expression**, up to what is called on it. -/
theorem suffixed_path {r : Reader} {lineEnds called : Bool} {path : String} {cs tail : Chars}
    (hpath : Text.isIdentifierPath path = true) (hreadable : isReadable called path = true)
    (hskip : skip cs = path.toList ++ tail) (htail : FollowsPath called tail) :
    mayBeAsynchronous cs = false ∧
      operandRule r lineEnds cs = counted r lineEnds (path.toList ++ tail) ∧
      ∃ kind fuel, 0 < fuel ∧
        suffixed r lineEnds (path.toList ++ tail) = some (extendFrom (suffixStep r lineEnds) fuel
          (.leaf kind ⟨path.toList ++ tail, tail⟩) tail) ∧
        (called = false → kind = .member ∨
          Text.isIdentifier path = true ∧ (kind = .identifier ∨ kind = .undefined)) := by
  obtain ⟨w, names, hnames⟩ := exists_names hpath
  have hw := hnames.first
  rw [hnames.isReadable_eq] at hreadable
  have hassoc : path.toList ++ tail = w ++ (memberNames names ++ tail) := by
    rw [hnames.toList_eq, List.append_assoc]
  have hfollows : FollowsName (memberNames names ++ tail) :=
    followsName_memberNames htail.followsName
  rw [hassoc] at hskip ⊢
  -- the words that are operators open an expression of another kind
  have hopening : String.ofList w ∉ openingWords := by
    intro hmem
    have hne : ∀ text ∈ openingWords, text ≠ "new" ∧ text ≠ "import" := by decide
    rw [readableFrom, if_neg (hne _ hmem).1, if_neg (hne _ hmem).2] at hreadable
    simp [hmem] at hreadable
  have hplain : String.ofList w ∉ prefixWords := fun hc =>
    hopening ((by decide : ∀ t ∈ prefixWords, t ∈ openingWords) _ hc)
  have hawait : w ≠ "await".toList := by
    rintro rfl
    exact hopening (by decide)
  refine ⟨hfollows.mayBeAsynchronous_eq_false hw hskip,
    operandRule_of_word hskip hw hfollows.stopsWord hplain hawait, ?_⟩
  have hroot : ReadsRoot r called (w ++ (memberNames names ++ tail)) (String.ofList w) names tail :=
    readsRoot hreadable htail
  obtain ⟨kind, taken, htaken, hword, hkind⟩ := hroot
  have hprimary := primaryRule_word (r := r) (skip_identifier hw) hw hfollows.stopsWord
  rw [hword] at hprimary
  have hothers : ∀ v ∈ names.drop taken, Text.isIdentifierChars v = true :=
    fun v hv => hnames.others v (List.mem_of_mem_drop hv)
  have hlen := length_le_memberNames (names.drop taken)
  have hfuel : (names.drop taken).length ≤ (memberNames (names.drop taken) ++ tail).length + 1 := by
    rw [List.length_append]
    omega
  have hsuffixed : suffixed r lineEnds (w ++ (memberNames names ++ tail)) =
      some (extendFrom (suffixStep r lineEnds)
        ((memberNames (names.drop taken) ++ tail).length + 1 - (names.drop taken).length)
        ((Expr.leaf kind ⟨w ++ (memberNames names ++ tail),
          memberNames (names.drop taken) ++ tail⟩).select (names.drop taken) tail) tail) := by
    rw [suffixed, hprimary]
    exact congrArg some (extendFrom_memberNames htail.followsName _ _ hothers hfuel)
  cases hdrop : names.drop taken with
  | nil =>
    rw [hdrop] at hsuffixed hlen
    refine ⟨kind, _, ?_, hsuffixed, fun hcalled => ?_⟩
    · simp
    · obtain ⟨hnil, hname⟩ := hkind hcalled hdrop
      refine .inr ⟨?_, hname⟩
      rw [Text.isIdentifier, hnames.toList_eq, hnil, memberNames, List.flatMap_nil, List.append_nil]
      exact hw
  | cons v more =>
    rw [hdrop] at hsuffixed hlen
    refine ⟨.member, _, ?_, hsuffixed, fun _ => .inl rfl⟩
    rw [List.length_append]
    omega

end Source

end ModuleScaffold

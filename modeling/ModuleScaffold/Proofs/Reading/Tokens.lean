import ModuleScaffold.Proofs.Depth.Alike
import ModuleScaffold.Proofs.Reading.Value

/-!
# The tokens of a text

A text is cut into tokens: words, numbers, quoted texts, regular expressions and marks, each of them
as long as it can be, with blanks and comments anywhere between them. What a slash begins depends on
the token in front of it: behind an operand it divides, and elsewhere it begins a regular
expression. In the texts of values, words are operands.

Where the tokens of a text are known, so are those of a text with one more token in front of it. A
token is known to end where nothing follows that it could take, too
(`ModuleScaffold.Source.EndsToken`).

Main statements:

* `ModuleScaffold.Source.length_tokenHere` – every token takes something of the text;
* `ModuleScaffold.Source.lexFrom_eq` – **a text is cut into its first token and those of the rest**;
* `ModuleScaffold.Source.lexFrom_word`, `ModuleScaffold.Source.lexFrom_string`,
  `ModuleScaffold.Source.lexFrom_number`, `ModuleScaffold.Source.lexFrom_regex`,
  `ModuleScaffold.Source.lexFrom_mark` – **the token that a text begins with**;
* `ModuleScaffold.Source.lexFrom_path` – a path has the tokens of its names.
-/

namespace ModuleScaffold

namespace Source

/-- A token of the language. -/
inductive Token
  /-- A word. -/
  | word (text : Chars)
  /-- A number, as it is written. -/
  | number (text : Chars)
  /-- A text with its quotes, as it is written. -/
  | string (text : Chars)
  /-- A regular expression. -/
  | regex (parts : RegexToken)
  /-- Punctuation. -/
  | mark (text : Chars)
  deriving DecidableEq, Repr

namespace Token

/-- Whether a token closes a bracket. -/
def isClosing : Token → Bool
  | mark text => [[')'], [']'], ['\x7d']].contains text
  | _ => false

/-- Whether an operand may end with a token. -/
def endsOperand : Token → Bool
  | mark text => (mark text).isClosing
  | _ => true

/-- Whether a token is a quoted text or a regular expression. -/
def isQuoted : Token → Bool
  | string _ | regex _ => true
  | _ => false

/-- A comma. -/
abbrev comma : Token := mark [',']

end Token

/-! ### The first token -/

/-- The punctuation of the language, the longer marks before their beginnings. -/
def punctuators : List String :=
  operatorMarks ++ ["(", ")", "[", "]", "\x7b", "\x7d", ",", ";", "."]

/-- The mark at the start of a text, and what remains behind it. -/
def punctuatorHere (cs : Chars) : Option (Token × Chars) :=
  punctuators.findSome? fun m => (exactly m.toList cs).map (.mark m.toList, ·)

/-- The token at the start of a text, and what remains behind it. A slash begins a regular
expression unless it stands behind an operand. -/
def tokenHere (operand : Bool) (cs : Chars) : Option (Token × Chars) :=
  if cs.head? = some '/' ∧ operand = false then (regexHere cs).map fun x => (.regex x.1, x.2)
  else
    ((stringHere cs).map fun rest => (.string (upTo cs rest), rest)).or <|
      ((numberHere cs).map fun rest => (.number (upTo cs rest), rest)).or <|
        ((wordHere cs).map fun x => (.word x.1, x.2)).or (punctuatorHere cs)

theorem alike_punctuatorHere (cs : Chars) :
    Alike (fun x => x.2.length < cs.length) (punctuatorHere cs) (punctuatorHere cs) := by
  refine .self fun x h => ?_
  obtain ⟨text, htext, h⟩ := List.exists_of_findSome?_eq_some h
  obtain ⟨rest, hrest, rfl⟩ := Option.map_eq_some_iff.1 h
  have hlength := length_exactly hrest
  have hpos : text.toList.length ≠ 0 := by
    have hmarks : ∀ m ∈ punctuators, m.toList.length ≠ 0 := by decide
    exact hmarks text htext
  dsimp only
  omega

/-- Every token takes something of the text. -/
theorem length_tokenHere {operand : Bool} {cs : Chars} {x : Token × Chars}
    (h : tokenHere operand cs = some x) : x.2.length < cs.length := by
  have halike : Alike (fun x => x.2.length < cs.length) (tokenHere operand cs)
      (tokenHere operand cs) :=
    .ite ((alike_regexHere cs).map fun _ h => ⟨rfl, h⟩) <|
      .or ((alike_stringHere cs).map fun _ h => ⟨rfl, h⟩) <|
        .or ((alike_numberHere cs).map fun _ h => ⟨rfl, h⟩) <|
          .or ((alike_wordHere cs).map fun _ h => ⟨rfl, h⟩) (alike_punctuatorHere cs)
  exact halike.gives x h

/-! ### All tokens -/

/-- The tokens of a text, which may follow an operand. Not every text has some. -/
def lexFrom (operand : Bool) (cs : Chars) : Option (List Token) :=
  if (skip cs).isEmpty then some []
  else match _h : tokenHere operand (skip cs) with
    | some x => (lexFrom x.1.endsOperand x.2).map (x.1 :: ·)
    | none => none
termination_by cs.length
decreasing_by exact (length_tokenHere _h).trans_le (length_skip_le cs)

/-- The tokens of a text. -/
def lex (cs : Chars) : Option (List Token) :=
  lexFrom false cs

/-- A slash behind a bracket begins a regular expression, and one behind a number divides. -/
example : lex "f(/a,/g, 4 / x)".toList = some [.word ['f'], .mark ['('],
    .regex ⟨['a', ','], ['g']⟩, .comma, .number ['4'], .mark ['/'], .word ['x'], .mark [')']] := by
  decide +kernel

variable {operand : Bool} {cs rest w : Chars} {t : Token} {ts : List Token} {c : Char}

theorem lexFrom_eq_bind : lexFrom operand cs = if (skip cs).isEmpty then some [] else
    (tokenHere operand (skip cs)).bind fun x => (lexFrom x.1.endsOperand x.2).map (x.1 :: ·) := by
  rw [lexFrom]
  refine if_congr Iff.rfl rfl ?_
  split
  · next x hx => rw [hx, Option.bind_some]
  · next hnone => rw [hnone, Option.bind_none]

theorem lexFrom_of_skip_eq_nil (h : skip cs = []) : lexFrom operand cs = some [] := by
  rw [lexFrom_eq_bind, h]
  rfl

/-- What is skipped makes no token. -/
theorem lexFrom_skip : lexFrom operand (skip cs) = lexFrom operand cs := by
  rw [lexFrom_eq_bind, skip_skip, ← lexFrom_eq_bind]

/-- **A text is cut into its first token and those of the rest.** -/
theorem lexFrom_eq (h : tokenHere operand (skip cs) = some (t, rest))
    (hrest : lexFrom t.endsOperand rest = some ts) : lexFrom operand cs = some (t :: ts) := by
  -- an empty text has no first token
  have hne : (skip cs).isEmpty = false := by
    refine Bool.eq_false_iff.2 fun hempty => ?_
    have hlt := length_tokenHere h
    rw [List.isEmpty_iff.1 hempty] at hlt
    exact Nat.not_lt_zero _ hlt
  rw [lexFrom_eq_bind, hne, if_neg Bool.false_ne_true, h, Option.bind_some, hrest]
  rfl

/-! ### What follows a token -/

/-- What a token cannot go on with follows: neither a word nor a point. -/
structure EndsToken (rest : Chars) : Prop where
  /-- No word goes on. -/
  stopsWord : StopsWord rest
  /-- No number goes on. -/
  head?_ne_point : rest.head? ≠ some '.'

theorem endsToken_nil : EndsToken [] :=
  ⟨fun _ hc => (nomatch hc), nofun⟩

theorem digits_eq_none (hdigit : c.isDigit = false) : digits 10 (c :: cs) = none := by
  rw [digits, isDigitOf_ten, hdigit, if_neg Bool.false_ne_true]

/-- A text that begins neither with a digit nor with a point is no number. -/
theorem numberHere_eq_none (hdigit : c.isDigit = false) (hc : c ≠ '.') :
    numberHere (c :: cs) = none := by
  have hzero : c ≠ '0' := by
    rintro rfl
    revert hdigit
    decide
  unfold numberHere
  simp only [List.cons.injEq, hzero, hc, false_and, digits_eq_none hdigit, Option.map_none,
    imp_self, implies_true]

theorem numberHere_point (hdigit : c.isDigit = false) : numberHere ('.' :: c :: cs) = none := by
  rw [numberHere]
  simp only [digits_eq_none hdigit, Option.map_none]

/-! ### Tokens one by one -/

/-- A text that begins neither with a slash nor with a quote begins with a number, a word or a
mark. -/
theorem tokenHere_cons (hslash : c ≠ '/') (hdouble : c ≠ '"') (hsingle : c ≠ '\'') :
    tokenHere operand (c :: cs) =
      ((numberHere (c :: cs)).map fun rest => (.number (upTo (c :: cs) rest), rest)).or
        (((wordHere (c :: cs)).map fun x => (.word x.1, x.2)).or (punctuatorHere (c :: cs))) := by
  have hregex : ¬((c :: cs).head? = some '/' ∧ operand = false) := fun h =>
    hslash (Option.some.inj h.1)
  have hquote : ¬(c = '"' || c = '\'') = true := by simp [hdouble, hsingle]
  rw [tokenHere, if_neg hregex, stringHere, if_neg hquote]
  rfl

theorem tokenHere_word (hw : Text.isIdentifierChars w = true) (hrest : StopsWord rest) :
    tokenHere operand (w ++ rest) = some (.word w, rest) := by
  obtain ⟨c, cs, hcons, hc, hdigit⟩ := exists_cons_of_isIdentifierChars hw
  have hne : ∀ d, inWord d = false → c ≠ d := fun _ hd => ne_of_inWord hc hd
  have hword := wordHere_append hw hrest
  rw [hcons, List.cons_append] at hword ⊢
  rw [tokenHere_cons (hne '/' (by decide)) (hne '"' (by decide)) (hne '\'' (by decide)),
    numberHere_eq_none hdigit (hne '.' (by decide)), hword]
  rfl

/-- An identifier is a token, whatever stands in front of it. -/
theorem lexFrom_word (hw : Text.isIdentifierChars w = true) (hrest : StopsWord rest)
    (h : lexFrom true rest = some ts) : lexFrom operand (w ++ rest) = some (.word w :: ts) := by
  refine lexFrom_eq ?_ h
  rw [skip_identifier hw]
  exact tokenHere_word hw hrest

theorem skip_quoteChars (cs rest : Chars) :
    skip (Text.quoteChars cs ++ rest) = Text.quoteChars cs ++ rest := by
  rw [Text.quoteChars, List.cons_append]
  exact skip_cons (by decide) (by decide)

/-- A quoted text is a token, whatever stands on either side. -/
theorem lexFrom_string (text : Chars) (h : lexFrom true rest = some ts) :
    lexFrom operand (Text.quoteChars text ++ rest) =
      some (.string (Text.quoteChars text) :: ts) := by
  refine lexFrom_eq ?_ h
  have hslash : ¬((Text.quoteChars text ++ rest).head? = some '/' ∧ operand = false) := fun h =>
    absurd h.1 (by simp [Text.quoteChars])
  rw [skip_quoteChars, tokenHere, if_neg hslash, stringHere_quoteChars, Option.map_some,
    upTo_append]
  rfl

/-- A decimal is a token. -/
theorem lexFrom_number (hw : IsDecimal w) (hrest : EndsToken rest)
    (h : lexFrom true rest = some ts) : lexFrom operand (w ++ rest) = some (.number w :: ts) := by
  have hnumber := numberHere_append hw hrest.stopsWord hrest.head?_ne_point
  have hupTo := upTo_append w rest
  obtain ⟨c, cs, hcons, hc⟩ := exists_cons_of_isDecimal hw
  have hne : ∀ d, d.isDigit = false → c ≠ d := fun _ hd => ne_of_isDigit hc hd
  refine lexFrom_eq ?_ h
  rw [hcons, List.cons_append] at hnumber hupTo ⊢
  rw [(isMark_digit hc).kept,
    tokenHere_cons (hne '/' (by decide)) (hne '"' (by decide)) (hne '\'' (by decide)), hnumber,
    Option.map_some, hupTo]
  rfl

/-- A regular expression is a token where an operand may begin. -/
theorem lexFrom_regex {pattern flags : String} (hp : Regex.problem? pattern flags = none)
    (hrest : StopsWord rest) (h : lexFrom true rest = some ts) :
    lexFrom false ('/' :: (pattern.toList ++ '/' :: flags.toList) ++ rest) =
      some (.regex ⟨pattern.toList, flags.toList⟩ :: ts) := by
  refine lexFrom_eq ?_ h
  rw [skip_regex hp, tokenHere, if_pos ⟨rfl, rfl⟩, regexHere_append hp hrest]
  rfl

/-! ### Marks -/

/-- The marks that are not the beginnings of others, nor of other tokens. -/
def plainMarks : List Char :=
  ['(', ')', '[', ']', '\x7b', '\x7d', ',', ':']

/-- A mark that is not the beginning of another token. -/
theorem lexFrom_mark_of {cs : Chars} (hspace : isSpace c = false) (hword : StopsWord (c :: cs))
    (hslash : c ≠ '/') (hdouble : c ≠ '"') (hsingle : c ≠ '\'')
    (hnumber : numberHere (c :: cs) = none)
    (hmark : punctuatorHere (c :: cs) = some (.mark [c], cs))
    (h : lexFrom (Token.mark [c]).endsOperand cs = some ts) :
    lexFrom operand (c :: cs) = some (.mark [c] :: ts) := by
  refine lexFrom_eq ?_ h
  rw [skip_cons hspace hslash, tokenHere_cons hslash hdouble hsingle, hnumber,
    wordHere_eq_none hword, hmark]
  rfl

/-- A bracket, a comma or a colon is a token, whatever stands on either side. -/
theorem lexFrom_mark {cs : Chars} (hc : c ∈ plainMarks)
    (h : lexFrom (Token.mark [c]).endsOperand cs = some ts) :
    lexFrom operand (c :: cs) = some (.mark [c] :: ts) := by
  have hplain : ∀ c ∈ plainMarks, isSpace c = false ∧ inWord c = false ∧ c ≠ '\\' ∧ c ≠ '/' ∧
      c ≠ '"' ∧ c ≠ '\'' ∧ c.isDigit = false ∧ c ≠ '.' :=
    Text.forall_mem_of_all (by decide)
  obtain ⟨hspace, hword, hback, hslash, hdouble, hsingle, hdigit, hpoint⟩ := hplain c hc
  have hmark : punctuatorHere (c :: cs) = some (.mark [c], cs) := by
    simp only [plainMarks, List.mem_cons, List.not_mem_nil, or_false] at hc
    rcases hc with rfl | rfl | rfl | rfl | rfl | rfl | rfl | rfl <;> rfl
  exact lexFrom_mark_of hspace (stopsWord_cons hword hback) hslash hdouble hsingle
    (numberHere_eq_none hdigit hpoint) hmark h

/-- A point in front of a name is a token. -/
theorem lexFrom_point {cs : Chars} (hword : inWord c = true) (hdigit : c.isDigit = false)
    (h : lexFrom false (c :: cs) = some ts) :
    lexFrom operand ('.' :: c :: cs) = some (.mark ['.'] :: ts) := by
  have hne : '.' ≠ c := fun heq => ne_of_inWord hword (by decide) heq.symm
  have hmark : punctuatorHere ('.' :: c :: cs) = some (.mark ['.'], c :: cs) := by
    simp [punctuatorHere, punctuators, operatorMarks, exactly, hne]
  exact lexFrom_mark_of (by decide) (stopsWord_cons (by decide) (by decide)) (by decide) (by decide)
    (by decide) (numberHere_point hdigit) hmark h

/-- The sign of a number is a token. -/
theorem lexFrom_minus {cs : Chars} (hdigit : c.isDigit = true)
    (h : lexFrom false (c :: cs) = some ts) :
    lexFrom operand ('-' :: c :: cs) = some (.mark ['-'] :: ts) := by
  have hequals : '=' ≠ c := (ne_of_isDigit hdigit (by decide)).symm
  have hminus : '-' ≠ c := (ne_of_isDigit hdigit (by decide)).symm
  have hmark : punctuatorHere ('-' :: c :: cs) = some (.mark ['-'], c :: cs) := by
    simp [punctuatorHere, punctuators, operatorMarks, exactly, hequals, hminus]
  exact lexFrom_mark_of (by decide) (stopsWord_cons (by decide) (by decide)) (by decide) (by decide)
    (by decide) (numberHere_eq_none (by decide) (by decide)) hmark h

/-! ### Paths -/

/-- The tokens of a path: its names with points between them. -/
def pathTokens (path : String) : List Token :=
  match Text.fields (· == '.') path.toList with
  | [] => []
  | w :: names => .word w :: names.flatMap fun v => [.mark ['.'], .word v]

theorem lexFrom_memberNames {names : List Chars}
    (hnames : ∀ v ∈ names, Text.isIdentifierChars v = true) (hrest : StopsWord rest)
    (h : lexFrom true rest = some ts) :
    StopsWord (memberNames names ++ rest) ∧ lexFrom true (memberNames names ++ rest) =
      some ((names.flatMap fun v => [.mark ['.'], .word v]) ++ ts) := by
  induction names with
  | nil => exact ⟨hrest, h⟩
  | cons v names ih =>
    obtain ⟨hv, hothers⟩ := List.forall_mem_cons.1 hnames
    obtain ⟨hstops, htokens⟩ := ih hothers
    have hword : lexFrom false (v ++ (memberNames names ++ rest)) = _ :=
      lexFrom_word hv hstops htokens
    have hcons : memberNames (v :: names) ++ rest = '.' :: (v ++ (memberNames names ++ rest)) := by
      simp [memberNames]
    refine ⟨by rw [hcons]; exact stopsWord_cons (by decide) (by decide), ?_⟩
    -- what follows the point is no digit, so the point does not begin a number
    obtain ⟨c, cs, rfl, hc, hdigit⟩ := exists_cons_of_isIdentifierChars hv
    rw [hcons, List.cons_append]
    exact lexFrom_point hc hdigit hword

/-- A path has the tokens of its names, whatever stands in front of it. -/
theorem lexFrom_path {path : String} (hpath : Text.isIdentifierPath path = true)
    (hrest : StopsWord rest) (h : lexFrom true rest = some ts) :
    lexFrom operand (path.toList ++ rest) = some (pathTokens path ++ ts) := by
  obtain ⟨w, names, hnames⟩ := exists_names hpath
  obtain ⟨hstops, htokens⟩ := lexFrom_memberNames hnames.others hrest h
  rw [hnames.toList_eq, List.append_assoc, lexFrom_word hnames.first hstops htokens, pathTokens,
    hnames.fields]
  rfl

/-- A path begins with a word, and there are no commas in it. -/
theorem pathTokens_eq_cons {path : String} (hpath : Text.isIdentifierPath path = true) :
    ∃ w ts, pathTokens path = .word w :: ts ∧ .comma ∉ pathTokens path := by
  obtain ⟨w, names, hnames⟩ := exists_names hpath
  refine ⟨w, _, by rw [pathTokens, hnames.fields], ?_⟩
  rw [pathTokens, hnames.fields]
  simp

end Source

end ModuleScaffold

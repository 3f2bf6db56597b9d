import ModuleScaffold.Proofs.Reading.Lexeme
import ModuleScaffold.Value.Layout
import Mathlib.Data.List.Forall2

/-!
# Expressions inside brackets

The rules for expressions try operators, calls, arrows and assignments behind every operand. In
front of a comma or a closing bracket (`ModuleScaffold.Source.Ends`) none of them applies, so an
expression there is its operand with what is called and selected on it. The rule for lists is
brought to the same form: `ModuleScaffold.Source.Listed` says how the texts of the elements lie
between brackets, whatever blanks and comments stand between them.

Main statements:

* `ModuleScaffold.Source.expressionRule_of_operandRule` – **in front of the end of an element, an
  operand is an expression**;
* `ModuleScaffold.Source.extendFrom_memberNames` – **names behind an expression are taken one after
  the other**;
* `ModuleScaffold.Source.list_of_listed` – **a list is read element by element**.
-/

namespace ModuleScaffold

namespace Source

/-! ### Nothing follows -/

theorem extendFrom_eq_self {α : Type} {step : α → Chars → Option (α × Chars)} {a : α}
    {rest : Chars} (h : step a rest = none) (fuel : ℕ) :
    extendFrom step fuel a rest = (a, rest) := by
  cases fuel with
  | zero => rfl
  | succ fuel => rw [extendFrom, h]

theorem extend_eq_self {α : Type} {step : α → Chars → Option (α × Chars)} {a : α} {rest : Chars}
    (h : step a rest = none) : extend step a rest = (a, rest) :=
  extendFrom_eq_self h _

/-- What has no operator behind it is not counted up or down. -/
theorem counted_of_operator {r : Reader} {lineEnds : Bool} {cs rest : Chars} {e : Expr}
    (h : suffixed r lineEnds cs = some (e, rest)) (hoperator : operator rest = none) :
    counted r lineEnds cs = some (e, rest) := by
  rw [counted, h]
  simp [operatorMark_eq_none hoperator]

/-- An operand with neither an operator nor a word behind it is an expression: every rule above the
operand looks for what continues it, and finds nothing. -/
theorem expressionRule_of_operator {r : Reader} {lineEnds : Bool} {cs rest : Chars} {e : Expr}
    (hasync : mayBeAsynchronous cs = false) (h : operandRule r lineEnds cs = some (e, rest))
    (hoperator : operator rest = none) (hword : word rest = none) :
    expressionRule r lineEnds cs = some (e, rest) := by
  have hbinary : binaryStep r lineEnds e rest = none := by rw [binaryStep, hoperator, hword]
  have hchain : chain r lineEnds cs = some (e, rest) := by
    rw [chain, h, Option.some_or]
    exact congrArg some (extend_eq_self hbinary)
  have hchoice : choice r lineEnds cs = some (e, rest) := by
    rw [choice, hchain]
    simp [operatorMark_eq_none hoperator]
  have hassign : assignment r lineEnds cs = some (e, rest) := by
    rw [assignment, hchoice]
    simp [hoperator]
  rw [expressionRule, hasync, if_neg Bool.false_ne_true, plainExpression, hassign]
  simp only [hoperator]

/-- Nothing stands behind an expression that could continue it. -/
structure Halts (r : Reader) (lineEnds : Bool) (rest : Chars) : Prop where
  /-- No operator follows. -/
  operator_eq_none : operator rest = none
  /-- No word follows. -/
  word_eq_none : word rest = none
  /-- Neither a call nor a member follows. -/
  suffixStep_eq_none : ∀ e, suffixStep r lineEnds e rest = none

theorem Ends.halts {rest : Chars} (h : Ends rest) (r : Reader) (lineEnds : Bool) :
    Halts r lineEnds rest :=
  ⟨h.operator_eq_none, h.word_eq_none, h.suffixStep_eq_none r lineEnds⟩

/-- What stands in front of the end of an element is not counted up or down. -/
theorem counted_of_suffixed {r : Reader} {lineEnds : Bool} {cs rest : Chars} {e : Expr}
    (h : suffixed r lineEnds cs = some (e, rest)) (hrest : Ends rest) :
    counted r lineEnds cs = some (e, rest) :=
  counted_of_operator h hrest.operator_eq_none

/-- **In front of the end of an element, an operand is an expression.** -/
theorem expressionRule_of_operandRule {r : Reader} {lineEnds : Bool} {cs rest : Chars} {e : Expr}
    (hasync : mayBeAsynchronous cs = false) (h : operandRule r lineEnds cs = some (e, rest))
    (hrest : Ends rest) : expressionRule r lineEnds cs = some (e, rest) :=
  expressionRule_of_operator hasync h hrest.operator_eq_none hrest.word_eq_none

/-! ### Operands -/

/-- An operand that starts with a mark of its own. -/
theorem operandRule_of_mark {r : Reader} {lineEnds : Bool} {c : Char} {cs tail : Chars}
    (hskip : skip cs = c :: tail) (hkept : skip (c :: tail) = c :: tail) (hc : c ∉ operatorHeads)
    (hword : wordHere (c :: tail) = none) :
    operandRule r lineEnds cs = counted r lineEnds (c :: tail) := by
  rw [operandRule, hskip]
  simp only [operator_eq_none hkept hc, hword]

/-- An operand that starts with a word which is no operator. -/
theorem operandRule_of_word {r : Reader} {lineEnds : Bool} {w cs tail : Chars}
    (hskip : skip cs = w ++ tail) (hw : Text.isIdentifierChars w = true) (htail : StopsWord tail)
    (hplain : String.ofList w ∉ prefixWords) (hawait : w ≠ "await".toList) :
    operandRule r lineEnds cs = counted r lineEnds (w ++ tail) := by
  have hoperator : operator (w ++ tail) = none := by
    obtain ⟨c, w, rfl, hc, -⟩ := exists_cons_of_isIdentifierChars hw
    refine operator_eq_none (skip_identifier hw) fun hmem => ?_
    have hout := Text.forall_mem_of_all (p := fun d => inWord d = false) (by decide) c hmem
    exact ne_of_inWord hc hout rfl
  rw [operandRule, hskip]
  simp only [hoperator, wordHere_append hw htail]
  rw [if_neg (by simpa using hplain), if_neg hawait]

theorem mayBeAsynchronous_of_mark {cs : Chars} (h : wordHere (skip cs) = none) :
    mayBeAsynchronous cs = false := by
  rw [mayBeAsynchronous, keyword, word, h]

/-! ### Paths -/

/-- What may stand behind a name: a point and a further name, the parenthesis of a call, or the
end of the element. -/
inductive FollowsName : Chars → Prop
  /-- A further name follows. -/
  | point (rest : Chars) : FollowsName ('.' :: rest)
  /-- A call follows. -/
  | call (rest : Chars) : FollowsName ('(' :: rest)
  /-- Nothing follows. -/
  | ends {rest : Chars} : Ends rest → FollowsName rest

namespace FollowsName

variable {tail : Chars}

theorem stopsWord (h : FollowsName tail) : StopsWord tail := by
  cases h with
  | point rest =>
    rintro c hc
    obtain rfl : '.' = c := by simpa using hc
    decide
  | call rest =>
    rintro c hc
    obtain rfl : '(' = c := by simpa using hc
    decide
  | ends h => exact h.stopsWord

theorem skip_eq (h : FollowsName tail) : ∃ c ∈ '.' :: '(' :: enders, ∃ behind,
    skip tail = c :: behind := by
  cases h with
  | point rest => exact ⟨'.', by simp, rest, skip_cons (by decide) (by decide)⟩
  | call rest => exact ⟨'(', by simp, rest, skip_cons (by decide) (by decide)⟩
  | ends h =>
    obtain ⟨c, hc, behind, hskip⟩ := h
    exact ⟨c, by simp [hc], behind, hskip⟩

theorem word_eq_none (h : FollowsName tail) : word tail = none := by
  obtain ⟨c, hc, behind, hskip⟩ := h.skip_eq
  rw [word, hskip]
  refine wordHere_eq_none fun d hd => ?_
  obtain rfl : c = d := by simpa using hd
  exact Text.forall_mem_of_all (p := fun d => inWord d = false ∧ d ≠ '\\') (by decide) c hc

/-- Nothing asynchronous starts with a name. -/
theorem mayBeAsynchronous_eq_false (h : FollowsName tail) {w cs : Chars}
    (hw : Text.isIdentifierChars w = true) (hskip : skip cs = w ++ tail) :
    mayBeAsynchronous cs = false := by
  obtain ⟨c, hc, behind, hskip'⟩ := h.skip_eq
  have hne : c ≠ '<' := Text.forall_mem_of_all (p := fun d => d ≠ '<') (by decide) c hc
  rw [mayBeAsynchronous, keyword, word, hskip, wordHere_append hw h.stopsWord]
  by_cases hname : w = "async".toList
  · simp only [if_pos hname, hskip', h.word_eq_none]
    simpa using hne
  · simp only [if_neg hname]

end FollowsName

/-- The words that cannot be names, among them those of the literals. -/
def reservedWords : List String :=
  ["await", "break", "case", "catch", "class", "const", "continue", "debugger", "default",
   "delete", "do", "else", "enum", "export", "extends", "false", "finally", "for", "function",
   "if", "import", "in", "instanceof", "new", "null", "return", "super", "switch", "this",
   "throw", "true", "try", "typeof", "var", "void", "while", "with", "yield"]

/-- A word at the start of an expression. -/
theorem primaryRule_word {r : Reader} {w cs tail : Chars} (hskip : skip cs = w ++ tail)
    (hw : Text.isIdentifierChars w = true) (htail : StopsWord tail) :
    primaryRule r cs = wordExpression r (w ++ tail) (String.ofList w) tail := by
  obtain ⟨c, w, rfl, hc, hdigit⟩ := exists_cons_of_isIdentifierChars hw
  have hne : ∀ d, inWord d = false → c ≠ d := fun _ hd => ne_of_inWord hc hd
  rw [primaryRule, hskip]
  simp only [List.cons_append]
  rw [if_neg (hne _ (by decide)), if_neg (hne _ (by decide)), if_neg (hne _ (by decide)),
    if_neg (by simp [hne '"' (by decide), hne '\'' (by decide)]), if_neg (hne _ (by decide)),
    if_neg (hne _ (by decide)), if_neg (by simp [hdigit, hne '.' (by decide)]),
    if_neg (hne _ (by decide)), ← List.cons_append, wordHere_append hw htail]

/-- The names of a path behind its first one. -/
def memberNames (names : List Chars) : Chars :=
  names.flatMap ('.' :: ·)

/-- An expression with names behind it. -/
def Expr.select (e : Expr) (names : List Chars) (tail : Chars) : Expr :=
  if names.isEmpty then e else .leaf .member ⟨e.start, tail⟩

theorem followsName_memberNames {names : List Chars} {tail : Chars} (htail : FollowsName tail) :
    FollowsName (memberNames names ++ tail) := by
  cases names with
  | nil => exact htail
  | cons w names => exact .point _

/-- Names behind an expression are taken one after the other. -/
theorem extendFrom_memberNames {r : Reader} {lineEnds : Bool} {tail : Chars}
    (htail : FollowsName tail) : ∀ {names : List Chars} (e : Expr) (fuel : ℕ),
      (∀ w ∈ names, Text.isIdentifierChars w = true) → names.length ≤ fuel →
      extendFrom (suffixStep r lineEnds) fuel e (memberNames names ++ tail) =
        extendFrom (suffixStep r lineEnds) (fuel - names.length) (e.select names tail) tail
  | [], e, fuel, _, _ => rfl
  | w :: names, e, fuel, hnames, hfuel => by
    obtain ⟨fuel, rfl⟩ := Nat.exists_eq_add_one.2 (Nat.lt_of_lt_of_le (Nat.succ_pos _) hfuel)
    have hw := hnames w (by simp)
    have hcons : memberNames (w :: names) ++ tail = '.' :: (w ++ (memberNames names ++ tail)) := by
      simp [memberNames]
    have hstep : suffixStep r lineEnds e (memberNames (w :: names) ++ tail) =
        some (leafTo .member e.start (memberNames names ++ tail)) := by
      have hword : anyWord (w ++ (memberNames names ++ tail)) =
          some (memberNames names ++ tail) := by
        rw [anyWord, word, skip_identifier hw,
          wordHere_append hw (followsName_memberNames htail).stopsWord]
        rfl
      rw [hcons, suffixStep, skip_cons (by decide) (by decide)]
      simp only
      rw [memberStep, skip_cons (by decide) (by decide)]
      simp only [hword, Option.some_or]
    rw [extendFrom, hstep]
    simp only [leafTo]
    rw [extendFrom_memberNames htail _ fuel (fun v hv => hnames v (List.mem_cons_of_mem _ hv))
      (by simpa using hfuel), List.length_cons, Nat.add_sub_add_right]
    congr 1
    cases names with
    | nil => simp [Expr.select, memberNames]
    | cons v names => rfl

/-- A call behind an expression, with nothing behind it that continues the call. -/
theorem extendFrom_call {r : Reader} {lineEnds : Bool} {e : Expr} {fuel : ℕ}
    {inner rest : Chars} {args : List Expr} (hargs : arguments r inner = some (args, rest))
    (hrest : Halts r lineEnds rest) (hfuel : 0 < fuel) :
    extendFrom (suffixStep r lineEnds) fuel e ('(' :: inner) =
      (.call e.kind e.fragment false args ⟨e.start, rest⟩, rest) := by
  obtain ⟨fuel, rfl⟩ := Nat.exists_eq_add_one.2 hfuel
  have hstep : suffixStep r lineEnds e ('(' :: inner) =
      some (.call e.kind e.fragment false args ⟨e.start, rest⟩, rest) := by
    rw [suffixStep, skip_cons (by decide) (by decide)]
    simp only
    rw [callFrom, hargs]
    rfl
  rw [extendFrom, hstep]
  exact extendFrom_eq_self (hrest.suffixStep_eq_none _) _

/-! ### Lists -/

/-- The texts of the elements of a list lie in front of the closing mark, with commas between
them and possibly behind the last one, and with blanks and comments anywhere. -/
inductive Listed (closing : Char) : List Chars → Chars → Chars → Prop
  /-- The closing mark follows. -/
  | done {cs rest : Chars} : skip cs = closing :: rest → Listed closing [] cs rest
  /-- An element and a comma follow. -/
  | more {text cs behind next rest : Chars} {texts : List Chars} : skip cs = text ++ behind →
      skip behind = ',' :: next → Listed closing texts next rest →
      Listed closing (text :: texts) cs rest
  /-- The last element and the closing mark follow. -/
  | last {text cs behind rest : Chars} : skip cs = text ++ behind →
      skip behind = closing :: rest → Listed closing [text] cs rest

/-- Elements are shorter than the text that they lie in. -/
theorem Listed.length_lt {closing : Char} {texts : List Chars} {cs rest : Chars}
    (h : Listed closing texts cs rest) :
    rest.length < cs.length ∧ ∀ text ∈ texts, text.length + rest.length < cs.length := by
  induction h with
  | @done cs rest hskip =>
    have := length_skip_le cs
    rw [hskip, List.length_cons] at this
    exact ⟨by omega, by simp⟩
  | @more text cs behind next rest texts hskip hcomma _ ih =>
    have h₁ := length_skip_le cs
    have h₂ := length_skip_le behind
    rw [hskip, List.length_append] at h₁
    rw [hcomma, List.length_cons] at h₂
    refine ⟨by omega, fun t ht => ?_⟩
    rcases List.mem_cons.1 ht with rfl | ht
    · omega
    · have := ih.2 t ht
      omega
  | @last text cs behind rest hskip hclosing =>
    have h₁ := length_skip_le cs
    have h₂ := length_skip_le behind
    rw [hskip, List.length_append] at h₁
    rw [hclosing, List.length_cons] at h₂
    refine ⟨by omega, fun t ht => ?_⟩
    obtain rfl : t = text := by simpa using ht
    omega

/-- What an element starts with: nothing in front of it is skipped, and it is not taken for a mark
of the list or for a spread. -/
structure Begins (text : Chars) : Prop where
  /-- Nothing is skipped in front of it. -/
  kept : ∀ rest, skip (text ++ rest) = text ++ rest
  /-- It has a first character, which no list waits for. -/
  head : ∃ c cs, text = c :: cs ∧ c ∉ '.' :: enders

/-- What begins with an identifier. -/
theorem begins_identifier {w : Chars} (hw : Text.isIdentifierChars w = true) (more : Chars) :
    Begins (w ++ more) := by
  refine ⟨fun rest => ?_, ?_⟩
  · rw [List.append_assoc]
    exact skip_identifier hw
  · obtain ⟨c, w, rfl, hc, -⟩ := exists_cons_of_isIdentifierChars hw
    refine ⟨c, w ++ more, rfl, fun hmem => ?_⟩
    have hout := Text.forall_mem_of_all (p := fun d => inWord d = false) (by decide) c hmem
    exact ne_of_inWord hc hout rfl

theorem Begins.mark_eq_none {text cs behind : Chars} (h : Begins text)
    (hskip : skip cs = text ++ behind) (closer : String) {closing : Char} {more : List Char}
    (hcloser : closer.toList = closing :: more) (hclosing : closing ∈ '.' :: enders) :
    mark closer cs = none := by
  obtain ⟨c, tail, rfl, hc⟩ := h.head
  refine Source.mark_eq_none closer hcloser hskip ?_
  rintro rfl
  exact hc hclosing

/-- An element of a list has ended: a single comma or the closing mark follows. -/
inductive EndsIn (closing : Char) (rest : Chars) : Prop
  /-- A comma follows, and no further one. -/
  | comma {behind : Chars} : skip rest = ',' :: behind → mark "," behind = none →
      EndsIn closing rest
  /-- The closing mark follows. -/
  | closing {behind : Chars} : skip rest = closing :: behind → EndsIn closing rest

theorem EndsIn.ends {closing : Char} {rest : Chars} (h : EndsIn closing rest)
    (hclosing : closing ∈ enders) : Ends rest := by
  cases h with
  | comma hskip _ => exact ⟨',', by decide, _, hskip⟩
  | closing hskip => exact ⟨closing, hclosing, _, hskip⟩

/-- No comma stands at the start of a list. -/
theorem Listed.mark_comma_eq_none {closing : Char} {texts : List Chars} {cs rest : Chars}
    (h : Listed closing texts cs rest) (hcomma : closing ≠ ',') (hbegins : ∀ t ∈ texts, Begins t) :
    mark "," cs = none := by
  cases h with
  | done hskip => exact mark_eq_none "," rfl hskip hcomma.symm
  | more hskip _ _ => exact (hbegins _ (by simp)).mark_eq_none hskip "," rfl (by decide)
  | last hskip _ => exact (hbegins _ (by simp)).mark_eq_none hskip "," rfl (by decide)

/-- What the rule for the elements of a list does with one of them: in front of the end of the
element, it reads something with the given meaning. -/
structure ItemReads {α β : Type} (item : Chars → Option (α × Chars)) (closing : Char)
    (mean : β → α → Prop) (text : Chars) (b : β) : Prop where
  /-- The element can be told from the marks of the list. -/
  begins : Begins text
  /-- It is read. -/
  reads : ∀ {cs rest}, EndsIn closing rest → skip cs = text ++ rest →
    ∃ a, item cs = some (a, rest) ∧ mean b a

section Lists

variable {α β : Type} {item : Chars → Option (α × Chars)} {mean : β → α → Prop} {closing : Char}
  {closer : String} {holes : Bool}

theorem begins_of_itemReads {texts : List Chars} {bs : List β}
    (h : List.Forall₂ (ItemReads item closing mean) texts bs) : ∀ text ∈ texts, Begins text :=
  ((List.forall₂_and_left _ _).1 (h.imp fun _ _ hb => ⟨hb.begins, hb⟩)).1

/-- The reading of lists, with enough fuel for what remains. -/
theorem listFrom_of_listed (hcloser : closer.toList = [closing]) (hclosing : closing ∈ enders)
    (hcomma : closing ≠ ',') {texts : List Chars} {cs rest : Chars}
    (h : Listed closing texts cs rest) : ∀ {bs : List β} {fuel : ℕ},
      List.Forall₂ (ItemReads item closing mean) texts bs → cs.length < fuel →
      ∃ as, listFrom holes item closer fuel cs = some (as, rest) ∧ List.Forall₂ mean bs as := by
  induction h with
  | @done cs rest hskip =>
    intro bs fuel hitems hfuel
    obtain ⟨fuel, rfl⟩ := Nat.exists_eq_add_one.2 (Nat.zero_lt_of_lt hfuel)
    cases hitems
    refine ⟨[], ?_, .nil⟩
    rw [listFrom, mark_of_skip closer hcloser hskip]
  | @more text cs behind next rest texts hskip hnext hlisted ih =>
    intro bs fuel hitems hfuel
    obtain ⟨fuel, rfl⟩ := Nat.exists_eq_add_one.2 (Nat.zero_lt_of_lt hfuel)
    cases hitems with
    | cons hitem hitems =>
      have hsingle : mark "," next = none :=
        hlisted.mark_comma_eq_none hcomma (begins_of_itemReads hitems)
      obtain ⟨a, ha, hmean⟩ := hitem.reads (.comma hnext hsingle) hskip
      -- the fuel is counted in characters, and the comma is one of them
      have hlt : next.length < fuel := by
        have h₁ := length_skip_le cs
        have h₂ := length_skip_le behind
        rw [hskip, List.length_append] at h₁
        rw [hnext, List.length_cons] at h₂
        omega
      obtain ⟨as, has, hall⟩ := ih hitems hlt
      have hmore : mark closer cs = none :=
        hitem.begins.mark_eq_none hskip closer hcloser (List.mem_cons_of_mem _ hclosing)
      refine ⟨a :: as, ?_, .cons hmean hall⟩
      rw [listFrom, hmore, hitem.begins.mark_eq_none hskip "," rfl (by decide), ite_self]
      simp only [ha, mark_of_skip "," rfl hnext, has]
  | @last text cs behind rest hskip hend =>
    intro bs fuel hitems hfuel
    obtain ⟨fuel, rfl⟩ := Nat.exists_eq_add_one.2 (Nat.zero_lt_of_lt hfuel)
    cases hitems with
    | cons hitem hitems =>
      cases hitems
      obtain ⟨a, ha, hmean⟩ := hitem.reads (.closing hend) hskip
      have hmore : mark closer cs = none :=
        hitem.begins.mark_eq_none hskip closer hcloser (List.mem_cons_of_mem _ hclosing)
      refine ⟨[a], ?_, .cons hmean .nil⟩
      rw [listFrom, hmore, hitem.begins.mark_eq_none hskip "," rfl (by decide), ite_self]
      simp only [ha, mark_eq_none "," rfl hend hcomma.symm, mark_of_skip closer hcloser hend]

/-- **A list is read element by element.** -/
theorem list_of_listed (hcloser : closer.toList = [closing]) (hclosing : closing ∈ enders)
    (hcomma : closing ≠ ',') {texts : List Chars} {bs : List β} {cs rest : Chars}
    (h : Listed closing texts cs rest)
    (hitems : List.Forall₂ (ItemReads item closing mean) texts bs) :
    ∃ as, list holes item closer cs = some (as, rest) ∧ List.Forall₂ mean bs as :=
  listFrom_of_listed hcloser hclosing hcomma h hitems (Nat.lt_succ_self _)

end Lists

/-! ### Texts between brackets -/

section Texts

variable {closing : Char} {texts : List Chars} {cs rest : Chars}

/-- Blanks in front of a list change nothing. -/
theorem Listed.blanks {blanks : Chars} (hblanks : ∀ c ∈ blanks, isSpace c = true)
    (h : Listed closing texts cs rest) : Listed closing texts (blanks ++ cs) rest := by
  have hskip : skip (blanks ++ cs) = skip cs := skip_append_of_isSpace hblanks
  cases h with
  | done h => exact .done (hskip.trans h)
  | more h₁ h₂ h₃ => exact .more (hskip.trans h₁) h₂ h₃
  | last h₁ h₂ => exact .last (hskip.trans h₁) h₂

theorem isSpace_of_mem_blank : ∀ c ∈ [' '], isSpace c = true :=
  Text.forall_mem_of_all (by decide)

theorem skip_mark {c : Char} (hc : c ∈ enders) : skip (c :: cs) = c :: cs := by
  have := Text.forall_mem_of_all (p := fun d => isSpace d = false ∧ d ≠ '/') (by decide) c hc
  exact skip_cons this.1 this.2

/-- Elements on one line, with blanks in front of the closing mark. -/
theorem listed_commaSeparated (hclosing : closing ∈ enders) {blanks : Chars}
    (hblanks : ∀ c ∈ blanks, isSpace c = true) : ∀ {texts : List Chars},
      (∀ t ∈ texts, Begins t) →
      Listed closing texts (Value.commaSeparated texts ++ (blanks ++ closing :: rest)) rest
  | [], _ => .done (by
    rw [Value.commaSeparated, Text.joinWith, List.nil_append, skip_append_of_isSpace hblanks,
      skip_mark hclosing])
  | [t], h => .last ((h t (by simp)).kept _) (by
    rw [skip_append_of_isSpace hblanks, skip_mark hclosing])
  | t :: u :: texts, h => by
    have hassoc : Value.commaSeparated (t :: u :: texts) ++ (blanks ++ closing :: rest) = t ++
        ',' :: ([' '] ++ (Value.commaSeparated (u :: texts) ++ (blanks ++ closing :: rest))) := by
      simp [Value.commaSeparated, Text.joinWith]
    rw [hassoc]
    refine .more ((h t (by simp)).kept _) (skip_mark (by decide)) (.blanks isSpace_of_mem_blank ?_)
    exact listed_commaSeparated hclosing hblanks fun v hv => h v (List.mem_cons_of_mem _ hv)

theorem isSpace_of_mem_spaces {n : ℕ} : ∀ c ∈ Text.spaces n, isSpace c = true := by
  intro c hc
  rw [List.eq_of_mem_replicate hc]
  decide

/-- Elements each on a line of its own. -/
theorem listed_lines (hclosing : closing ∈ enders) (indent : ℕ) : ∀ {texts : List Chars},
    (∀ t ∈ texts, Begins t) → Listed closing texts
      ('\n' :: ((texts.flatMap fun line => Text.spaces (indent + 2) ++ line ++ [',', '\n'])
        ++ (Text.spaces indent ++ closing :: rest))) rest
  | [], _ => by
    refine .done ?_
    rw [skip_cons_of_isSpace (by decide), List.flatMap_nil, List.nil_append,
      skip_append_of_isSpace isSpace_of_mem_spaces, skip_mark hclosing]
  | t :: texts, h => by
    refine Listed.more ?_ (skip_mark (by decide))
      (listed_lines hclosing indent fun v hv => h v (List.mem_cons_of_mem _ hv))
    rw [skip_cons_of_isSpace (by decide), List.flatMap_cons, List.append_assoc, List.append_assoc,
      List.append_assoc, skip_append_of_isSpace isSpace_of_mem_spaces, (h t (by simp)).kept]
    simp

/-- Elements in front of a last one. -/
theorem listed_before_last (hclosing : closing ∈ enders) {last : Chars} (hlast : Begins last) :
    ∀ {texts : List Chars}, (∀ t ∈ texts, Begins t) → Listed closing (texts ++ [last])
      (texts.flatMap (· ++ [',', ' ']) ++ (last ++ closing :: rest)) rest
  | [], _ => .last (hlast.kept _) (skip_mark hclosing)
  | t :: texts, h => by
    have hassoc : (t :: texts).flatMap (· ++ [',', ' ']) ++ (last ++ closing :: rest) =
        t ++ ',' :: ([' '] ++ (texts.flatMap (· ++ [',', ' ']) ++ (last ++ closing :: rest))) := by
      simp
    rw [hassoc]
    refine .more ((h t (by simp)).kept _) (skip_mark (by decide)) (.blanks isSpace_of_mem_blank ?_)
    exact listed_before_last hclosing hlast fun v hv => h v (List.mem_cons_of_mem _ hv)

end Texts

end Source

end ModuleScaffold

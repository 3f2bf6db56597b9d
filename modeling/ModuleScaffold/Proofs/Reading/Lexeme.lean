import ModuleScaffold.Source.Statement
import ModuleScaffold.Text.Identifier
import Mathlib.Data.List.Basic

/-!
# Tokens that are read back

What the recognisers of tokens do at the start of a text whose first token is known. Every
statement has the form that the reading rules need: the token is followed by any `rest` that cannot
belong to it, and `rest` is what remains.

Inside brackets an element of a list is followed by blanks and comments and then by a comma or a
closing bracket; `ModuleScaffold.Source.Ends` says so. Nothing that can stand behind an
expression starts there.

Main statements:

* `ModuleScaffold.Source.wordHere_append` – **an identifier is one word**;
* `ModuleScaffold.Source.Ends.operator_eq_none`, `ModuleScaffold.Source.Ends.word_eq_none` –
  **nothing continues an expression in front of a comma or a closing bracket**.
-/

namespace ModuleScaffold

namespace Text

/-! ### Tables of ranges -/

/-- Whether no range of one table meets a range of another. The tables are long, so the bounds are
compared as numbers, without decisions of propositions. -/
def rangesApart (table other : List (Nat × Nat)) : Bool :=
  table.all fun r => other.all fun s => r.2.blt s.1 || s.2.blt r.1

theorem inRanges_eq_false {table other : List (Nat × Nat)} (h : rangesApart table other = true)
    {c : Char} (hc : inRanges table c = true) : inRanges other c = false := by
  rw [Bool.eq_false_iff, Ne, inRanges_iff]
  obtain ⟨r, hr, hr₁, hr₂⟩ := inRanges_iff.1 hc
  rintro ⟨s, hs, hs₁, hs₂⟩
  have hrs := List.all_eq_true.1 (List.all_eq_true.1 h r hr) s hs
  simp only [Bool.or_eq_true, Nat.blt_eq] at hrs
  omega

/-- A property of the first 128 characters can be checked one by one. -/
theorem forall_ascii {p : Char → Prop} (h : ∀ n < 128, p (Char.ofNat n)) {c : Char}
    (hc : c.toNat < 128) : p c := by
  have := h c.toNat hc
  rwa [Char.ofNat_toNat] at this

/-- A property of the members of a list can be checked one by one. The characters are finitely many,
so without the list a decision would go through all of them. -/
theorem forall_mem_of_all {p : Char → Prop} [DecidablePred p] {l : List Char}
    (h : l.all (fun c => decide (p c)) = true) : ∀ c ∈ l, p c :=
  fun c hc => of_decide_eq_true (List.all_eq_true.1 h c hc)

theorem lt_of_isAlphanum {c : Char} (h : c.isAlphanum = true) : c.toNat < 128 := by
  delta Char.isAlphanum Char.isAlpha Char.isUpper Char.isLower Char.isDigit at h
  simp only [Bool.or_eq_true, Bool.and_eq_true, decide_eq_true_eq] at h
  have hle : c.toNat ≤ 90 ∨ c.toNat ≤ 122 ∨ c.toNat ≤ 57 := by
    rcases h with (h | h) | h
    · exact .inl h.2
    · exact .inr (.inl h.2)
    · exact .inr (.inr h.2)
  omega

theorem isAlphanumeric_of_lt {c : Char} (h : c.toNat < 128) : isAlphanumeric c = c.isAlphanum := by
  rw [isAlphanumeric, isAlphabetic_of_lt h, isNumeric_of_lt h, Char.isAlphanum]

/-- A character of a word is beyond ASCII in one of the tables, or a plain letter, digit or mark. -/
theorem isWordPart_cases {c : Char} (h : isWordPart c = true) : c.toNat < 128 ∨
    ¬c.toNat < 128 ∧ (inRanges alphabeticRanges c = true ∨ inRanges numericRanges c = true) := by
  by_cases hc : c.toNat < 128
  · exact .inl hc
  · refine .inr ⟨hc, ?_⟩
    simp only [isWordPart, isAlphanumeric, isAlphabetic, isNumeric, hc, if_false,
      Bool.or_eq_true, beq_iff_eq] at h
    rcases h with (h | rfl) | rfl
    · exact h
    · exact absurd (by decide) hc
    · exact absurd (by decide) hc

theorem isBlank_of_isWordPart {c : Char} (h : isWordPart c = true) : isBlank c = false := by
  rcases isWordPart_cases h with hc | ⟨-, hc | hc⟩
  · revert h
    exact forall_ascii (p := fun c => isWordPart c = true → isBlank c = false)
      (by decide) hc
  · exact inRanges_eq_false (by decide +kernel) hc
  · exact inRanges_eq_false (by decide +kernel) hc

theorem isWordPart_of_isWordStart {c : Char} (h : isWordStart c = true) : isWordPart c = true := by
  simp only [isWordStart, isWordPart, isAlphanumeric, Bool.or_eq_true] at h ⊢
  tauto

/-- The characters of an identifier. -/
theorem isWordPart_of_isIdentifierChars {cs : List Char} (h : isIdentifierChars cs = true) :
    ∀ c ∈ cs, isWordPart c = true := by
  cases cs with
  | nil => simp
  | cons c cs =>
    simp only [isIdentifierChars, Bool.and_eq_true, List.all_eq_true] at h
    intro d hd
    rcases List.mem_cons.1 hd with rfl | hd
    · exact isWordPart_of_isWordStart h.1
    · exact h.2 d hd

/-- An identifier does not begin with a digit. -/
theorem isDigit_of_isWordStart {c : Char} (h : isWordStart c = true) : c.isDigit = false := by
  by_cases hc : c.toNat < 128
  · revert h
    exact forall_ascii (p := fun c => isWordStart c = true → c.isDigit = false)
      (by decide) hc
  · rw [Bool.eq_false_iff]
    intro hd
    simp only [Char.isDigit, Bool.and_eq_true, decide_eq_true_eq] at hd
    have : c.toNat ≤ 57 := hd.2
    omega

end Text

namespace Source

/-! ### Fragments -/

theorem upTo_append (front rest : Chars) : upTo (front ++ rest) rest = front := by
  simp [upTo]

/-! ### Blanks -/

theorem skip_cons_of_isSpace {c : Char} {cs : Chars} (h : isSpace c = true) :
    skip (c :: cs) = skip cs := by
  have hc : c ≠ '/' := by
    rintro rfl
    revert h
    decide
  rw [skip, skipFrom, if_pos h]
  · rfl
  · rintro ds rfl
    exact absurd rfl hc
  · rintro ds rfl
    exact absurd rfl hc

/-- Blanks in front of a text are skipped. -/
theorem skip_append_of_isSpace {blanks cs : Chars} (h : ∀ c ∈ blanks, isSpace c = true) :
    skip (blanks ++ cs) = skip cs := by
  induction blanks with
  | nil => rfl
  | cons c blanks ih =>
    rw [List.cons_append, skip_cons_of_isSpace (h c (by simp))]
    exact ih fun d hd => h d (List.mem_cons_of_mem _ hd)

/-- Nothing is skipped in front of a token that cannot open a comment. -/
theorem skip_cons {c : Char} {cs : Chars} (hspace : isSpace c = false) (hc : c ≠ '/') :
    skip (c :: cs) = c :: cs := by
  rw [skip, skipFrom, if_neg (by simp [hspace])]
  · rintro ds rfl
    exact absurd rfl hc
  · rintro ds rfl
    exact absurd rfl hc

/-- Nothing is skipped in front of a slash that opens no comment. -/
theorem skip_slash {c : Char} {cs : Chars} (hslash : c ≠ '/') (hstar : c ≠ '*') :
    skip ('/' :: c :: cs) = '/' :: c :: cs := by
  rw [skip, skipFrom, if_neg (by decide)]
  · rintro ds - h
    exact hslash (List.cons.inj h).1
  · rintro ds - h
    exact hstar (List.cons.inj h).1

/-- How much of an open comment is held to be given back. -/
def Trivia.held : Trivia → ℕ
  | .block start => start.length
  | _ => 0

/-- Skipping gives no more than there was, or the open comment that it started in. -/
theorem length_skipFrom_le (trivia : Trivia) (cs : Chars) :
    (skipFrom trivia cs).length ≤ max trivia.held cs.length := by
  fun_induction skipFrom trivia cs <;> simp only [Trivia.held, List.length_cons] at * <;> omega

theorem length_skip_le (cs : Chars) : (skip cs).length ≤ cs.length := by
  exact Nat.le_trans (length_skipFrom_le .blank cs) (by simp [Trivia.held])

/-! ### Marks -/

theorem mark_of_skip (text : String) {c : Char} {cs rest : Chars} (ht : text.toList = [c])
    (h : skip cs = c :: rest) : mark text cs = some rest := by
  rw [mark, h, ht, exactly, if_pos rfl, exactly]

theorem mark_eq_none (text : String) {c d : Char} {ps cs rest : Chars}
    (ht : text.toList = d :: ps) (h : skip cs = c :: rest) (hne : d ≠ c) :
    mark text cs = none := by
  rw [mark, h, ht, exactly, if_neg hne]

/-! ### Words -/

theorem inWord_of_isWordPart {c : Char} (h : Text.isWordPart c = true) : inWord c = true := by
  rcases Text.isWordPart_cases h with hc | ⟨hascii, hc⟩
  · revert h
    exact Text.forall_ascii (p := fun c => Text.isWordPart c = true → inWord c = true)
      (by decide) hc
  · have hspace : isSpace c = false := by
      rcases hc with hc | hc
      · exact Text.inRanges_eq_false (by decide +kernel) hc
      · exact Text.inRanges_eq_false (by decide +kernel) hc
    have hmark : c ∉ punctuation := fun hmem =>
      hascii (Text.forall_mem_of_all (p := fun d => d.toNat < 128) (by decide) c hmem)
    have hlow : 0x20 < c.toNat := by omega
    simp [inWord, hspace, hmark, hlow]

theorem inWord_of_isAlphanum {c : Char} (h : c.isAlphanum = true) : inWord c = true := by
  refine inWord_of_isWordPart ?_
  rw [Text.isWordPart, Text.isAlphanumeric_of_lt (Text.lt_of_isAlphanum h), h]
  rfl

theorem ne_of_inWord {c d : Char} (hc : inWord c = true) (hd : inWord d = false) : c ≠ d := by
  rintro rfl
  rw [hc] at hd
  cases hd

theorem ne_of_isDigit {c d : Char} (hc : c.isDigit = true) (hd : d.isDigit = false) : c ≠ d := by
  rintro rfl
  rw [hc] at hd
  cases hd

/-- An identifier begins with a character of words that is no digit. -/
theorem exists_cons_of_isIdentifierChars {w : Chars} (h : Text.isIdentifierChars w = true) :
    ∃ c cs, w = c :: cs ∧ inWord c = true ∧ c.isDigit = false := by
  cases w with
  | nil => cases h
  | cons c cs =>
    refine ⟨c, cs, rfl, ?_, ?_⟩
    · exact inWord_of_isWordPart (Text.isWordPart_of_isIdentifierChars h c (by simp))
    · simp only [Text.isIdentifierChars, Bool.and_eq_true] at h
      exact Text.isDigit_of_isWordStart h.1

/-- A word ends in front of the text. -/
def StopsWord (rest : Chars) : Prop :=
  ∀ c ∈ rest.head?, inWord c = false ∧ c ≠ '\\'

theorem wordFrom_eq_nil {rest : Chars} (h : StopsWord rest) : wordFrom 0 rest = ([], rest) := by
  cases rest with
  | nil => rfl
  | cons c rest =>
    obtain ⟨hword, hescape⟩ := h c rfl
    rw [wordFrom, if_neg (by simp [hword])]
    have : wordEscape (c :: rest) = none := by
      rw [wordEscape]
      · rintro cs h
        exact hescape (List.cons.inj h).1
      · rintro a b c' d tail h
        exact hescape (List.cons.inj h).1
    rw [this]

/-- Characters that may stand in words are taken up to where the word ends. -/
theorem wordFrom_append {w rest : Chars} (hw : ∀ c ∈ w, inWord c = true) (h : StopsWord rest) :
    wordFrom 0 (w ++ rest) = (w, rest) := by
  induction w with
  | nil => exact wordFrom_eq_nil h
  | cons c w ih =>
    rw [List.cons_append, wordFrom, if_pos (hw c (by simp)),
      ih fun d hd => hw d (List.mem_cons_of_mem _ hd)]

/-- **An identifier is one word.** -/
theorem wordHere_append {w rest : Chars} (hw : Text.isIdentifierChars w = true)
    (h : StopsWord rest) : wordHere (w ++ rest) = some (w, rest) := by
  have hpart := Text.isWordPart_of_isIdentifierChars hw
  rw [wordHere, wordFrom_append (fun c hc => inWord_of_isWordPart (hpart c hc)) h]
  obtain ⟨c, w, rfl, -, hdigit⟩ := exists_cons_of_isIdentifierChars hw
  simp [hdigit]

/-- No word starts with a character that cannot stand in one. -/
theorem wordHere_eq_none {rest : Chars} (h : StopsWord rest) : wordHere rest = none := by
  rw [wordHere, wordFrom_eq_nil h]

/-- No word starts with a digit. -/
theorem wordHere_digit {c : Char} {rest : Chars} (h : c.isDigit = true) :
    wordHere (c :: rest) = none := by
  have hword : inWord c = true := inWord_of_isAlphanum (by simp [Char.isAlphanum, h])
  rw [wordHere, wordFrom, if_pos hword]
  simp [h]

/-- Nothing is skipped in front of an identifier. -/
theorem skip_identifier {w rest : Chars} (hw : Text.isIdentifierChars w = true) :
    skip (w ++ rest) = w ++ rest := by
  obtain ⟨c, w, rfl, hc, -⟩ := exists_cons_of_isIdentifierChars hw
  refine skip_cons ?_ (ne_of_inWord hc (by decide))
  rw [inWord] at hc
  simp_all

/-! ### Operators -/

/-- The characters with which operators begin. -/
def operatorHeads : List Char :=
  ['>', '*', '<', '&', '|', '?', '=', '!', '.', '+', '-', '/', '%', '^', '~', ':']

/-- No operator starts with another character. -/
theorem operator_eq_none {c : Char} {cs rest : Chars} (h : skip cs = c :: rest)
    (hc : c ∉ operatorHeads) : operator cs = none := by
  rw [operator, h, List.findSome?_eq_none_iff]
  intro m hm
  have hhead : ∀ m ∈ operatorMarks, m.toList.head?.any (operatorHeads.contains ·) = true := by
    decide
  have hd := hhead m hm
  cases hl : m.toList with
  | nil =>
    rw [hl] at hd
    cases hd
  | cons d ds =>
    rw [hl] at hd
    have hne : d ≠ c := fun heq => hc (heq ▸ List.contains_iff_mem.1 hd)
    simp [exactly, hne]

theorem operatorMark_eq_none {cs : Chars} (h : operator cs = none) (text : String) :
    operatorMark text cs = none := by
  rw [operatorMark, h]

/-! ### The end of an element -/

/-- The characters that may follow an element of a list. -/
def enders : List Char := [',', ')', ']', '\x7d']

theorem stopsWord_of_mem_enders {c : Char} (h : c ∈ enders) : inWord c = false ∧ c ≠ '\\' :=
  Text.forall_mem_of_all (p := fun d => inWord d = false ∧ d ≠ '\\') (by decide) c h

/-- Behind blanks and comments, an element of a list has ended. -/
def Ends (rest : Chars) : Prop :=
  ∃ c ∈ enders, ∃ behind, skip rest = c :: behind

namespace Ends

variable {rest : Chars}

/-- What follows an element starts with a blank, with a comment, or with a mark. -/
theorem head (h : Ends rest) :
    ∃ c cs, rest = c :: cs ∧ (isSpace c = true ∨ c = '/' ∨ c ∈ enders) := by
  obtain ⟨e, he, behind, hskip⟩ := h
  cases rest with
  | nil => cases hskip
  | cons c cs =>
    refine ⟨c, cs, rfl, ?_⟩
    by_cases hspace : isSpace c = true
    · exact .inl hspace
    by_cases hslash : c = '/'
    · exact .inr (.inl hslash)
    · rw [skip_cons (by simpa using hspace) hslash] at hskip
      obtain ⟨rfl, -⟩ := List.cons.inj hskip
      exact .inr (.inr he)

/-- A token that takes word characters only has ended. -/
theorem stopsWord (h : Ends rest) : StopsWord rest := by
  obtain ⟨c, cs, rfl, hc⟩ := h.head
  rintro d hd
  obtain rfl : c = d := by simpa using hd
  rcases hc with hc | rfl | hc
  · refine ⟨by simp [inWord, hc], ?_⟩
    rintro rfl
    revert hc
    decide
  · decide
  · exact stopsWord_of_mem_enders hc

/-- No word follows. -/
theorem word_eq_none (h : Ends rest) : word rest = none := by
  obtain ⟨e, he, behind, hskip⟩ := h
  rw [word, hskip]
  refine wordHere_eq_none ?_
  rintro d hd
  obtain rfl : e = d := by simpa using hd
  exact stopsWord_of_mem_enders he

/-- No operator follows. -/
theorem operator_eq_none (h : Ends rest) : operator rest = none := by
  obtain ⟨e, he, behind, hskip⟩ := h
  exact Source.operator_eq_none hskip
    (Text.forall_mem_of_all (p := fun d => d ∉ operatorHeads) (by decide) e he)

/-- No call and no member follows. -/
theorem suffixStep_eq_none (h : Ends rest) (r : Reader) (lineEnds : Bool) (e : Expr) :
    suffixStep r lineEnds e rest = none := by
  obtain ⟨c, hc, behind, hskip⟩ := h
  rw [suffixStep, hskip]
  simp only [enders, List.mem_cons, List.not_mem_nil, or_false] at hc
  rcases hc with rfl | rfl | rfl | rfl <;> rfl

end Ends

end Source

end ModuleScaffold

import ModuleScaffold.Number.Literal
import ModuleScaffold.Proofs.Reading.Lexeme
import ModuleScaffold.Value.Layout
import ModuleScaffold.Value.Problem
import Mathlib.Data.List.TakeDrop

/-!
# Literals that are read back

Quoted texts, regular expressions and numbers, each written by one part of the project and read
by another. The recogniser of a token gives what remains behind the written text, and the reader
of its meaning gives back what was written.

Main statements:

* `ModuleScaffold.Source.stringHere_quoteChars` and `ModuleScaffold.Text.unescape_quoteChars` –
  **a quoted text is one token and means the text**;
* `ModuleScaffold.Source.regexHere_append` – **a body that can be written is read back**;
* `ModuleScaffold.Source.numberHere_positional` and
  `ModuleScaffold.Number.ofLiteral_positional` – **a decimal is one token**, and it is read as a
  literal as it is read as a text.
-/

namespace ModuleScaffold

namespace Text

/-! ### Quoted texts -/

theorem digitValue_hexDigit {d : ℕ} (h : d < 16) : digitValue (hexDigit d) = some d := by
  have : ∀ d < 16, digitValue (hexDigit d) = some d := by decide
  exact this d h

theorem isDigitOf_hexDigit {d : ℕ} (h : d < 16) : isDigitOf 16 (hexDigit d) = true := by
  simp [isDigitOf, digitValue_hexDigit h, h]

/-- Four digits give a code point of the first plane back. -/
theorem readNumber_fourHexDigits {n : ℕ} (h : n < 65536) :
    readNumber 16 (fourHexDigits n) = some n := by
  have hd : ∀ m, m % 16 < 16 := fun m => Nat.mod_lt _ (by decide)
  simp only [readNumber, fourHexDigits, List.isEmpty_cons, Bool.false_eq_true, if_false, numberFrom,
    digitValue_hexDigit (hd _), hd, if_true]
  congr 1
  omega

theorem codePoint_fourHexDigits {c : Char} (h : c.toNat < 65536) :
    codePoint (fourHexDigits c.toNat) = some c := by
  have hvalid : c.toNat.isValidChar := c.valid
  rw [codePoint, readNumber_fourHexDigits h]
  simp [hvalid, Char.ofNat_toNat]

/-- How a character is escaped. -/
theorem escaped_cases (c : Char) :
    (∃ d, escaped c = ['\\', d] ∧ d ≠ 'x' ∧ d ≠ 'u' ∧ isDigitOf 8 d = false ∧ d ≠ '\r' ∧
      shortEscape d = [c]) ∨
    (escaped c = '\\' :: 'u' :: fourHexDigits c.toNat ∧ c.toNat < 65536) ∨
    (escaped c = [c] ∧ c ≠ '"' ∧ c ≠ '\\' ∧ c ≠ '\n' ∧ c ≠ '\r') := by
  rw [escaped]
  by_cases h₁ : c = '"'
  · subst h₁
    exact .inl ⟨'"', by decide⟩
  by_cases h₂ : c = '\\'
  · subst h₂
    exact .inl ⟨'\\', by decide⟩
  by_cases h₃ : c = '\n'
  · subst h₃
    exact .inl ⟨'n', by decide⟩
  by_cases h₄ : c = '\r'
  · subst h₄
    exact .inl ⟨'r', by decide⟩
  by_cases h₅ : c = '\t'
  · subst h₅
    exact .inl ⟨'t', by decide⟩
  rw [if_neg h₁, if_neg h₂, if_neg h₃, if_neg h₄, if_neg h₅]
  split
  · next h =>
    refine .inr (.inl ⟨rfl, ?_⟩)
    simp only [isControl, Bool.or_eq_true, Bool.and_eq_true, decide_eq_true_eq] at h
    omega
  · exact .inr (.inr ⟨rfl, h₁, h₂, h₃, h₄⟩)

theorem unescapeFrom_escaped (c : Char) (tail : List Char) :
    unescapeFrom .plain (escaped c ++ tail) = c :: unescapeFrom .plain tail := by
  rcases escaped_cases c with ⟨d, h, hx, hu, -, -, hd⟩ | ⟨h, hlt⟩ | ⟨h, -, hc, -, -⟩
  · rw [h, List.cons_append, unescapeFrom, if_pos rfl, List.cons_append, unescapeFrom, if_neg hx,
      if_neg hu, hd]
    rfl
  · have hbrace : ∀ d < 16, hexDigit d ≠ '\x7b' := by decide
    have hd : ∀ m, m % 16 < 16 := fun m => Nat.mod_lt _ (by decide)
    have hcode := codePoint_fourHexDigits hlt
    rw [fourHexDigits] at h hcode
    rw [h]
    simp only [List.cons_append, List.nil_append, unescapeFrom, if_true]
    simp [hbrace _ (hd _), resolved, hcode]
  · rw [h, List.singleton_append, unescapeFrom, if_neg hc]

/-- What is escaped means what was there. -/
theorem unescape_flatMap_escaped (cs : List Char) : unescape (cs.flatMap escaped) = cs := by
  rw [unescape]
  induction cs with
  | nil => rfl
  | cons c cs ih => rw [List.flatMap_cons, unescapeFrom_escaped, ih]

theorem unquoted_quoteChars (cs : List Char) : unquoted (quoteChars cs) = cs.flatMap escaped := by
  have hlast : (cs.flatMap escaped ++ ['"']).getLast? = some '"' := by simp
  rw [quoteChars]
  cases hl : cs.flatMap escaped ++ ['"'] with
  | nil => simp at hl
  | cons d rest =>
    rw [hl] at hlast
    rw [unquoted, if_pos (by rw [hlast]; decide), ← hl, List.dropLast_concat]

/-- **A quoted text means the text.** -/
theorem unescape_quoteChars (cs : List Char) : unescape (unquoted (quoteChars cs)) = cs := by
  rw [unquoted_quoteChars, unescape_flatMap_escaped]

end Text

namespace Source

theorem wordEscape_fourHexDigits (n : ℕ) (tail : Chars) :
    wordEscape ('\\' :: 'u' :: (Text.fourHexDigits n ++ tail)) = some 6 := by
  have hbrace : ∀ d < 16, Text.hexDigit d ≠ '\x7b' := by decide
  have hd : ∀ m, m % 16 < 16 := fun m => Nat.mod_lt _ (by decide)
  rw [Text.fourHexDigits]
  simp only [List.cons_append, List.nil_append]
  rw [wordEscape]
  · simp [Text.isDigitOf_hexDigit (hd _)]
  · exact hbrace _ (hd _)

/-- A text in double quotes does not end at an escaped character. -/
theorem stringEnd_escaped (c : Char) (tail : Chars) :
    stringEnd '"' 0 (Text.escaped c ++ tail) = stringEnd '"' 0 tail := by
  rcases Text.escaped_cases c with ⟨d, h, hx, hu, hoct, hr, -⟩ | ⟨h, -⟩ | ⟨h, hq, hb, hn, hr⟩
  · have hlen : escapeLength ('\\' :: d :: tail) = some 2 := by
      rw [escapeLength]
      · rw [if_neg hx, hoct]
        rfl
      · exact fun _ _ _ h => absurd h hx
      · exact hu
      · exact fun _ h => absurd h hr
    rw [h, List.cons_append, List.singleton_append, stringEnd, if_neg (by decide), if_pos rfl, hlen]
    rfl
  · have hlen : escapeLength ('\\' :: 'u' :: (Text.fourHexDigits c.toNat ++ tail)) = some 6 := by
      rw [escapeLength, wordEscape_fourHexDigits]
    rw [h, List.cons_append, List.cons_append, stringEnd, if_neg (by decide), if_pos rfl, hlen]
    rfl
  · rw [h, List.singleton_append, stringEnd, if_neg hq, if_neg hb, if_neg (by simp [hn, hr])]

/-- **A quoted text is one token.** -/
theorem stringHere_quoteChars (cs rest : Chars) :
    stringHere (Text.quoteChars cs ++ rest) = some rest := by
  rw [Text.quoteChars, List.cons_append, stringHere, if_pos (by decide), List.append_assoc]
  induction cs with
  | nil => rfl
  | cons c cs ih => rw [List.flatMap_cons, List.append_assoc, stringEnd_escaped, ih]

/-! ### Regular expressions -/

/-- A body without problems is taken up to the slash behind it. -/
theorem bodyFrom_append {rest : Chars} : ∀ {body : Chars} {place : Regex.Place} {offset : ℕ},
    Regex.bodyProblemFrom place offset body = none →
      bodyFrom place (body ++ '/' :: rest) = some (body, rest)
  | [], place, offset, h => by
    rw [Regex.bodyProblemFrom] at h
    have hopen : place.isOpen = true := by
      rw [Regex.Place.isOpen]
      split at h
      · cases h
      · split at h
        · cases h
        · simp_all
    simp [bodyFrom, hopen]
  | c :: body, place, offset, h => by
    rw [Regex.bodyProblemFrom] at h
    split at h
    · cases h
    · next hline =>
      split at h
      · cases h
      · next hslash =>
        have hnl : c ≠ '\n' := by
          rintro rfl
          exact hline (by decide)
        rw [List.cons_append, bodyFrom, if_neg hnl, if_neg hslash, bodyFrom_append h]

/-- A body without problems has no slash to escape. -/
theorem escapeFrom_eq_self : ∀ {body : Chars} {place : Regex.Place} {offset : ℕ},
    Regex.bodyProblemFrom place offset body = none → Regex.escapeFrom place body = body
  | [], _, _, _ => rfl
  | c :: body, place, offset, h => by
    rw [Regex.bodyProblemFrom] at h
    split at h
    · cases h
    · split at h
      · cases h
      · next hslash => rw [Regex.escapeFrom, if_neg hslash, escapeFrom_eq_self h]

/-- What the check of a regular expression says. -/
theorem bodyProblemFrom_of_problem? {pattern flags : String}
    (h : Regex.problem? pattern flags = none) : pattern.toList ≠ [] ∧
      pattern.toList.head? ≠ some '*' ∧ Regex.bodyProblemFrom .start 0 pattern.toList = none ∧
        Regex.validFlags flags.toList = true := by
  rw [Regex.problem?] at h
  split at h
  · cases h
  · next hne =>
    split at h
    · cases h
    · next hbody =>
      rw [Regex.bodyProblem?] at hbody
      split at hbody
      · cases hbody
      · next hstar =>
        split at h
        · next hflags =>
          refine ⟨?_, hstar, hbody, hflags⟩
          simpa [String.isEmpty_iff] using hne
        · cases h

/-- A regular expression that can be written needs no further backslash. -/
theorem ofPattern_eq {pattern flags : String} (h : Regex.problem? pattern flags = none) :
    Value.ofPattern pattern flags = .regex pattern flags := by
  rw [Value.ofPattern, Regex.escapeSlashes,
    escapeFrom_eq_self (bodyProblemFrom_of_problem? h).2.2.1, String.ofList_toList]

theorem isFlag_of_validFlags : ∀ {flags : Chars}, Regex.validFlags flags = true →
    ∀ c ∈ flags, isFlag c = true
  | [], _, c, hc => by cases hc
  | d :: flags, h, c, hc => by
    simp only [Regex.validFlags, Bool.and_eq_true] at h
    rcases List.mem_cons.1 hc with rfl | hc
    · exact Text.forall_mem_of_all (p := fun d => isFlag d = true) (by decide) c
        (List.contains_iff_mem.1 h.1.1)
    · exact isFlag_of_validFlags h.2 c hc

/-- A list is cut behind its members that satisfy a property. -/
theorem span_append {α : Type} {p : α → Bool} {front rest : List α} (h : ∀ a ∈ front, p a = true)
    (hrest : ∀ a ∈ rest.head?, p a = false) : (front ++ rest).span p = (front, rest) := by
  have hstop : rest.takeWhile p = [] ∧ rest.dropWhile p = rest := by
    cases rest with
    | nil => exact ⟨rfl, rfl⟩
    | cons a rest => simp [hrest a rfl]
  rw [List.span_eq_takeWhile_dropWhile, List.takeWhile_append_of_pos h,
    List.dropWhile_append_of_pos h, hstop.1, hstop.2, List.append_nil]

/-- Where a word ends, neither a letter nor a digit nor an underscore follows. -/
theorem StopsWord.isAlphanum_eq_false {rest : Chars} (h : StopsWord rest) :
    ∀ c ∈ rest.head?, c.isAlphanum = false ∧ c ≠ '_' := by
  intro c hc
  obtain ⟨hword, -⟩ := h c hc
  refine ⟨?_, ?_⟩
  · rw [Bool.eq_false_iff]
    intro hletter
    rw [inWord_of_isAlphanum hletter] at hword
    cases hword
  · rintro rfl
    revert hword
    decide

theorem isFlag_of_stopsWord {rest : Chars} (h : StopsWord rest) :
    ∀ c ∈ rest.head?, isFlag c = false := by
  intro c hc
  rw [Bool.eq_false_iff]
  intro hflag
  have hlower : c.isLower = true := by
    simp only [isFlag, Bool.and_eq_true, decide_eq_true_eq] at hflag
    delta Char.isLower
    simp only [Bool.and_eq_true, decide_eq_true_eq]
    exact hflag
  have halphanum : c.isAlphanum = true := by
    change ((c.isUpper || c.isLower) || c.isDigit) = true
    rw [hlower, Bool.or_true, Bool.true_or]
  rw [(h.isAlphanum_eq_false c hc).1] at halphanum
  cases halphanum

/-- A slash at the start of a regular expression opens no comment. -/
theorem skip_regex {pattern flags : String} (h : Regex.problem? pattern flags = none)
    (rest : Chars) : skip ('/' :: (pattern.toList ++ '/' :: flags.toList) ++ rest) =
      '/' :: (pattern.toList ++ '/' :: flags.toList) ++ rest := by
  obtain ⟨hne, hstar, hbody, -⟩ := bodyProblemFrom_of_problem? h
  cases hp : pattern.toList with
  | nil => exact absurd hp hne
  | cons c cs =>
    rw [hp] at hstar hbody
    refine skip_slash ?_ (by simpa using hstar)
    rintro rfl
    rw [Regex.bodyProblemFrom, if_neg (by decide), if_pos (by decide)] at hbody
    cases hbody

/-- **A regular expression that can be written is read back.** -/
theorem regexHere_append {pattern flags : String} (h : Regex.problem? pattern flags = none)
    {rest : Chars} (hrest : StopsWord rest) :
    regexHere ('/' :: (pattern.toList ++ '/' :: flags.toList) ++ rest) =
      some (⟨pattern.toList, flags.toList⟩, rest) := by
  obtain ⟨hne, -, hbody, hflags⟩ := bodyProblemFrom_of_problem? h
  have hassoc : '/' :: (pattern.toList ++ '/' :: flags.toList) ++ rest =
      '/' :: (pattern.toList ++ '/' :: (flags.toList ++ rest)) := by simp
  rw [hassoc, regexHere, bodyFrom_append hbody]
  cases hp : pattern.toList with
  | nil => exact absurd hp hne
  | cons c cs =>
    simp only
    rw [span_append (isFlag_of_validFlags hflags) (isFlag_of_stopsWord hrest)]

/-! ### Numbers -/

theorem isDigitOf_ten (c : Char) : Text.isDigitOf 10 c = c.isDigit := by
  by_cases hc : c.toNat < 128
  · exact Text.forall_ascii (p := fun c => Text.isDigitOf 10 c = c.isDigit) (by decide) hc
  · have habove : ∀ d : Char, d.toNat < 128 → ¬c ≤ d := fun d hd hle => by
      have : c.toNat ≤ d.toNat := hle
      omega
    have hdigit : c.isDigit = false := by
      rw [Bool.eq_false_iff]
      simp only [Char.isDigit, Ne, Bool.and_eq_true, decide_eq_true_eq, not_and]
      exact fun _ => habove '9' (by decide)
    rw [hdigit, Text.isDigitOf, Text.digitValue, if_neg fun h => habove '9' (by decide) h.2,
      if_neg fun h => habove 'f' (by decide) h.2, if_neg fun h => habove 'F' (by decide) h.2]

/-- Neither a digit nor an underscore follows. -/
def StopsDigits (rest : Chars) : Prop :=
  ∀ c ∈ rest.head?, c.isDigit = false ∧ c ≠ '_'

theorem StopsWord.stopsDigits {rest : Chars} (h : StopsWord rest) : StopsDigits rest := by
  intro c hc
  obtain ⟨hletter, hunderscore⟩ := h.isAlphanum_eq_false c hc
  simp only [Char.isAlphanum, Bool.or_eq_false_iff] at hletter
  exact ⟨hletter.2, hunderscore⟩

/-- Digits are taken up to where neither a digit nor an underscore follows. -/
theorem digitsEnd_append {ds rest : Chars} (hd : ∀ c ∈ ds, c.isDigit = true)
    (hrest : StopsDigits rest) : digitsEnd 10 (ds ++ rest) = rest := by
  induction ds with
  | nil =>
    cases rest with
    | nil => rfl
    | cons c rest =>
      obtain ⟨hc, hunderscore⟩ := hrest c rfl
      rw [List.nil_append, digitsEnd, isDigitOf_ten, hc]
      · rfl
      · exact fun _ _ h => absurd h hunderscore
  | cons c ds ih =>
    have hc := hd c (by simp)
    rw [List.cons_append, digitsEnd, isDigitOf_ten, if_pos hc]
    · exact ih fun d hd' => hd d (List.mem_cons_of_mem _ hd')
    · rintro c' cs rfl -
      exact absurd hc (by decide)

theorem digits_append {ds rest : Chars} (hne : ds ≠ []) (hd : ∀ c ∈ ds, c.isDigit = true)
    (hrest : StopsDigits rest) : digits 10 (ds ++ rest) = some rest := by
  cases ds with
  | nil => exact absurd rfl hne
  | cons c ds =>
    rw [List.cons_append, digits, isDigitOf_ten, if_pos (hd c (by simp)),
      digitsEnd_append (fun d hd' => hd d (List.mem_cons_of_mem _ hd')) hrest]

theorem exponentEnd_eq_self {rest : Chars} (h : StopsWord rest) : exponentEnd rest = rest := by
  cases rest with
  | nil => rfl
  | cons c rest =>
    have hc := (h.isAlphanum_eq_false c rfl).1
    have hmark : (c = 'e' || c = 'E') = false := by
      rw [Bool.eq_false_iff]
      simp only [Ne, Bool.or_eq_true, decide_eq_true_eq]
      rintro (rfl | rfl)
      · exact absurd hc (by decide)
      · exact absurd hc (by decide)
    unfold exponentEnd
    simp only [hmark, Bool.false_eq_true, if_false]

theorem bigEnd_eq_self {rest : Chars} (h : StopsWord rest) : bigEnd rest = rest := by
  rw [bigEnd.eq_def]
  split
  · exact absurd (h.isAlphanum_eq_false 'n' rfl).1 (by decide)
  · rfl

/-- The text of a decimal number: digits, and possibly a point and digits behind it. In front of
a point no superfluous zero stands. -/
inductive IsDecimal : Chars → Prop
  /-- Digits alone. -/
  | whole {ds : Chars} : ds ≠ [] → (∀ c ∈ ds, c.isDigit = true) → IsDecimal ds
  /-- Digits, a point, and digits. -/
  | point {ds part : Chars} : ds ≠ [] → (∀ c ∈ ds, c.isDigit = true) →
      (ds = ['0'] ∨ ds.head? ≠ some '0') → part ≠ [] → (∀ c ∈ part, c.isDigit = true) →
      IsDecimal (ds ++ '.' :: part)

theorem toNat_lt_of_isDigit {c : Char} (h : c.isDigit = true) : c.toNat < 128 := by
  have := (Char.isDigit_iff_toNat.1 h).2
  have : '9'.toNat = 57 := rfl
  omega

theorem isAlpha_of_isDigit {c : Char} (h : c.isDigit = true) : c.isAlpha = false :=
  Text.forall_ascii (p := fun c => c.isDigit = true → c.isAlpha = false) (by decide)
    (toNat_lt_of_isDigit h) h

/-- A number whose first digit is followed by no letter has no radix mark. -/
theorem numberHere_eq {ds tail rest : Chars} (hne : ds ≠ []) (hd : ∀ c ∈ ds, c.isDigit = true)
    (htail : ∀ c ∈ tail.head?, c.isAlphanum = false ∧ c ≠ '_')
    (hend : decimalEnd (ds ++ tail) tail = rest) : numberHere (ds ++ tail) = some rest := by
  have hstop : StopsDigits tail := by
    intro c hc
    obtain ⟨hletter, hunderscore⟩ := htail c hc
    simp only [Char.isAlphanum, Bool.or_eq_false_iff] at hletter
    exact ⟨hletter.2, hunderscore⟩
  have hsecond : ∀ c, (ds ++ tail).tail.head? = some c → c.isAlpha = false := by
    intro c hc
    cases ds with
    | nil => exact absurd rfl hne
    | cons d ds =>
      cases ds with
      | nil =>
        have := (htail c hc).1
        simp only [Char.isAlphanum, Bool.or_eq_false_iff] at this
        exact this.1
      | cons d' ds =>
        obtain rfl : d' = c := by simpa using hc
        exact isAlpha_of_isDigit (hd d' (by simp))
  -- the marks of the other radixes are letters
  have hmark : ∀ x rest', ds ++ tail = '0' :: x :: rest' → x.isAlpha = false := by
    intro x rest' h
    exact hsecond x (by rw [h]; rfl)
  have hplain : (digits 10 (ds ++ tail)).map (decimalEnd (ds ++ tail)) = some rest := by
    rw [digits_append hne hd hstop, Option.map_some, hend]
  have hhead : ∀ rest', ds ++ tail ≠ '.' :: rest' := by
    cases ds with
    | nil => exact absurd rfl hne
    | cons d ds =>
      intro rest' h
      obtain ⟨rfl, -⟩ := List.cons.inj h
      exact absurd (hd '.' (by simp)) (by decide)
  unfold numberHere
  simp only
  split
  · next h => exact absurd (hmark _ _ h) (by decide)
  · next h => exact absurd (hmark _ _ h) (by decide)
  · next h => exact absurd (hmark _ _ h) (by decide)
  · next h => exact absurd (hmark _ _ h) (by decide)
  · next h => exact absurd (hmark _ _ h) (by decide)
  · next h => exact absurd (hmark _ _ h) (by decide)
  · exact hplain

/-- **A decimal is one token.** -/
theorem numberHere_append {cs rest : Chars} (h : IsDecimal cs) (hrest : StopsWord rest)
    (hpoint : rest.head? ≠ some '.') : numberHere (cs ++ rest) = some rest := by
  cases h with
  | whole hne hd =>
    refine numberHere_eq hne hd hrest.isAlphanum_eq_false ?_
    rw [decimalEnd, upTo_append]
    · split
      · simp [exponentEnd_eq_self hrest, bigEnd_eq_self hrest]
      · exact bigEnd_eq_self hrest
    · rintro rest' rfl
      exact hpoint rfl
  | @point ds part hne hd hzero hne' hd' =>
    have hmay : mayContinue ds = true := by
      rcases hzero with rfl | hzero
      · rfl
      · cases ds with
        | nil => exact absurd rfl hne
        | cons d ds =>
          rw [mayContinue]
          all_goals simp_all
    rw [List.append_assoc, List.cons_append]
    refine numberHere_eq hne hd (by simp +decide) ?_
    rw [decimalEnd, upTo_append, if_pos hmay, digits_append hne' hd' hrest.stopsDigits,
      Option.getD_some, exponentEnd_eq_self hrest]

end Source

namespace Number

/-! ### The text of a decimal -/

/-- Decimal digits do not begin with a superfluous zero. -/
theorem head?_toDigits_ne : ∀ {n : ℕ}, 0 < n → (Nat.toDigits 10 n).head? ≠ some '0' := by
  intro n
  induction n using Nat.strongRecOn with
  | ind n ih =>
    intro hn
    rcases Nat.lt_or_ge n 10 with hlt | hge
    · rw [Nat.toDigits_of_lt_base hlt]
      exact (by decide : ∀ n < 10, 0 < n → [n.digitChar].head? ≠ some '0') n hlt hn
    · rw [Nat.toDigits_of_base_le (by decide) hge, List.head?_append,
        List.head?_eq_some_head Nat.toDigits_ne_nil, Option.some_or,
        ← List.head?_eq_some_head Nat.toDigits_ne_nil]
      exact ih (n / 10) (by omega) (by omega)

/-- **A number is written as a decimal.** -/
theorem isDecimal_positional (d : Decimal) : Source.IsDecimal d.positional := by
  have hdigits : ∀ c ∈ Text.decimalDigits d.digits, c.isDigit = true := fun c hc =>
    Nat.isDigit_of_mem_toDigits (by decide) (by decide) hc
  have hne : Text.decimalDigits d.digits ≠ [] := Nat.toDigits_ne_nil
  have hzeros : ∀ n, ∀ c ∈ List.replicate n '0', c.isDigit = true := by
    intro n c hc
    rw [List.eq_of_mem_replicate hc]
    rfl
  rw [Decimal.positional]
  simp only
  split
  · -- zeros behind the digits
    refine .whole (by simp [hne]) fun c hc => ?_
    rcases List.mem_append.1 hc with hc | hc
    · exact hdigits c hc
    · exact hzeros _ c hc
  · next hexp =>
    split
    · -- a zero, and zeros in front of the digits
      refine .point (show ['0'] ≠ [] by simp) (by simp) (.inl rfl) (by simp [hne]) fun c hc => ?_
      rcases List.mem_append.1 hc with hc | hc
      · exact hzeros _ c hc
      · exact hdigits c hc
    · -- the point stands between the digits
      next hlen =>
      have hplaces : 0 < (-d.exponent).toNat := by omega
      have hpos : 0 < d.digits := by
        rcases Nat.eq_zero_or_pos d.digits with h | h
        · have hone : (Text.decimalDigits d.digits).length = 1 := by rw [h]; rfl
          omega
        · exact h
      refine .point ?_ ?_ (.inr ?_) ?_ ?_
      · rw [Ne, List.take_eq_nil_iff]
        simp only [hne, or_false]
        omega
      · exact fun c hc => hdigits c (List.mem_of_mem_take hc)
      · rw [List.head?_take, if_neg (by omega)]
        exact head?_toDigits_ne hpos
      · rw [Ne, List.drop_eq_nil_iff]
        omega
      · exact fun c hc => hdigits c (List.mem_of_mem_drop hc)

/-! ### The number of a decimal -/

theorem Double.neg_ofRank (negative : Bool) (rank : ℕ) :
    (Double.ofRank negative rank).neg = .ofRank (! negative) rank := by
  rw [ofRank, ofRank]
  split <;> rfl

/-- The sign of a decimal is that of its number. -/
theorem Double.neg_ofDecimal (negative : Bool) (digits : ℕ) (exponent : Int) :
    (Double.ofDecimal negative digits exponent).neg = .ofDecimal (! negative) digits exponent := by
  simp only [ofDecimal, ofRatio]
  split
  · exact neg_ofRank negative 0
  split
  · exact neg_ofRank negative 0
  split
  · rfl
  split
  · exact neg_ofRank negative _
  · exact neg_ofRank negative _

theorem readMagnitude_neg (negative : Bool) (cs : List Char) :
    readMagnitude (! negative) cs = (readMagnitude negative cs).map Double.neg := by
  simp only [readMagnitude]
  split
  · rfl
  · split
    · simp [Double.neg_ofDecimal]
    · split
      · split
        · simp [Double.neg_ofDecimal]
        · rfl
      · rfl

/-- The characters of a decimal. -/
theorem mem_isDecimal {cs : List Char} (h : Source.IsDecimal cs) :
    ∀ c ∈ cs, c.isDigit = true ∨ c = '.' := by
  cases h with
  | whole _ hd => exact fun c hc => .inl (hd c hc)
  | point _ hd _ _ hd' =>
    intro c hc
    rcases List.mem_append.1 hc with hc | hc
    · exact .inl (hd c hc)
    · rcases List.mem_cons.1 hc with rfl | hc
      · exact .inr rfl
      · exact .inl (hd' c hc)

/-- A character that is neither a digit nor a point does not stand in a decimal. -/
theorem notMem_isDecimal {cs : List Char} (h : Source.IsDecimal cs) {c : Char}
    (hdigit : c.isDigit = false) (hpoint : c ≠ '.') : c ∉ cs := by
  intro hc
  rcases mem_isDecimal h c hc with hd | hd
  · rw [hdigit] at hd
    cases hd
  · exact hpoint hd

theorem smallAscii_isDecimal {cs : List Char} (h : Source.IsDecimal cs) : smallAscii cs = cs := by
  have hlower : ∀ c ∈ cs, c.toLower = c := by
    intro c hc
    rcases mem_isDecimal h c hc with hd | rfl
    · exact Text.forall_ascii (p := fun c => c.isDigit = true → c.toLower = c) (by decide)
        (Source.toNat_lt_of_isDigit hd) hd
    · rfl
  rw [smallAscii, List.map_congr_left hlower, List.map_id']

/-- A decimal is not one of the words for numbers. -/
theorem isDecimal_ne_word {cs : List Char} (h : Source.IsDecimal cs) :
    (cs = "inf".toList || cs = "infinity".toList) = false ∧ cs ≠ "nan".toList := by
  have hn : 'n' ∉ cs := notMem_isDecimal h (by decide) (by decide)
  have hinf : cs ≠ "inf".toList := by
    rintro rfl
    exact hn (by decide)
  have hinfinity : cs ≠ "infinity".toList := by
    rintro rfl
    exact hn (by decide)
  refine ⟨?_, ?_⟩
  · rw [decide_eq_false hinf, decide_eq_false hinfinity]
    rfl
  · rintro rfl
    exact hn (by decide)

/-- A decimal without a sign is read as its digits. -/
theorem ofChars_isDecimal {cs : List Char} (h : Source.IsDecimal cs) :
    Double.ofChars cs = readMagnitude false cs := by
  have hsign : splitSign cs = (false, cs) := by
    rw [splitSign.eq_def]
    split
    · exact absurd (List.mem_cons_self) (notMem_isDecimal h (by decide) (by decide))
    · exact absurd (List.mem_cons_self) (notMem_isDecimal h (by decide) (by decide))
    · rfl
  obtain ⟨hinf, hnan⟩ := isDecimal_ne_word h
  rw [Double.ofChars, hsign]
  simp only [smallAscii_isDecimal h]
  rw [hinf, if_neg Bool.false_ne_true, if_neg hnan]

theorem ofChars_neg_isDecimal {cs : List Char} (h : Source.IsDecimal cs) :
    Double.ofChars ('-' :: cs) = readMagnitude true cs := by
  obtain ⟨hinf, hnan⟩ := isDecimal_ne_word h
  rw [Double.ofChars, splitSign]
  simp only [smallAscii_isDecimal h]
  rw [hinf, if_neg Bool.false_ne_true, if_neg hnan]

/-- There are neither underscores nor capitals in a decimal. -/
theorem smallAscii_filter_isDecimal {cs : List Char} (h : Source.IsDecimal cs) :
    smallAscii (cs.filter (· != '_')) = cs := by
  have hplain : cs.filter (· != '_') = cs := by
    rw [List.filter_eq_self]
    intro c hc
    rw [bne_iff_ne]
    rintro rfl
    exact notMem_isDecimal h (by decide) (by decide) hc
  rw [hplain, smallAscii_isDecimal h]

/-- A decimal has no radix mark. -/
theorem isDecimal_ne_radix {cs digits : List Char} (h : Source.IsDecimal cs) {c : Char}
    (hdigit : c.isDigit = false) (hpoint : c ≠ '.') : cs ≠ '0' :: c :: digits := by
  rintro rfl
  exact notMem_isDecimal h hdigit hpoint (by simp)

/-- A decimal is read as a literal as it is read as a text. -/
theorem ofLiteral_isDecimal {cs : List Char} (h : Source.IsDecimal cs) :
    Double.ofLiteral cs = readMagnitude false cs := by
  -- no mark of a big number stands at the end
  have hbig : (cs.reverse.dropWhile (· == 'n')).reverse = cs := by
    have hkeep : cs.reverse.dropWhile (· == 'n') = cs.reverse := by
      cases hr : cs.reverse with
      | nil => rfl
      | cons c rest =>
        have hc : c ≠ 'n' := by
          rintro rfl
          refine notMem_isDecimal h (c := 'n') (by decide) (by decide) ?_
          rw [← List.mem_reverse, hr]
          simp
        rw [List.dropWhile_cons_of_neg (by simpa using hc)]
    rw [hkeep, List.reverse_reverse]
  rw [Double.ofLiteral, smallAscii_filter_isDecimal h]
  split
  · exact absurd rfl (isDecimal_ne_radix h (by decide) (by decide))
  · exact absurd rfl (isDecimal_ne_radix h (by decide) (by decide))
  · exact absurd rfl (isDecimal_ne_radix h (by decide) (by decide))
  · rw [hbig, ofChars_isDecimal h]

/-- **A finite number whose text reads back is the literal of its digits**, with the sign left
to the operator in front of it. -/
theorem ofLiteral_positional {negative : Bool} {rank : Fin rankCount}
    (h : Double.ofText (Double.finite negative rank).toText = some (.finite negative rank)) :
    Double.ofLiteral (shortest rank).positional = some (.finite false rank) := by
  have hdec := isDecimal_positional (shortest rank)
  rw [ofLiteral_isDecimal hdec]
  rw [Double.ofText, Double.toText, String.toList_ofList] at h
  cases negative with
  | false =>
    rw [if_neg (by decide), List.nil_append, ofChars_isDecimal hdec] at h
    exact h
  | true =>
    -- the digits alone give the number with the other sign
    rw [if_pos rfl, List.singleton_append, ofChars_neg_isDecimal hdec] at h
    rw [show false = !true from rfl, readMagnitude_neg, h]
    rfl

end Number

end ModuleScaffold
